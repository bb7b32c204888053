import Offside.Artifacts.Error

/-!
# What can go wrong with a template

One type for the errors of every stage, from the source file to the rendered text.
-/

namespace Offside

/-- Why a template could not be compiled or rendered. -/
inductive TemplateError where
  | sourceNotFound (path : FilePath)
  | unreadable (path : FilePath) (cause : FileError)
  | unclosedOptions (line : Nat) (written : Text)
  | cyclicInclude (passes : Nat)
  | unknownTextBlock (line : Nat) (name : Text)
  | textBlockFailed (line : Nat) (name : Text) (cause : Text)
  | unsupportedInstruction (line : Nat) (keyword : Text)
  | rendering (name : Text) (cause : Text)
  | artifact (cause : ArtifactError)
  deriving Repr, DecidableEq

namespace TemplateError

/-- The text of the error. -/
def message : TemplateError → Text
  | sourceNotFound path => "template not found: " ++ path
  | unreadable path cause => "failed to read " ++ path ++ ": " ++ cause.message
  | unclosedOptions line written =>
    "line " ++ Text.ofNat line ++ ": unterminated attribute options in '" ++ written ++ "'"
  | cyclicInclude passes =>
    "includes still unresolved after " ++ Text.ofNat passes ++
      " passes, is a file including itself?"
  | unknownTextBlock line name =>
    "line " ++ Text.ofNat line ++ ": unknown text block ':" ++ name ++ "'"
  | textBlockFailed line name cause =>
    "line " ++ Text.ofNat line ++ ": text block ':" ++ name ++ "' failed: " ++ cause
  | unsupportedInstruction line keyword =>
    "line " ++ Text.ofNat line ++ ": '- " ++ keyword ++
      "' has no counterpart in the host template language"
  | rendering name cause => "failed to render '" ++ name ++ "': " ++ cause
  | artifact cause => cause.message

end TemplateError

end Offside
