import Offside.CommandLine.Arguments

/-!
# Commands

What the program can be asked to do, and how it is written: a command with its own arguments, and
switches for every command that can stand before or after it.
-/

namespace Offside

/-- What the program does. -/
inductive Command where
  /-- Compile a stylesheet and print it. -/
  | styles (path : Text) (style cacheDirectory : Option Text) (constants : List Text)
  /-- Compile a template, and render it unless only its code is asked for. -/
  | template (path : Text) (root valueFile : Option Text) (values : List Text)
      (compileOnly debug noCache : Bool)
  /-- List the output styles. -/
  | listStyles
  /-- Remove compiled templates. -/
  | clear (root : Text)
  deriving Repr, DecidableEq

/-- A command with the settings file it uses. -/
structure Invocation where
  command : Command
  settingsFile : Option Text
  deriving Repr, DecidableEq

/-- What the arguments of the program ask for. -/
inductive Request where
  | run (invocation : Invocation)
  | version
  | help
  deriving Repr, DecidableEq

/-! ## Grammars -/

/-- A switch without a letter. -/
def longSwitch (name : Text) (kind : SwitchKind) : Switch := ⟨name, none, kind⟩

/-- The switches of every command. -/
def sharedSwitches : List Switch := [
  ⟨"config", some 'c', .value⟩, ⟨"verbose", some 'v', .count⟩, ⟨"help", some 'h', .stop⟩]

/-- The arguments in front of a command. -/
def programGrammar : ArgumentGrammar :=
  ⟨⟨"version", some 'V', .stop⟩ :: sharedSwitches, [], true⟩

/-- The arguments of the command that compiles stylesheets. -/
def stylesGrammar : ArgumentGrammar where
  switches := sharedSwitches ++ [
    ⟨"style", some 's', .value⟩, longSwitch "cache-dir" .value, longSwitch "const" .values]
  plain := ["path"]
  hasCommands := false

/-- The arguments of the command that compiles templates. -/
def templateGrammar : ArgumentGrammar where
  switches := sharedSwitches ++ [
    longSwitch "root" .value, longSwitch "vars" .value, longSwitch "set" .values,
    longSwitch "compile-only" .flag, longSwitch "debug" .flag, longSwitch "no-cache" .flag]
  plain := ["path"]
  hasCommands := false

/-- The arguments of the command that lists styles. -/
def listStylesGrammar : ArgumentGrammar := ⟨sharedSwitches, [], false⟩

/-- The arguments of the command that removes compiled templates. -/
def clearGrammar : ArgumentGrammar := ⟨sharedSwitches, ["root"], false⟩

/-! ## Reading -/

namespace Command

/-- The command of a name: the arguments it takes, and what it is with them. -/
def ofName? (name : Text) : Option (ArgumentGrammar × (GivenArguments → Command)) :=
  let first (g : GivenArguments) : Text := g.plain.head?.getD []
  if name == "css" then
    some (stylesGrammar, fun g =>
      .styles (first g) (g.value? "style") (g.value? "cache-dir") (g.values "const"))
  else if name == "html" then
    some (templateGrammar, fun g =>
      .template (first g) (g.value? "root") (g.value? "vars") (g.values "set")
        (g.has "compile-only") (g.has "debug") (g.has "no-cache"))
  else if name == "styles" then some (listStylesGrammar, fun _ => .listStyles)
  else if name == "clear" then some (clearGrammar, fun g => .clear (first g))
  else none

end Command

namespace Request

/-- The request for help on a command, or on the program. -/
def helpOn : List Text → Except UsageError Request
  | [] => .ok .help
  | name :: _ =>
    if (Command.ofName? name).isSome || name == "help" then .ok .help
    else .error (.unknownCommand name)

/-- What arguments ask for, if reading them did not end early. -/
def ofArgumentsWithin (arguments : List Text) : Except ArgumentStop Request := do
  let (before, rest) ← programGrammar.read arguments
  match rest with
  | [] => .error (.usage .missingCommand)
  | name :: rest =>
    match Command.ofName? name with
    | none =>
      if name == "help" then (helpOn rest).mapError .usage
      else .error (.usage (.unknownCommand name))
    | some (grammar, command) => do
      let (g, _) ← grammar.read rest
      return .run ⟨command g, (g.value? "config").or (before.value? "config")⟩

/-- What arguments ask for. -/
def ofArguments (arguments : List Text) : Except UsageError Request :=
  match ofArgumentsWithin arguments with
  | .ok request => .ok request
  | .error (.usage cause) => .error cause
  | .error (.asked name) => .ok (if name == "version" then .version else .help)

end Request

end Offside
