import Offside.Template.Options

/-!
# The head of an element line

An element line has a head, up to the first space, and then content:

```text
%a.nav#home{:title => 'Home'}@/index Home
```

Groups of options belong to the head, and may also stand between the head and the content.  Once
they are taken out, the head is a sequence of tokens, each as long as it can be.  Characters that
belong to no token are passed over, and a square bracket that is never closed takes the rest of the
head with it.
-/

namespace Offside

/-! ## Parts of the line -/

/-- What follows the first occurrence of a character is shorter than the text. -/
theorem length_of_splitOnce? {sep : Char} {t before after : Text}
    (h : Text.splitOnce? sep t = some (before, after)) : after.length < t.length := by
  induction t generalizing before with
  | nil => simp [Text.splitOnce?] at h
  | cons c cs ih =>
    by_cases hc : c = sep
    · simp only [Text.splitOnce?, hc, ↓reduceIte, Option.some.injEq, Prod.mk.injEq] at h
      simp [← h.2]
    · simp only [Text.splitOnce?, hc, ↓reduceIte, Option.map_eq_some_iff] at h
      obtain ⟨⟨left, right⟩, found, same⟩ := h
      have := ih (found.trans (by rw [← (Prod.mk.inj same).2]))
      simp only [List.length_cons]
      omega

/-- The parts of an element line. -/
structure ElementParts where
  head : Text
  /-- What stands in each group of options. -/
  groups : List Text
  content : Text
  deriving Repr, DecidableEq

namespace ElementParts

/-- Put a text in front of the head. -/
def addToHead (t : Text) (parts : ElementParts) : ElementParts :=
  { parts with head := t ++ parts.head }

/-- Put a group of options in front. -/
def addGroup (group : Text) (parts : ElementParts) : ElementParts :=
  { parts with groups := group :: parts.groups }

end ElementParts

/-- Cut a line where its head ends.  An equals sign ends the head, and belongs to it with a dollar
sign that follows, unless a target has begun.  There is no answer if a group of options is not
closed. -/
def splitHead (inTarget : Bool) (line : Text) : Option ElementParts :=
  match line with
  | [] => some ⟨[], [], []⟩
  | c :: rest =>
    if c == ' ' then some ⟨[], [], c :: rest⟩
    else if c == '@' then (splitHead true rest).map (·.addToHead [c])
    else if c == '=' && !inTarget then
      match rest with
      | '$' :: rest => some ⟨"=$", [], rest⟩
      | _ => some ⟨"=", [], rest⟩
    else if c == '\x7b' then
      match _found : Text.splitOnce? '\x7d' rest with
      | some (group, rest) => (splitHead inTarget rest).map (·.addGroup group)
      | none => none
    else if c == '[' then
      match _found : Text.splitOnce? ']' rest with
      | some (inner, rest) => (splitHead inTarget rest).map (·.addToHead ("[" ++ inner ++ "]"))
      | none => (splitHead inTarget rest).map (·.addToHead [c])
    else (splitHead inTarget rest).map (·.addToHead [c])
termination_by line.length
decreasing_by
  all_goals simp only [List.length_cons]
  all_goals first
    | omega
    | exact Nat.lt_succ_of_lt (length_of_splitOnce? ‹_›)

/-- Whether a text begins with a group of options, and not with an expression or an instruction. -/
def startsGroup : Text → Bool
  | '\x7b' :: '\x7b' :: _ => false
  | '\x7b' :: '%' :: _ => false
  | '\x7b' :: _ => true
  | _ => false

/-- Dropping white space makes no text longer. -/
theorem length_trimStart_le (t : Text) : (Text.trimStart t).length ≤ t.length :=
  (List.dropWhile_suffix _).length_le

/-- Take groups of options off the beginning of the content. -/
def splitGroups (content : Text) : Option (List Text × Text) :=
  if startsGroup content then
    match _found : Text.splitOnce? '\x7d' content with
    | some (group, rest) =>
      (splitGroups (Text.trimStart rest)).map fun (groups, content) =>
        (group.drop 1 :: groups, content)
    | none => none
  else some ([], content)
termination_by content.length
decreasing_by
  have := length_of_splitOnce? ‹_›
  have := length_trimStart_le rest
  omega

/-- The parts of an element line, unless a group of options is not closed. -/
def ElementParts.ofLine? (line : Text) : Option ElementParts := do
  let parts ← splitHead false line
  let (groups, content) ← splitGroups (Text.trimStart parts.content)
  return { parts with groups := parts.groups ++ groups, content := content }

/-! ## Tokens of the head -/

/-- A token of a head. -/
inductive HeadToken where
  | tag (name : Text)
  | id (name : Text)
  | className (name : Text)
  | object (code : Text)
  | target (written : Text)
  | expression
  | translate
  | selfClose
  deriving Repr, DecidableEq

namespace HeadToken

/-- Whether a character can be part of a name. -/
def isNameChar (c : Char) : Bool := c.isAlphanum || c == '_' || c == '-'

/-- Whether a character can be part of the name of a tag. -/
def isTagChar (c : Char) : Bool := isNameChar c || c == ':'

/-- The token made from the name at the beginning of a text, if there is one. -/
def ofName (make : Text → HeadToken) (isPart : Char → Bool) (t : Text) : Option HeadToken × Text :=
  let name := t.takeWhile isPart
  if name.isEmpty then (none, t) else (some (make name), t.dropWhile isPart)

/-- The token that begins with a character, if there is one, and what is left. -/
def read (c : Char) (rest : Text) : Option HeadToken × Text :=
  if c == '%' then ofName tag isTagChar rest
  else if c == '#' then ofName id isNameChar rest
  else if c == '.' then ofName className isNameChar rest
  else if c == '[' then
    match Text.splitOnce? ']' rest with
    | some (code, rest) => (some (object (Text.trim code)), rest)
    | none => (none, [])
  else if c == '@' then (some (target (rest.takeWhile (· != '\n'))), rest.dropWhile (· != '\n'))
  else if c == '=' then (some expression, rest)
  else if c == '$' then (some translate, rest)
  else if c == '/' then (some selfClose, rest)
  else (none, rest)

/-- What is left after a name is no longer than the text. -/
theorem length_ofName_le (make : Text → HeadToken) (isPart : Char → Bool) (t : Text) :
    (ofName make isPart t).2.length ≤ t.length := by
  simp only [ofName]
  split
  · exact Nat.le_refl _
  · exact (List.dropWhile_suffix _).length_le

/-- What is left after a token is no longer than what followed its first character. -/
theorem length_read_le (c : Char) (rest : Text) : (read c rest).2.length ≤ rest.length := by
  unfold read
  split; · exact length_ofName_le ..
  split; · exact length_ofName_le ..
  split; · exact length_ofName_le ..
  split
  · split
    · next h => exact Nat.le_of_lt (length_of_splitOnce? h)
    · exact Nat.zero_le _
  split; · exact (List.dropWhile_suffix _).length_le
  repeat (split; · exact Nat.le_refl _)
  exact Nat.le_refl _

/-- The tokens of a head. -/
def tokens (head : Text) : List HeadToken :=
  match head with
  | [] => []
  | c :: rest => (read c rest).1.toList ++ tokens (read c rest).2
termination_by head.length
decreasing_by
  have := length_read_le c rest
  simp only [List.length_cons]
  omega

/-- The name of a tag. -/
def tag? : HeadToken → Option Text
  | tag name => some name
  | _ => none

/-- The name of an id. -/
def id? : HeadToken → Option Text
  | id name => some name
  | _ => none

/-- The name of a class. -/
def className? : HeadToken → Option Text
  | className name => some name
  | _ => none

/-- The expression for further attributes. -/
def object? : HeadToken → Option Text
  | object code => some code
  | _ => none

/-- The target. -/
def target? : HeadToken → Option Text
  | target written => some written
  | _ => none

end HeadToken

end Offside
