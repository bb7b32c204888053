import Offside.Text.Basic

/-!
# Arguments

An argument that begins with a dash is a switch, any other is a plain argument.  A long switch is
written after two dashes, and its value after an equals sign or as the next argument.  Short
switches are single letters after one dash; several can stand together, and the last of them can be
followed by its value.  After two dashes alone all arguments are plain.

A value that is the next argument does not begin with a dash, unless it is only that.
-/

namespace Offside

/-- What a switch takes. -/
inductive SwitchKind where
  /-- One value; the switch is given once. -/
  | value
  /-- One value each time. -/
  | values
  /-- No value; the switch is given once. -/
  | flag
  /-- No value, any number of times. -/
  | count
  /-- No value; nothing else is looked at. -/
  | stop
  deriving Repr, DecidableEq

namespace SwitchKind

/-- Whether a switch takes a value. -/
def takesValue : SwitchKind → Bool
  | value | values => true
  | flag | count | stop => false

/-- Whether a switch may be given again. -/
def repeats : SwitchKind → Bool
  | values | count => true
  | value | flag | stop => false

end SwitchKind

/-- A switch: its name after two dashes, and perhaps its letter after one. -/
structure Switch where
  name : Text
  letter : Option Char
  kind : SwitchKind
  deriving Repr, DecidableEq

/-- Why arguments cannot be used. -/
inductive UsageError where
  | unknownSwitch (written : Text)
  | missingValue (name : Text)
  | unwantedValue (name : Text)
  | repeatedSwitch (name : Text)
  | unwantedArgument (written : Text)
  | missingArgument (name : Text)
  | unknownCommand (written : Text)
  | missingCommand
  deriving Repr, DecidableEq

namespace UsageError

/-- The text of the error. -/
def message : UsageError → Text
  | unknownSwitch written => "unexpected argument '" ++ written ++ "'"
  | missingValue name => "a value is required for '--" ++ name ++ "'"
  | unwantedValue name => "'--" ++ name ++ "' takes no value"
  | repeatedSwitch name => "'--" ++ name ++ "' cannot be used multiple times"
  | unwantedArgument written => "unexpected argument '" ++ written ++ "'"
  | missingArgument name => "the argument <" ++ name ++ "> is required"
  | unknownCommand written => "unrecognized subcommand '" ++ written ++ "'"
  | missingCommand => "a subcommand is required"

end UsageError

/-- Why reading arguments ended early. -/
inductive ArgumentStop where
  | usage (cause : UsageError)
  /-- A switch that asks for something else. -/
  | asked (name : Text)
  deriving Repr, DecidableEq

/-- A switch as it was given; the value of the last one may still be waited for. -/
structure GivenSwitch where
  name : Text
  value : Option Text
  deriving Repr, DecidableEq

/-- What was given: switches, and plain arguments, in order. -/
structure GivenArguments where
  switches : List GivenSwitch
  plain : List Text
  deriving Repr, DecidableEq

namespace GivenArguments

/-- Nothing given. -/
def empty : GivenArguments := ⟨[], []⟩

/-- Whether a switch was given. -/
def has (g : GivenArguments) (name : Text) : Bool := g.switches.any fun s => s.name == name

/-- The values of a switch. -/
def values (g : GivenArguments) (name : Text) : List Text :=
  g.switches.filterMap fun s => if s.name == name then s.value else none

/-- The value of a switch. -/
def value? (g : GivenArguments) (name : Text) : Option Text := (g.values name).head?

/-- Add a switch. -/
def add (g : GivenArguments) (switch : Switch) (value : Option Text) :
    Except ArgumentStop GivenArguments :=
  if switch.kind == .stop then .error (.asked switch.name)
  else if g.has switch.name && !switch.kind.repeats then
    .error (.usage (.repeatedSwitch switch.name))
  else .ok { g with switches := g.switches ++ [⟨switch.name, value⟩] }

end GivenArguments

/-! ## Switches in an argument -/

/-- What an argument is by the way it begins. -/
inductive ArgumentForm where
  | plain
  /-- Two dashes alone. -/
  | separator
  | long (name : Text) (value : Option Text)
  | short (letters : Text)
  deriving Repr, DecidableEq

/-- The form of an argument. -/
def ArgumentForm.ofText : Text → ArgumentForm
  | ['-', '-'] => .separator
  | '-' :: '-' :: rest =>
    match Text.splitOnce? '=' rest with
    | some (name, value) => .long name (some value)
    | none => .long rest none
  | ['-'] => .plain
  | '-' :: letters => .short letters
  | _ => .plain

/-- The value written right behind a letter, if there is one. -/
def attachedValue? : Text → Option Text
  | [] => none
  | '=' :: rest => some rest
  | t => some t

/-- What was read so far, and the switch that waits for its value. -/
abbrev Reading := GivenArguments × Option Switch

/-- Read a long switch. -/
def readLong (switches : List Switch) (name : Text) (value : Option Text) (g : GivenArguments) :
    Except ArgumentStop Reading :=
  match switches.find? fun s => s.name == name, value with
  | none, _ => .error (.usage (.unknownSwitch ("--" ++ name)))
  | some switch, none =>
    if switch.kind.takesValue then .ok (g, some switch)
    else (g.add switch none).map fun g => (g, none)
  | some switch, some value =>
    if switch.kind.takesValue then (g.add switch (some value)).map fun g => (g, none)
    else .error (.usage (.unwantedValue name))

/-- Read the letters of an argument. -/
def readLetters (switches : List Switch) (g : GivenArguments) :
    Text → Except ArgumentStop Reading
  | [] => .ok (g, none)
  | letter :: rest =>
    match switches.find? fun s => s.letter == some letter with
    | none => .error (.usage (.unknownSwitch ['-', letter]))
    | some switch =>
      if switch.kind.takesValue then
        match attachedValue? rest with
        | none => .ok (g, some switch)
        | some value => (g.add switch (some value)).map fun g => (g, none)
      else
        match g.add switch none with
        | .ok g => readLetters switches g rest
        | .error stop => .error stop

/-! ## All arguments -/

/-- What is read, and how many plain arguments there may be. -/
structure ArgumentGrammar where
  switches : List Switch
  /-- The names of the plain arguments. -/
  plain : List Text
  /-- Whether the first plain argument ends the reading: it is a command with arguments of its own.
  -/
  hasCommands : Bool

namespace ArgumentGrammar

/-- Add a plain argument. -/
def addPlain (grammar : ArgumentGrammar) (g : GivenArguments) (argument : Text) :
    Except ArgumentStop GivenArguments :=
  if g.plain.length < grammar.plain.length then .ok { g with plain := g.plain ++ [argument] }
  else .error (.usage (.unwantedArgument argument))

/-- Add plain arguments. -/
def addAllPlain (grammar : ArgumentGrammar) (g : GivenArguments) (arguments : List Text) :
    Except ArgumentStop GivenArguments :=
  arguments.foldlM grammar.addPlain g

/-- Read arguments, and give the command that ended the reading together with the arguments after
it. -/
def readFrom (grammar : ArgumentGrammar) :
    GivenArguments → List Text → Except ArgumentStop (GivenArguments × List Text)
  | g, [] => .ok (g, [])
  | g, argument :: rest =>
    let go (reading : Except ArgumentStop Reading) :
        Except ArgumentStop (GivenArguments × List Text) :=
      match reading with
      | .error stop => .error stop
      | .ok (g, none) => readFrom grammar g rest
      | .ok (g, some switch) =>
        match rest with
        | [] => .error (.usage (.missingValue switch.name))
        | value :: rest =>
          if ArgumentForm.ofText value == .plain then
            match g.add switch (some value) with
            | .ok g => readFrom grammar g rest
            | .error stop => .error stop
          else .error (.usage (.missingValue switch.name))
    match ArgumentForm.ofText argument with
    | .separator => (grammar.addAllPlain g rest).map fun g => (g, [])
    | .long name value => go (readLong grammar.switches name value g)
    | .short letters => go (readLetters grammar.switches g letters)
    | .plain =>
      if grammar.hasCommands then .ok (g, argument :: rest)
      else
        match grammar.addPlain g argument with
        | .ok g => readFrom grammar g rest
        | .error stop => .error stop

/-- Read arguments. -/
def read (grammar : ArgumentGrammar) (arguments : List Text) :
    Except ArgumentStop (GivenArguments × List Text) := do
  let (g, rest) ← grammar.readFrom .empty arguments
  match grammar.plain[g.plain.length]? with
  | some missing => .error (.usage (.missingArgument missing))
  | none => return (g, rest)

end ArgumentGrammar

end Offside
