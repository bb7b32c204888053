import Offside.Decimal.Written
import Offside.Text.Case
import Offside.Text.Hex
import Offside.Text.Word

/-!
# Colors

A color is three channels from 0 to 255.  In an expression it may be written by one of sixteen
names, by three or six hexadecimal digits after `#`, or as `rgb(r, g, b)`; before anything is
computed the first two are turned into the third (`expandColors`), so that there is one spelling to
compute with.

A channel that a computation takes out of range is brought back by its magnitude: rounded, and taken
modulo 255 when it is larger than that.
-/

namespace Offside

/-- A color by its red, green and blue channel. -/
structure Rgb where
  red : UInt8
  green : UInt8
  blue : UInt8
  deriving Repr, DecidableEq

namespace Rgb

/-- The spelling that expressions compute with. -/
def text (c : Rgb) : Text :=
  "rgb(" ++ Text.ofNat c.red.toNat ++ ", " ++ Text.ofNat c.green.toNat ++ ", " ++
    Text.ofNat c.blue.toNat ++ ")"

/-- Bring a whole number into the range of a channel. -/
def channelOfNat (n : Nat) : UInt8 := UInt8.ofNat (if 255 < n then n % 255 else n)

/-- Bring any number into the range of a channel: its magnitude, rounded to a whole number.  What is
infinite or not a number gives zero. -/
def channel (x : Float) : UInt8 :=
  match Decimal.decode x with
  | .finite _ mantissa exponent => channelOfNat (Decimal.nearestWhole mantissa exponent)
  | _ => 0

/-- The same level in all three channels. -/
def gray (level : UInt8) : Rgb := ⟨level, level, level⟩

end Rgb

/-! ## Names -/

/-- The sixteen basic color names. -/
def colorNames : List (Text × Rgb) := [
  ("aqua", ⟨0, 255, 255⟩), ("black", ⟨0, 0, 0⟩), ("blue", ⟨0, 0, 255⟩),
  ("fuchsia", ⟨255, 0, 255⟩), ("gray", ⟨128, 128, 128⟩), ("green", ⟨0, 128, 0⟩),
  ("lime", ⟨0, 255, 0⟩), ("maroon", ⟨128, 0, 0⟩), ("navy", ⟨0, 0, 128⟩),
  ("olive", ⟨128, 128, 0⟩), ("purple", ⟨128, 0, 128⟩), ("red", ⟨255, 0, 0⟩),
  ("silver", ⟨192, 192, 192⟩), ("teal", ⟨0, 128, 128⟩), ("white", ⟨255, 255, 255⟩),
  ("yellow", ⟨255, 255, 0⟩)]

/-- The color of a name, in any case of the letters A to Z. -/
def colorOfName? (name : Text) : Option Rgb :=
  (colorNames.find? fun (known, _) => Text.sameIgnoringCase known name).map (·.2)

/-- A color name at the beginning of a text, up to case and ending at the end of a word: the text
that spells it. -/
def colorNameAt? (t : Text) : Option Text :=
  colorNames.findSome? fun (name, _) =>
    match Text.dropFoldPrefix? name t with
    | some rest =>
      let spelled := t.take name.length
      if Text.isWordBoundary spelled.getLast? rest.head? then some spelled else none
    | none => none

/-- Replace color names from left to right.  The first argument counts the characters of a name that
are still to be skipped, the second is the character before the text.  A name that is spelled with a
letter outside A to Z is recognised and left alone. -/
def expandNamesFrom : Nat → Option Char → Text → Text
  | _, _, [] => []
  | skip + 1, _, c :: cs => expandNamesFrom skip (some c) cs
  | 0, previous, c :: cs =>
    let name := if Text.isWordBoundary previous (some c) then colorNameAt? (c :: cs) else none
    match name with
    | some spelled =>
      let replaced := ((colorOfName? spelled).map Rgb.text).getD spelled
      replaced ++ expandNamesFrom (spelled.length - 1) (some c) cs
    | none => c :: expandNamesFrom 0 (some c) cs

/-- Replace every color name that is a whole word. -/
def expandNames (t : Text) : Text := expandNamesFrom 0 none t

/-! ## Hexadecimal channels -/

/-- The value of a channel written in two hexadecimal digits, or in one after a plus sign. -/
def hexChannel? : Text → Option UInt8
  | ['+', low] => (Text.hexDigit? low).map UInt8.ofNat
  | [high, low] =>
    match Text.hexDigit? high, Text.hexDigit? low with
    | some h, some l => some (UInt8.ofNat (16 * h + l))
    | _, _ => none
  | _ => none

/-- A hexadecimal color was cut in the middle of a character. -/
inductive HexError where
  | splitCharacter
  deriving Repr, DecidableEq

/-- Cut a text after `count` bytes, unless that is inside a character. -/
def cutBytes : Nat → Text → Except HexError (Text × Text)
  | 0, t => .ok ([], t)
  | _ + 1, [] => .error .splitCharacter
  | count + 1, c :: cs =>
    if c.utf8Size ≤ count + 1 then do
      let (first, rest) ← cutBytes (count + 1 - c.utf8Size) cs
      return (c :: first, rest)
    else .error .splitCharacter
termination_by _ t => t.length

/-- The six bytes of a hexadecimal color: as written, or each of three doubled. -/
def sixBytes? (hex : Text) : Option Text :=
  if Text.byteLength hex = 3 then some (hex.flatMap fun c => [c, c])
  else if Text.byteLength hex = 6 then some hex
  else none

/-- The color of three or six hexadecimal digits.  Channels are read from left to right, two bytes
each, and the first that has no value ends the reading. -/
def colorOfHex (hex : Text) : Except HexError (Option Rgb) :=
  match sixBytes? hex with
  | none => .ok none
  | some bytes => do
    let (first, rest) ← cutBytes 2 bytes
    let some red := hexChannel? first | return none
    let (second, rest) ← cutBytes 2 rest
    let some green := hexChannel? second | return none
    let (third, _) ← cutBytes 2 rest
    let some blue := hexChannel? third | return none
    return some ⟨red, green, blue⟩

/-- The hexadecimal digits that a color after `#` consists of: six if there are six, or else
three. -/
def hexDigitsAt? (t : Text) : Option Text :=
  let digits := t.takeWhile fun c => (Text.hexDigit? c).isSome
  if 6 ≤ digits.length then some (digits.take 6)
  else if 3 ≤ digits.length then some (digits.take 3)
  else none

/-- Replace hexadecimal colors from left to right, skipping the given number of characters first. -/
def expandHexFrom : Nat → Text → Text
  | _, [] => []
  | skip + 1, _ :: cs => expandHexFrom skip cs
  | 0, c :: cs =>
    match if c = '#' then hexDigitsAt? cs else none with
    | some digits =>
      match colorOfHex digits with
      | .ok (some color) => color.text ++ expandHexFrom digits.length cs
      | _ => c :: expandHexFrom 0 cs
    | none => c :: expandHexFrom 0 cs

/-- Replace color names and hexadecimal colors by their `rgb(r, g, b)` spelling. -/
def expandColors (t : Text) : Text := expandHexFrom 0 (expandNames t)

end Offside
