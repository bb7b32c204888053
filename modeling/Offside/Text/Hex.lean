import Offside.Text.Basic

/-!
# Hexadecimal digits

Colors and escaped characters are written in hexadecimal digits, in upper or lower case.
-/

namespace Offside.Text

/-- The value of a hexadecimal digit. -/
def hexDigit? (c : Char) : Option Nat :=
  if '0' ≤ c && c ≤ '9' then some (c.toNat - '0'.toNat)
  else if 'a' ≤ c && c ≤ 'f' then some (c.toNat - 'a'.toNat + 10)
  else if 'A' ≤ c && c ≤ 'F' then some (c.toNat - 'A'.toNat + 10)
  else none

/-- The value of digits to a base of at most sixteen; `none` if there is none, or one is too large.
-/
def valueInBase? (base : Nat) (digits : Text) : Option Nat :=
  if digits.isEmpty then none
  else digits.foldlM (fun n c => ((hexDigit? c).filter (· < base)).map (base * n + ·)) 0

/-- The character whose code point the first `count` digits are, and what follows them. -/
def codePoint? (count : Nat) (t : Text) : Option (Char × Text) :=
  match valueInBase? 16 (t.take count) with
  | some n =>
    if count ≤ t.length && n.isValidChar then some (Char.ofNat n, t.drop count) else none
  | none => none

end Offside.Text
