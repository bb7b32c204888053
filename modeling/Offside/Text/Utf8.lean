import Offside.Text.Basic

/-!
# Bytes as text

`ofBytes` reads bytes as UTF-8 and gives a text for any bytes.  Where they are not well-formed, each
longest beginning of a character, and each byte that cannot begin one, becomes the replacement
character, and reading goes on with the first byte that did not fit.
-/

namespace Offside.Text

/-- The character that stands for bytes that are none. -/
def replacement : Char := Char.ofNat 0xfffd

/-- A form of a character in several bytes, as its first byte tells it. -/
structure Utf8Form where
  /-- The bits that the first byte gives. -/
  start : Nat
  /-- The least second byte. -/
  least : Nat
  /-- The greatest second byte. -/
  greatest : Nat
  /-- How many bytes follow the second. -/
  more : Nat
  deriving Repr, DecidableEq

/-- The form that a first byte announces.  The bounds of the second byte keep out characters that
have a shorter form, surrogates, and what is beyond the last code point. -/
def Utf8Form.ofFirst? (b : Nat) : Option Utf8Form :=
  if 0xc2 ≤ b && b ≤ 0xdf then some ⟨b - 0xc0, 0x80, 0xbf, 0⟩
  else if 0xe0 ≤ b && b ≤ 0xef then
    some ⟨b - 0xe0, if b == 0xe0 then 0xa0 else 0x80, if b == 0xed then 0x9f else 0xbf, 1⟩
  else if 0xf0 ≤ b && b ≤ 0xf4 then
    some ⟨b - 0xf0, if b == 0xf0 then 0x90 else 0x80, if b == 0xf4 then 0x8f else 0xbf, 2⟩
  else none

/-- Read the bytes that follow the second one; `value` holds the bits so far. -/
def readTail (value : Nat) : Nat → List UInt8 → Char × List UInt8
  | 0, rest => (Char.ofNat value, rest)
  | _ + 1, [] => (replacement, [])
  | more + 1, b :: rest =>
    if 0x80 ≤ b.toNat && b.toNat ≤ 0xbf then readTail (value * 64 + (b.toNat - 0x80)) more rest
    else (replacement, b :: rest)

/-- Read one character, given its first byte. -/
def readChar (first : UInt8) (rest : List UInt8) : Char × List UInt8 :=
  if first.toNat < 0x80 then (Char.ofNat first.toNat, rest)
  else
    match Utf8Form.ofFirst? first.toNat, rest with
    | some form, second :: after =>
      if form.least ≤ second.toNat && second.toNat ≤ form.greatest then
        readTail (form.start * 64 + (second.toNat - 0x80)) form.more after
      else (replacement, rest)
    | _, _ => (replacement, rest)

theorem length_readTail_le (value more : Nat) (bytes : List UInt8) :
    (readTail value more bytes).2.length ≤ bytes.length := by
  induction more generalizing value bytes with
  | zero => simp [readTail]
  | succ more ih =>
    cases bytes with
    | nil => simp [readTail]
    | cons b rest =>
      rw [readTail]
      split
      · exact Nat.le_succ_of_le (ih _ rest)
      · exact Nat.le_refl _

theorem length_readChar_le (first : UInt8) (rest : List UInt8) :
    (readChar first rest).2.length ≤ rest.length := by
  unfold readChar
  split
  · exact Nat.le_refl _
  · split
    · split
      · exact Nat.le_succ_of_le (length_readTail_le _ _ _)
      · exact Nat.le_refl _
    · exact Nat.le_refl _

/-- The text of some bytes. -/
def ofBytes : List UInt8 → Text
  | [] => []
  | first :: rest => (readChar first rest).1 :: ofBytes (readChar first rest).2
termination_by bytes => bytes.length
decreasing_by exact Nat.lt_succ_of_le (length_readChar_le first rest)

/-- A text without the byte order mark at its beginning. -/
def withoutMark (t : Text) : Text :=
  match t with
  | c :: rest => if c.toNat == 0xfeff then rest else t
  | [] => []

end Offside.Text
