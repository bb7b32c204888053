/-!
# Text

Everything this library reads and writes is text, and all of it is cut up character by character:
indentation is counted, operators are found, lines are split and glued.  A text is therefore the
list of its characters, so that each of those operations is a recursion on a list and its laws are
laws of lists.  A string literal stands for the text it spells (`instCoeStringText`).

The operations here are the ones every other module shares: splitting at a character, dropping a
known beginning or end, replacing one piece by another, and counting the bytes of the UTF-8 form,
which is the length that widths and name lengths are measured in.
-/

namespace Offside

/-- A text is the list of its characters. -/
abbrev Text := List Char

/-- A string literal stands for the text it spells. -/
instance instCoeStringText : Coe String Text := ⟨String.toList⟩

namespace Text

/-! ## Splitting and joining -/

/-- Cut a text at every occurrence of `sep`; the pieces are what stands between.  There is always
one piece more than there are separators. -/
def splitOn (sep : Char) : Text → List Text
  | [] => [[]]
  | c :: cs =>
    if c = sep then [] :: splitOn sep cs
    else
      match splitOn sep cs with
      | [] => [[c]]
      | piece :: pieces => (c :: piece) :: pieces

/-- Write the pieces one after the other with `sep` between them. -/
def join (sep : Text) : List Text → Text
  | [] => []
  | [piece] => piece
  | piece :: pieces => piece ++ sep ++ join sep pieces

/-- Write the pieces one after the other with nothing between them. -/
def concat (pieces : List Text) : Text := pieces.flatten

/-- Cut a text at the first occurrence of `sep`, if there is one. -/
def splitOnce? (sep : Char) : Text → Option (Text × Text)
  | [] => none
  | c :: cs =>
    if c = sep then some ([], cs)
    else (splitOnce? sep cs).map fun (before, after) => (c :: before, after)

/-! ## Known beginnings and ends -/

/-- What follows `start` in a text that begins with it. -/
def dropPrefix? : Text → Text → Option Text
  | [], t => some t
  | _ :: _, [] => none
  | p :: ps, c :: cs => if p = c then dropPrefix? ps cs else none

/-- What precedes `finish` in a text that ends with it. -/
def dropSuffix? (finish t : Text) : Option Text :=
  (dropPrefix? finish.reverse t.reverse).map List.reverse

/-- Whether the text begins with `start`. -/
def startsWith (start t : Text) : Bool := (dropPrefix? start t).isSome

/-- Drop the longest end made of characters that satisfy `p`. -/
def dropEndWhile (p : Char → Bool) (t : Text) : Text := (t.reverse.dropWhile p).reverse

/-! ## Replacing -/

/-- Replace every occurrence of `old`, from left to right and never overlapping.  The first
argument counts the characters of an occurrence that are still to be skipped. -/
def replaceFrom (old new : Text) : Nat → Text → Text
  | _, [] => []
  | skip + 1, _ :: cs => replaceFrom old new skip cs
  | 0, c :: cs =>
    if startsWith old (c :: cs) then new ++ replaceFrom old new (old.length - 1) cs
    else c :: replaceFrom old new 0 cs

/-- Replace every occurrence of `old` by `new`.  An empty `old` occurs before every character and at
the end. -/
def replaceAll (old new t : Text) : Text :=
  if old.isEmpty then new ++ t.flatMap (fun c => c :: new) else replaceFrom old new 0 t

/-- Remove the first occurrence of `piece`, if there is one. -/
def eraseFirst (piece : Text) : Text → Text
  | [] => []
  | c :: cs =>
    match dropPrefix? piece (c :: cs) with
    | some rest => rest
    | none => c :: eraseFirst piece cs

/-! ## Measures and numbers -/

/-- Length of the UTF-8 form in bytes. -/
def byteLength : Text → Nat
  | [] => 0
  | c :: cs => c.utf8Size + byteLength cs

/-- The first number that does not fit into 64 bits. -/
def wordLimit : Nat := 0x10000000000000000

/-- `count` copies of a text, one after the other. -/
def times (count : Nat) (t : Text) : Text := (List.replicate count t).flatten

/-- Decimal digits of a natural number. -/
def ofNat (n : Nat) : Text := Nat.toDigits 10 n

/-- Decimal digits of an integer, with a minus sign if it is negative. -/
def ofInt : Int → Text
  | .ofNat n => ofNat n
  | .negSucc n => '-' :: ofNat (n + 1)

/-- Hexadecimal digits of a natural number, in lower case. -/
def hexOfNat (n : Nat) : Text := Nat.toDigits 16 n

/-- The text as a string. -/
def toString (t : Text) : String := String.ofList t

/-! ## Letters of the basic alphabet -/

/-- Lower case for the letters A to Z; all other characters stay. -/
def lowerAscii (t : Text) : Text := t.map Char.toLower

/-- Upper case for the letters a to z; all other characters stay. -/
def upperAscii (t : Text) : Text := t.map Char.toUpper

/-- Equality up to the case of the letters A to Z. -/
def sameIgnoringCase (a b : Text) : Bool := lowerAscii a == lowerAscii b

/-! ## Order -/

/-- The order of code points, which is also the order of the UTF-8 forms. -/
def before : Text → Text → Bool
  | [], [] => false
  | [], _ :: _ => true
  | _ :: _, [] => false
  | a :: as, b :: bs => a < b || (a == b && before as bs)

/-- Sort texts by code points. -/
def sort (texts : List Text) : List Text := texts.mergeSort fun a b => !before b a

end Text

end Offside
