import Offside.Text.Blank
import Offside.Text.Quoted

/-!
# Marked up text

The text of a paragraph or a heading: emphasis between stars or underscores, code between
backquotes, links with their address in parentheses, and everything else as it stands.

The text is first cut into pieces.  Runs of stars and underscores stay undecided; which of them
belong together is settled afterwards, from left to right, each closing run with the nearest run
before it that can open (`resolveEmphasis`).  The runs that belong to nothing are text.
-/

namespace Offside.Markdown

/-- A part of marked up text. -/
inductive Inline where
  | text (value : Text)
  | code (value : Text)
  | lineBreak
  | emphasis (inner : List Inline)
  | strong (inner : List Inline)
  | link (address : Text) (inner : List Inline)

/-! ## Writing -/

/-- A character as it is written in markup. -/
def escapeChar (c : Char) : Text :=
  if c == '&' then "&amp;"
  else if c == '<' then "&lt;"
  else if c == '>' then "&gt;"
  else if c == '"' then "&quot;"
  else [c]

/-- A text as it is written in markup. -/
def escape (t : Text) : Text := t.flatMap escapeChar

/-- Whether a character stands for itself in an address. -/
def isAddressChar (c : Char) : Bool :=
  c.isAlphanum || "-_.+!*(),%#@?=;:/$~".toList.contains c

/-- The two digits of a byte after a percent sign. -/
def percentByte (b : UInt8) : Text :=
  let digits := Text.upperAscii (Text.hexOfNat b.toNat)
  if digits.length < 2 then "%0" ++ digits else "%" ++ digits

/-- An address as it is written in an attribute. -/
def escapeAddress (t : Text) : Text :=
  t.flatMap fun c =>
    if isAddressChar c then [c]
    else if c == '&' then "&amp;".toList
    else if c == '\'' then "&#x27;".toList
    else (String.utf8EncodeChar c).flatMap percentByte

mutual

/-- Write a part. -/
def Inline.render : Inline → Text
  | .text value => escape value
  | .code value => "<code>" ++ escape value ++ "</code>"
  | .lineBreak => "<br />\n"
  | .emphasis inner => "<em>" ++ renderAll inner ++ "</em>"
  | .strong inner => "<strong>" ++ renderAll inner ++ "</strong>"
  | .link address inner =>
    "<a href=\"" ++ escapeAddress address ++ "\">" ++ renderAll inner ++ "</a>"

/-- Write parts one after the other. -/
def renderAll : List Inline → Text
  | [] => []
  | part :: rest => part.render ++ renderAll rest

end

/-! ## Pieces -/

/-- A run of stars or underscores that is not decided yet. -/
structure Run where
  mark : Char
  count : Nat
  canOpen : Bool
  canClose : Bool

/-- A piece of a text: a finished part, or a run. -/
inductive Piece where
  | part (value : Inline)
  | run (value : Run)

/-- The part that a run is when it belongs to nothing. -/
def Piece.settle : Piece → Inline
  | .part value => value
  | .run value => .text (List.replicate value.count value.mark)

/-- Whether a character is punctuation. -/
def isPunctuation (c : Char) : Bool :=
  "!\"#$%&'()*+,-./:;<=>?@[\\]^_\x60\x7b|\x7d~".toList.contains c

/-- Whether there is white space, or nothing, at a place. -/
def isOpenSpace (c : Option Char) : Bool := c.all Text.isBlank

/-- A run between two characters: whether it can open or close emphasis is told by its
neighbours. -/
def runBetween (before : Option Char) (mark : Char) (count : Nat) (after : Option Char) : Run :=
  let left := !isOpenSpace after &&
    (!after.any isPunctuation || isOpenSpace before || before.any isPunctuation)
  let right := !isOpenSpace before &&
    (!before.any isPunctuation || isOpenSpace after || after.any isPunctuation)
  if mark == '_' then
    ⟨mark, count, left && (!right || before.any isPunctuation),
      right && (!left || after.any isPunctuation)⟩
  else ⟨mark, count, left, right⟩

/-- Where a run of exactly `count` backquotes is: what stands before it and after it.  `steps`
bounds the search. -/
def closeCode? (count : Nat) : Nat → Text → Option (Text × Text)
  | 0, _ => none
  | _, [] => none
  | steps + 1, c :: rest =>
    if c == '\x60' then
      let marks := (c :: rest).takeWhile (· == '\x60')
      let after := (c :: rest).dropWhile (· == '\x60')
      if marks.length = count then some ([], after)
      else (closeCode? count steps after).map fun (inner, after) => (marks ++ inner, after)
    else (closeCode? count steps rest).map fun (inner, after) => (c :: inner, after)

/-- The text of a code span: line ends are spaces, and one space on both sides is dropped. -/
def codeText (t : Text) : Text :=
  let t := t.map fun c => if c == '\n' then ' ' else c
  match t with
  | ' ' :: inner =>
    if inner.getLast? == some ' ' && inner.any (· != ' ') then inner.dropLast else t
  | _ => t

/-- Where the bracket that is open is closed: what stands before and after that.  The first argument
is the number of further open brackets. -/
def closeBracket? : Nat → Text → Option (Text × Text)
  | _, [] => none
  | nested, ']' :: rest =>
    match nested with
    | 0 => some ([], rest)
    | nested + 1 => (closeBracket? nested rest).map fun (inner, after) => (']' :: inner, after)
  | nested, c :: rest =>
    (closeBracket? (if c == '[' then nested + 1 else nested) rest).map fun (inner, after) =>
      (c :: inner, after)

/-- A link after its opening bracket: its text, its address, and what follows. -/
def link? (t : Text) : Option (Text × Text × Text) :=
  match closeBracket? 0 t with
  | some (inner, '(' :: rest) =>
    match Text.splitOnce? ')' rest with
    | some (address, after) =>
      let address := Text.trim address
      if address.any Text.isBlank then none else some (inner, address, after)
    | none => none
  | _ => none

/-! ## Emphasis -/

/-- Whether two runs belong together. -/
def Run.matches (opener closer : Run) : Bool :=
  opener.mark == closer.mark && opener.canOpen &&
    !((opener.canClose || closer.canOpen) && (opener.count + closer.count) % 3 == 0 &&
      !(opener.count % 3 == 0 && closer.count % 3 == 0))

/-- The nearest run that a closing run belongs to, in the pieces before it with the nearest first:
the pieces between the two, the run, and the pieces before it. -/
def findOpener? (closer : Run) : List Piece → Option (List Piece × Run × List Piece)
  | [] => none
  | .run opener :: before =>
    if opener.matches closer then some ([], opener, before)
    else (findOpener? closer before).map fun (inner, found, rest) =>
      (.run opener :: inner, found, rest)
  | .part value :: before =>
    (findOpener? closer before).map fun (inner, found, rest) => (.part value :: inner, found, rest)

/-- A run with fewer characters; nothing if none are left. -/
def Run.shortened (r : Run) (taken : Nat) : List Piece :=
  if r.count ≤ taken then [] else [.run { r with count := r.count - taken }]

/-- Settle which runs belong together.  The pieces before are given with the nearest first; `steps`
bounds the number of steps. -/
def resolveEmphasis : Nat → List Piece → List Piece → List Inline
  | 0, before, rest => before.reverse.map Piece.settle ++ rest.map Piece.settle
  | _, before, [] => before.reverse.map Piece.settle
  | steps + 1, before, .part value :: rest => resolveEmphasis steps (.part value :: before) rest
  | steps + 1, before, .run closer :: rest =>
    match if closer.canClose then findOpener? closer before else none with
    | none => resolveEmphasis steps (.run closer :: before) rest
    | some (between, opener, before) =>
      let inner := between.reverse.map Piece.settle
      let isStrong := 2 ≤ opener.count && 2 ≤ closer.count
      let taken := if isStrong then 2 else 1
      let made : Inline := if isStrong then .strong inner else .emphasis inner
      resolveEmphasis steps (.part made :: opener.shortened taken ++ before)
        (closer.shortened taken ++ rest)

/-- How many steps settling pieces can take. -/
def emphasisSteps (pieces : List Piece) : Nat :=
  pieces.foldr (fun piece steps =>
    match piece with
    | .part _ => steps + 1
    | .run r => steps + 1 + r.count) 1

/-! ## Reading -/

/-- Cut a text into pieces.  `before` is the character before it; `steps` bounds the number of
steps. -/
def pieces : Nat → Option Char → Text → List Piece
  | 0, _, _ => []
  | _, _, [] => []
  | steps + 1, before, c :: rest =>
    let plain (_ : Unit) : List Piece := .part (.text [c]) :: pieces steps (some c) rest
    if c == '*' || c == '_' then
      let count := ((c :: rest).takeWhile (· == c)).length
      let after := rest.dropWhile (· == c)
      .run (runBetween before c count after.head?) :: pieces steps (some c) after
    else if c == '\x60' then
      let marks := (c :: rest).takeWhile (· == c)
      let after := rest.dropWhile (· == c)
      match closeCode? marks.length (after.length + 1) after with
      | some (inner, after) => .part (.code (codeText inner)) :: pieces steps (some c) after
      | none => .part (.text marks) :: pieces steps (some c) after
    else if c == '[' then
      match link? rest with
      | some (inner, address, after) =>
        let parts := pieces steps none inner
        .part (.link address (resolveEmphasis (emphasisSteps parts) [] parts)) ::
          pieces steps (some ')') after
      | none => plain ()
    else if c == '\\' then
      match rest with
      | '\n' :: after => .part .lineBreak :: pieces steps (some '\n') after
      | mark :: after =>
        if isPunctuation mark then .part (.text [mark]) :: pieces steps (some mark) after
        else plain ()
      | [] => plain ()
    else if c == ' ' then
      let spaces := (c :: rest).takeWhile (· == ' ')
      match rest.dropWhile (· == ' ') with
      | '\n' :: after =>
        let ending : Inline := if 2 ≤ spaces.length then .lineBreak else .text "\n"
        .part ending :: pieces steps (some '\n') after
      | _ => plain ()
    else plain ()

/-- The parts of a text. -/
def inlines (t : Text) : List Inline :=
  let parts := pieces (t.length + 1) none t
  resolveEmphasis (emphasisSteps parts) [] parts

/-- A text, written as markup. -/
def renderInline (t : Text) : Text := renderAll (inlines t)

end Offside.Markdown
