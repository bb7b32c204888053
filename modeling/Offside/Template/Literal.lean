import Offside.Text.Basic

/-!
# Literal text in an expression

A text that becomes part of an expression has to be quoted.  There are three kinds of quotes and no
escapes, so a piece of text is put between quotes of a kind that it does not hold.  A text that
holds all three kinds is cut into pieces, which are put together again with `~`.
-/

namespace Offside

/-- The characters that a literal can stand between. -/
def quoteMarks : List Char := ['"', '\'', '\x60']

/-- Whether a character, put after a piece, would leave no kind of quotes for the piece. -/
def exhaustsQuotes (piece : Text) (c : Char) : Bool :=
  quoteMarks.contains c && quoteMarks.all fun mark => mark == c || piece.contains mark

/-- Cut a text into pieces that each leave out one kind of quotes, as long as possible from the
left.  The first argument is the piece that is being filled. -/
def literalPieces (piece : Text) : Text → List Text
  | [] => [piece]
  | c :: rest =>
    if exhaustsQuotes piece c then piece :: literalPieces [c] rest
    else literalPieces (piece ++ [c]) rest

/-- Put a piece between quotes that it does not hold. -/
def quotePiece (piece : Text) : Text :=
  let mark := (quoteMarks.find? fun mark => !piece.contains mark).getD '"'
  mark :: piece ++ [mark]

/-- The expression whose value is the given text. -/
def quoteLiteral (t : Text) : Text := Text.join " ~ " ((literalPieces [] t).map quotePiece)

end Offside
