import Mathlib
import Offside.Host.ExpressionReader
import Offside.Proofs.Text
import Offside.Template.Literal

/-!
# Literals are read back

A text is written into an expression between quotes, and nothing in it can end the literal or be
taken for a part of the expression.

**Writing.**  There are three kinds of quotes, and a piece is cut before a quote of the last kind
that it does not hold (`LeavesQuote`).  So there are quotes left for every piece
(`literalPieces_leavesQuote`), and what is written is a list of pieces, each between two quotes that
it does not hold (`QuotedText`).

**Reading.**  Two rules are enough to get the text back: a quoted text ends at the next quote of its
kind, and a tilde joins what stands on both sides of it.  Every reader with these rules reads a
literal as its text (`LiteralReader.read_quoteLiteral`).

**The reader of expressions** has both rules (`Expression.literalReader`).  It stops behind the last
piece, unless an operator follows (`EndsExpression`), and the value is made without looking at a
variable or calling a function (`value_ofPieces`).
-/

namespace Offside

/-- A text between two quotes of a kind that it does not hold. -/
structure QuotedText where
  mark : Char
  inside : Text
  isQuote : mark ∈ quoteMarks
  notInside : mark ∉ inside

namespace QuotedText

/-- The text with its quotes. -/
def written (q : QuotedText) : Text := q.mark :: q.inside ++ [q.mark]

end QuotedText

/-! ## Writing -/

/-- There are quotes that a piece does not hold. -/
def LeavesQuote (piece : Text) : Prop := ∃ mark ∈ quoteMarks, mark ∉ piece

lemma leavesQuote_singleton (c : Char) : LeavesQuote [c] := by
  by_cases hc : c = '"'
  · exact ⟨'\'', by simp [quoteMarks], by simp [hc]⟩
  · exact ⟨'"', by simp [quoteMarks], by simpa using Ne.symm hc⟩

lemma LeavesQuote.concat {piece : Text} {c : Char} (h : LeavesQuote piece)
    (hc : exhaustsQuotes piece c = false) : LeavesQuote (piece ++ [c]) := by
  by_cases hquote : c ∈ quoteMarks
  · simp only [exhaustsQuotes, Bool.and_eq_false_iff, List.contains_eq_mem, hquote, decide_true,
      Bool.true_eq_false, false_or, List.all_eq_false] at hc
    obtain ⟨mark, hmark, hleft⟩ := hc
    simp only [Bool.or_eq_true, beq_iff_eq, decide_eq_true_eq, not_or] at hleft
    exact ⟨mark, hmark, by simpa using ⟨hleft.2, hleft.1⟩⟩
  · obtain ⟨mark, hmark, hpiece⟩ := h
    have hne : mark ≠ c := by
      rintro rfl
      exact hquote hmark
    exact ⟨mark, hmark, by simpa using ⟨hpiece, hne⟩⟩

lemma literalPieces_leavesQuote {piece : Text} (h : LeavesQuote piece) (t : Text) :
    ∀ p ∈ literalPieces piece t, LeavesQuote p := by
  induction t generalizing piece with
  | nil =>
      intro p hp
      rwa [List.mem_singleton.1 hp]
  | cons c t ih =>
      intro p hp
      rw [literalPieces] at hp
      split_ifs at hp with hc
      · rcases List.mem_cons.1 hp with rfl | hp
        · exact h
        · exact ih (leavesQuote_singleton c) p hp
      · exact ih (h.concat (by simpa using hc)) p hp

lemma flatten_literalPieces (piece t : Text) : (literalPieces piece t).flatten = piece ++ t := by
  induction t generalizing piece with
  | nil => simp [literalPieces]
  | cons c t ih =>
      rw [literalPieces]
      split_ifs
      · simp [ih]
      · simp [ih]

lemma literalPieces_ne_nil (piece t : Text) : literalPieces piece t ≠ [] := by
  induction t generalizing piece with
  | nil => simp [literalPieces]
  | cons c t ih =>
      rw [literalPieces]
      split_ifs
      · simp
      · exact ih (piece ++ [c])

/-- The quotes of a piece are chosen after it is cut, from those that it leaves. -/
lemma LeavesQuote.exists_quoted {piece : Text} (h : LeavesQuote piece) :
    ∃ q : QuotedText, q.inside = piece ∧ q.written = quotePiece piece := by
  obtain ⟨mark, hmark, hpiece⟩ := h
  cases hfound : quoteMarks.find? fun mark => !piece.contains mark with
  | none =>
      have hnone := List.find?_eq_none.1 hfound mark hmark
      simp [hpiece] at hnone
  | some found =>
      have hnot : found ∉ piece := by simpa using List.find?_some hfound
      refine ⟨⟨found, piece, List.mem_of_find?_eq_some hfound, hnot⟩, rfl, ?_⟩
      rw [quotePiece, hfound]
      rfl

lemma exists_quoted_pieces {pieces : List Text} (h : ∀ p ∈ pieces, LeavesQuote p) :
    ∃ quoted : List QuotedText, quoted.map QuotedText.inside = pieces ∧
      quoted.map QuotedText.written = pieces.map quotePiece := by
  induction pieces with
  | nil => exact ⟨[], rfl, rfl⟩
  | cons piece pieces ih =>
      obtain ⟨q, hinside, hwritten⟩ := (h piece List.mem_cons_self).exists_quoted
      obtain ⟨quoted, hrest, hrest'⟩ := ih fun p hp => h p (List.mem_cons_of_mem piece hp)
      exact ⟨q :: quoted, by simp [hinside, hrest], by simp [hwritten, hrest']⟩

/-- A literal is a list of quoted texts that make up the text. -/
lemma exists_quoted_quoteLiteral (t : Text) :
    ∃ quoted : List QuotedText, quoted ≠ [] ∧ (quoted.map QuotedText.inside).flatten = t ∧
      quoteLiteral t = Text.join " ~ " (quoted.map QuotedText.written) := by
  have hleaves : ∀ p ∈ literalPieces [] t, LeavesQuote p :=
    literalPieces_leavesQuote ⟨'"', by simp [quoteMarks], by simp⟩ t
  obtain ⟨quoted, hinside, hwritten⟩ := exists_quoted_pieces hleaves
  refine ⟨quoted, ?_, ?_, ?_⟩
  · rintro rfl
    exact literalPieces_ne_nil [] t hinside.symm
  · rw [hinside, flatten_literalPieces, List.nil_append]
  · rw [quoteLiteral, hwritten]

/-! ## Reading -/

/-- A reader of expressions with two rules.  What it finds has the value `value`, and it stops in
front of what `ends` allows behind an expression. -/
structure LiteralReader {ε : Type} (read : Text → Option (ε × Text)) (value : ε → Text → Prop)
    (ends : Text → Prop) : Prop where
  /-- A quoted text runs to the next quote of its kind. -/
  quoted : ∀ (q : QuotedText) {rest : Text}, ends rest →
    ∃ e, read (q.written ++ rest) = some (e, rest) ∧ value e q.inside
  /-- A tilde joins a quoted text to the value of the quoted texts behind it. -/
  joined : ∀ (q : QuotedText) {others : List QuotedText} {rest t : Text} {e : ε}, others ≠ [] →
    ends rest → read (Text.join " ~ " (others.map QuotedText.written) ++ rest) = some (e, rest) →
    value e t → ∃ whole, read (q.written ++ " ~ " ++
        Text.join " ~ " (others.map QuotedText.written) ++ rest) = some (whole, rest) ∧
      value whole (q.inside ++ t)

namespace LiteralReader

variable {ε : Type} {read : Text → Option (ε × Text)} {value : ε → Text → Prop}
  {ends : Text → Prop}

lemma read_join (h : LiteralReader read value ends) {quoted : List QuotedText} (hne : quoted ≠ [])
    {rest : Text} (hrest : ends rest) :
    ∃ e, read (Text.join " ~ " (quoted.map QuotedText.written) ++ rest) = some (e, rest) ∧
      value e (quoted.map QuotedText.inside).flatten := by
  induction quoted with
  | nil => exact absurd rfl hne
  | cons q quoted ih =>
      cases quoted with
      | nil => simpa [Text.join] using h.quoted q hrest
      | cons next others =>
          obtain ⟨e, hread, hvalue⟩ := ih (List.cons_ne_nil _ _)
          exact h.joined q (List.cons_ne_nil next others) hrest hread hvalue

lemma read_quoteLiteral (h : LiteralReader read value ends) (t : Text) {rest : Text}
    (hrest : ends rest) :
    ∃ e, read (quoteLiteral t ++ rest) = some (e, rest) ∧ value e t := by
  obtain ⟨quoted, hne, htext, hwritten⟩ := exists_quoted_quoteLiteral t
  obtain ⟨e, hread, hvalue⟩ := h.read_join hne hrest
  exact ⟨e, by rwa [hwritten], by rwa [htext] at hvalue⟩

end LiteralReader

/-! ## The reader of expressions -/

namespace Expression

lemma repeatedly_of_none {α : Type} (read : Text → Option (α × Text)) {t : Text}
    (h : read t = none) (steps : Nat) : repeatedly read steps t = ([], t) := by
  cases steps with
  | zero => rfl
  | succ steps => simp [repeatedly, h]

/-- Reading again and again takes in the parts that were written, if nothing more can be read. -/
lemma repeatedly_flatMap {α β : Type} {read : Text → Option (α × Text)} {written : β → Text}
    {meaning : β → α} {parts : List β} {rest : Text}
    (hread : ∀ part ∈ parts, ∀ more, read (written part ++ more) = some (meaning part, more))
    (hend : read rest = none) {steps : Nat} (hsteps : parts.length ≤ steps) :
    repeatedly read steps (parts.flatMap written ++ rest) = (parts.map meaning, rest) := by
  induction parts generalizing steps with
  | nil => exact repeatedly_of_none read hend steps
  | cons part parts ih =>
      cases steps with
      | zero => simp at hsteps
      | succ steps =>
          have hfirst := hread part List.mem_cons_self
          have hothers := ih (fun p hp => hread p (List.mem_cons_of_mem part hp))
            (Nat.le_of_succ_le_succ hsteps)
          rw [List.flatMap_cons, List.append_assoc, repeatedly, hfirst]
          simp only [hothers, List.map_cons]

section Quoted

variable (q : QuotedText) (rest : Text) (whole : ExpressionReader)

lemma written_cases :
    ∃ t, q.written ++ rest = '"' :: t ∨ q.written ++ rest = '\'' :: t ∨
      q.written ++ rest = '\x60' :: t := by
  have hquote := q.isQuote
  simp only [quoteMarks, List.mem_cons, List.not_mem_nil, or_false] at hquote
  refine ⟨q.inside ++ [q.mark] ++ rest, ?_⟩
  simpa [QuotedText.written] using hquote

lemma skipSpace_written : skipSpace (q.written ++ rest) = q.written ++ rest := by
  obtain ⟨t, h | h | h⟩ := written_cases q rest
  all_goals
    rw [h]
    rfl

/-- A quoted text runs to its own second quote. -/
lemma quoted?_written : quoted? (q.written ++ rest) = some (q.inside, rest) := by
  have hquote := q.isQuote
  simp only [quoteMarks, List.mem_cons, List.not_mem_nil, or_false] at hquote
  have hsplit := splitOnce?_append q.notInside rest
  rw [quoted?, skipSpace_written]
  simp only [QuotedText.written, List.cons_append, List.append_assoc, List.nil_append, hsplit]
  rw [if_pos]
  simpa [or_assoc] using hquote

lemma name?_written : name? (q.written ++ rest) = none := by
  obtain ⟨t, h | h | h⟩ := written_cases q rest
  all_goals
    rw [h]
    rfl

lemma number?_written : number? (q.written ++ rest) = none := by
  obtain ⟨t, h | h | h⟩ := written_cases q rest
  all_goals
    rw [h]
    rfl

lemma operatorWord?_not_written : operatorWord? "not" (q.written ++ rest) = none := by
  obtain ⟨t, h | h | h⟩ := written_cases q rest
  all_goals
    rw [h]
    rfl

lemma literalText?_written :
    literalText? (q.written ++ rest) = some (literal (.string q.inside), rest) := by
  rw [literalText?, quoted?_written]
  rfl

lemma piece?_written :
    piece? whole (q.written ++ rest) = some (literal (.string q.inside), rest) := by
  have hcall : call? whole (q.written ++ rest) = none := by
    rw [call?, name?_written]
    rfl
  have hnumber : literalNumber? (q.written ++ rest) = none := by
    rw [literalNumber?, number?_written]
    rfl
  rw [piece?, hcall, hnumber, literalText?_written]
  rfl

lemma nextPiece?_written :
    nextPiece? whole (" ~ " ++ q.written ++ rest) = some (literal (.string q.inside), rest) := by
  have hpiece : piece? whole (' ' :: (q.written ++ rest)) = piece? whole (q.written ++ rest) := rfl
  have hmark : symbol? "~" (" ~ " ++ q.written ++ rest) = some (' ' :: (q.written ++ rest)) := rfl
  rw [nextPiece?, hmark, Option.bind_some, hpiece, piece?_written]

end Quoted

/-! ## The end of an expression -/

/-- The operators that can follow a text. -/
def textOperators : List String := ["~", "==", "!=", ">=", "<=", ">", "<", "and", "or"]

/-- No operator is at the beginning of what follows an expression. -/
def EndsExpression (rest : Text) : Prop :=
  ∀ operator ∈ textOperators, symbol? operator.toList rest = none

instance (rest : Text) : Decidable (EndsExpression rest) := by
  unfold EndsExpression
  infer_instance

section Ends

variable {rest : Text} (whole : ExpressionReader)

lemma nextPiece?_of_ends (h : EndsExpression rest) : nextPiece? whole rest = none := by
  rw [nextPiece?, h "~" (by simp [textOperators])]
  rfl

lemma operatorWord?_of_ends (h : EndsExpression rest) (word : String)
    (hword : word ∈ textOperators) : operatorWord? word.toList rest = none := by
  rw [operatorWord?, h word hword]

lemma comparison?_of_side {t : Text} {e : Expression} (hside : side? whole t = some (e, rest))
    (h : EndsExpression rest) : comparison? whole t = some (e, rest) := by
  have hnone : ∀ written ∈ comparisons.map Prod.fst, symbol? written.toList rest = none := by
    intro written hwritten
    refine h written ?_
    simp only [comparisons, textOperators, List.map_cons, List.map_nil] at hwritten ⊢
    exact List.mem_cons_of_mem _ (List.mem_append_left ["and", "or"] hwritten)
  rw [comparison?, hside, Option.bind_eq_bind, Option.bind_some]
  dsimp only
  rw [List.findSome?_eq_none_iff.2]
  · rfl
  · intro operator hmem
    simp only [hnone operator.1 (List.mem_map_of_mem hmem)]
    rfl

/-- One side of a comparison is a whole expression, if no operator stands in front of it or
behind it. -/
lemma anyOf?_of_side {t : Text} {e : Expression} (hside : side? whole t = some (e, rest))
    (hnot : operatorWord? "not" t = none) (h : EndsExpression rest) :
    anyOf? whole t = some (e, rest) := by
  have htest : test? whole t = some (e, rest) := by
    rw [test?, hnot, comparison?_of_side whole hside h]
  have hand : (operatorWord? "and" rest).bind (test? whole) = none := by
    rw [operatorWord?_of_ends h "and" (by simp [textOperators]), Option.bind_none]
  have hall : allOf? whole t = some (e, rest) := by
    rw [allOf?, htest, Option.bind_eq_bind, Option.bind_some]
    exact congrArg (fun read : List Expression × Text => some (read.1.foldl both e, read.2))
      (repeatedly_of_none (fun t => (operatorWord? "and" t).bind (test? whole)) hand _)
  have hor : (operatorWord? "or" rest).bind (allOf? whole) = none := by
    rw [operatorWord?_of_ends h "or" (by simp [textOperators]), Option.bind_none]
  rw [anyOf?, hall, Option.bind_eq_bind, Option.bind_some]
  exact congrArg (fun read : List Expression × Text => some (read.1.foldl either e, read.2))
    (repeatedly_of_none (fun t => (operatorWord? "or" t).bind (allOf? whole)) hor _)

end Ends

/-! ## Literals -/

/-- The expression that the pieces of a literal are read as. -/
def ofPieces : List Text → Expression
  | [piece] => literal (.string piece)
  | pieces => concat (pieces.map fun piece => literal (.string piece))

lemma printedValues_literals (scope : HostScope) (pieces : List Text) :
    printedValues scope (pieces.map fun piece => literal (.string piece)) = .done pieces := by
  induction pieces with
  | nil => rfl
  | cons piece pieces ih =>
      rw [List.map_cons, printedValues, ih]
      rfl

lemma value_ofPieces (scope : HostScope) (pieces : List Text) :
    (ofPieces pieces).value scope = .done (.string pieces.flatten) := by
  have hconcat : ∀ pieces : List Text,
      (concat (pieces.map fun piece => literal (.string piece))).value scope
        = .done (.string pieces.flatten) := by
    intro pieces
    rw [value, printedValues_literals]
    rfl
  match pieces with
  | [] => exact hconcat []
  | [piece] =>
      rw [ofPieces, value, List.flatten_singleton]
      rfl
  | first :: second :: pieces => exact hconcat _

/-- A further piece with the mark that joins it to those before. -/
def joined (q : QuotedText) : Text := " ~ " ++ q.written

lemma join_written (q : QuotedText) (quoted : List QuotedText) :
    Text.join " ~ " ((q :: quoted).map QuotedText.written)
      = q.written ++ quoted.flatMap joined := by
  induction quoted generalizing q with
  | nil => simp [Text.join]
  | cons next quoted ih =>
      rw [List.map_cons, List.map_cons, join_cons_cons, ← List.map_cons, ih next,
        List.flatMap_cons, joined]
      simp only [List.append_assoc]

lemma length_le_flatMap_joined (quoted : List QuotedText) (rest : Text) :
    quoted.length ≤ (quoted.flatMap joined ++ rest).length := by
  induction quoted with
  | nil => exact Nat.zero_le _
  | cons q quoted ih =>
      simp only [List.flatMap_cons, List.length_cons, List.append_assoc, List.length_append, joined,
        QuotedText.written] at ih ⊢
      omega

lemma concat?_join (whole : ExpressionReader) (q : QuotedText) (quoted : List QuotedText)
    {rest : Text} (h : EndsExpression rest) :
    concat? whole (q.written ++ (quoted.flatMap joined ++ rest))
      = if quoted = [] then none
        else some (ofPieces ((q :: quoted).map QuotedText.inside), rest) := by
  have hothers : repeatedly (nextPiece? whole) (quoted.flatMap joined ++ rest).length
      (quoted.flatMap joined ++ rest)
        = (quoted.map fun next => literal (.string next.inside), rest) :=
    repeatedly_flatMap (fun next _ more => nextPiece?_written next more whole)
      (nextPiece?_of_ends whole h) (length_le_flatMap_joined quoted rest)
  rw [concat?, piece?_written, Option.bind_eq_bind, Option.bind_some]
  simp only [hothers]
  cases quoted with
  | nil => rfl
  | cons next quoted => simp [ofPieces]

/-- The pieces of a literal are read as one side of a comparison. -/
lemma side?_join (whole : ExpressionReader) (q : QuotedText) (quoted : List QuotedText)
    {rest : Text} (h : EndsExpression rest) :
    side? whole (q.written ++ (quoted.flatMap joined ++ rest))
      = some (ofPieces ((q :: quoted).map QuotedText.inside), rest) := by
  rw [side?, concat?_join whole q quoted h]
  split_ifs with hone
  · rw [hone, List.flatMap_nil, List.nil_append, literalText?_written]
    rfl
  · rfl

/-- A list of quoted texts is read as the expression of what is inside of them. -/
lemma read?_join {quoted : List QuotedText} (hne : quoted ≠ []) {rest : Text}
    (h : EndsExpression rest) :
    read? (Text.join " ~ " (quoted.map QuotedText.written) ++ rest)
      = some (ofPieces (quoted.map QuotedText.inside), rest) := by
  obtain ⟨q, quoted, rfl⟩ := List.exists_cons_of_ne_nil hne
  rw [join_written, List.append_assoc]
  exact anyOf?_of_side _ (side?_join _ q quoted h) (operatorWord?_not_written q _) h

/-- An expression whose value is a text, whatever the variables and functions are. -/
def IsText (e : Expression) (t : Text) : Prop :=
  ∀ scope : HostScope, e.value scope = .done (.string t)

/-- Only one text is the value of an expression. -/
lemma IsText.unique {e : Expression} {s t : Text} (hs : e.IsText s) (ht : e.IsText t) : s = t := by
  have heq := (hs ⟨[], []⟩).symm.trans (ht ⟨[], []⟩)
  simpa using heq

lemma isText_ofPieces (pieces : List Text) : (ofPieces pieces).IsText pieces.flatten :=
  fun scope => value_ofPieces scope pieces

lemma literalReader : LiteralReader read? IsText EndsExpression where
  quoted q rest hrest := by
    refine ⟨ofPieces [q.inside], ?_, by simpa using isText_ofPieces [q.inside]⟩
    simpa [Text.join] using read?_join (List.cons_ne_nil q []) hrest
  joined q others rest t e hne hrest hread hvalue := by
    obtain ⟨next, others, rfl⟩ := List.exists_cons_of_ne_nil hne
    rw [read?_join hne hrest] at hread
    obtain ⟨rfl, -⟩ := Prod.mk.inj (Option.some.inj hread)
    obtain rfl := hvalue.unique (isText_ofPieces _)
    refine ⟨ofPieces ((q :: next :: others).map QuotedText.inside), ?_, isText_ofPieces _⟩
    exact read?_join (List.cons_ne_nil q (next :: others)) hrest

end Expression

/-- **Literals lose nothing.**  The literal of a text is a list of one or more pieces with ` ~ `
between them, each between two quotes that do not occur in it, and the pieces make up the text.
Every reader for which a quoted text runs to the next quote of its kind and a tilde joins texts
reads the literal to its end and not further, and its value is the text.  The reader of expressions
is one: with anything behind the literal that is not an operator it finds an expression for the
text, whatever the variables and functions are. -/
theorem read?_quoteLiteral (t : Text) :
    (∃ quoted : List QuotedText, quoted ≠ [] ∧
      quoteLiteral t = Text.join " ~ " (quoted.map QuotedText.written) ∧
      (quoted.map QuotedText.inside).flatten = t) ∧
    (∀ {ε : Type} {read : Text → Option (ε × Text)} {value : ε → Text → Prop}
      {ends : Text → Prop}, LiteralReader read value ends → ∀ rest : Text, ends rest →
        ∃ e, read (quoteLiteral t ++ rest) = some (e, rest) ∧ value e t) ∧
    ∀ rest : Text, Expression.EndsExpression rest →
      ∃ e : Expression, Expression.read? (quoteLiteral t ++ rest) = some (e, rest) ∧
        ∀ scope : HostScope, e.value scope = .done (.string t) := by
  refine ⟨?_, fun h rest hrest => h.read_quoteLiteral t hrest, fun rest hrest =>
    Expression.literalReader.read_quoteLiteral t hrest⟩
  obtain ⟨quoted, hne, htext, hwritten⟩ := exists_quoted_quoteLiteral t
  exact ⟨quoted, hne, hwritten, htext⟩

/-- A text that holds all quotes and what looks like the end of a call, in front of that end. -/
theorem read?_quoteLiteral_every_quote :
    let t : Text := "it's \"x\" \x60y\x60) ~ f(\x7d\x7d"
    let rest : Text := ") \x7d\x7d"
    quoteLiteral t = "\x60it's \"x\" \x60 ~ \"\x60y\x60) ~ f(\x7d\x7d\"" ∧
      LiteralReader Expression.read? Expression.IsText Expression.EndsExpression ∧
      Expression.EndsExpression rest ∧
      ∃ e : Expression, Expression.read? (quoteLiteral t ++ rest) = some (e, rest) ∧
        ∀ scope : HostScope, e.value scope = .done (.string t) := by
  intro t rest
  have hends : Expression.EndsExpression rest := by decide +kernel
  exact ⟨by decide +kernel, Expression.literalReader, hends,
    (read?_quoteLiteral t).2.1 Expression.literalReader rest hends⟩

end Offside
