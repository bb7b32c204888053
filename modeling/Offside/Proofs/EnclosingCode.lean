import Mathlib
import Offside.Proofs.ElementTags

/-!
# Code that closes what it opens

What is written for a line that has nothing to do with blocks, around what is written for the lines
below it (`LineCode.Encloses`).  An element stands around those lines, and its tags put it on the
stack and take it off again.  Everything else, text, expressions, comments and declarations, is
neutral.

No such code begins with a further branch of a block, whatever follows it (`NeverBranch`), so the
end of a block before it is never dropped.
-/

namespace Offside

/-! ## Code that is no branch -/

/-- Code that no further branch begins with, whatever follows it. -/
def NeverBranch (t : Text) : Prop := ∀ rest, NoBranch (t ++ rest)

lemma NeverBranch.append {s : Text} (h : NeverBranch s) (t : Text) : NeverBranch (s ++ t) := by
  intro rest
  rw [List.append_assoc]
  exact h (t ++ rest)

lemma NeverBranch.padded {t : Text} (h : NeverBranch t) {before : Text} (hbefore : Padding before) :
    NeverBranch (before ++ t) := by
  intro rest
  rw [List.append_assoc]
  exact noBranch_of_blank hbefore.isBlank (h rest)

lemma neverBranch_cons {c : Char} (hblank : Text.isBlank c = false) (hbrace : c ≠ '\x7b')
    (rest : Text) : NeverBranch (c :: rest) :=
  fun _ => noBranch_cons hblank fun _ _ hmark => hbrace hmark.1

/-- Two braces open an expression, not an instruction. -/
lemma neverBranch_braces : NeverBranch "\x7b\x7b " := by
  refine fun rest => noBranch_cons (by decide) fun d hd hmark => ?_
  cases hd
  exact absurd hmark.2 (by decide)

lemma neverBranch_outputMarks (code : Text) : NeverBranch (outputMarks code) :=
  (neverBranch_braces.append code).append _

lemma neutral_outputMarks {code : Text} (h : Tame code) : Neutral (outputMarks code) := by
  refine (tame_outputMarks h).calm.neutral fun c hc => ?_
  rw [getLast?_outputMarks] at hc
  cases hc
  decide

/-! ## Neutral lines -/

namespace LineCode

/-- The code of a line opens what stands around the lines below it, and closes it again. -/
structure Encloses (code : LineCode) (around : List Enclosure) : Prop where
  mark : code.mark = []
  enter : ∀ (s : ScanState) (rest : Text), scanCode s (code.opening ++ code.body ++ rest)
    = scanCode { s with stack := around ++ s.stack } rest
  leave : ∀ (s : ScanState) (rest : Text),
    scanCode { s with stack := around ++ s.stack } (code.closing ++ rest) = scanCode s rest
  begins : NeverBranch (code.opening ++ code.body)
  ends : ∀ rest, NoBranch rest → NoBranch (code.closing ++ rest)

/-- Neutral code stands around nothing. -/
lemma encloses_neutral {code : LineCode} (hmark : code.mark = [])
    (hfront : Neutral (code.opening ++ code.body))
    (hbegins : NeverBranch (code.opening ++ code.body)) (hback : Neutral code.closing)
    (hends : code.closing = [] ∨ NeverBranch code.closing) :
    code.Encloses [] where
  mark := hmark
  enter := fun s rest => scanCode_neutral hfront s rest
  leave := fun s rest => scanCode_neutral hback s rest
  begins := hbegins
  ends := fun rest hrest => by
    rcases hends with hempty | hnever
    · rw [hempty]
      exact hrest
    · exact hnever rest

lemma encloses_body {body : Text} (hneutral : Neutral body) (hbegins : NeverBranch body)
    (scope : Scope) : Encloses ⟨[], [], body, [], scope⟩ [] :=
  encloses_neutral rfl hneutral hbegins Neutral.nil (Or.inl rfl)

end LineCode

lemma neutral_of_check {t : Text} (hchain : t.IsChain Inert)
    (hlast : (t.getLast?.all fun c => c != '<' && c != '\x7b') = true) : Neutral t := by
  refine ⟨hchain, fun c hc => ?_⟩
  rw [Option.mem_def.1 hc] at hlast
  simpa using hlast

lemma doctype_cases (kind : Text) :
    (∃ entry ∈ knownDoctypes, doctype kind = entry.2) ∨
      doctype kind = "<!DOCTYPE " ++ kind ++ ">" := by
  rw [doctype]
  cases hlookup : knownDoctypes.lookup kind with
  | none => exact Or.inr rfl
  | some text =>
      obtain ⟨before, after, hlist, -⟩ := List.lookup_eq_some_iff.1 hlookup
      exact Or.inl ⟨(kind, text), hlist ▸ List.mem_append_right _ List.mem_cons_self, rfl⟩

/-- A declaration has an opening bracket, but what follows it is no name. -/
lemma neutral_doctype {kind : Text} (h : Prose kind) : Neutral (doctype kind) := by
  have hknown : ∀ entry ∈ knownDoctypes, entry.2.IsChain Inert ∧
      (entry.2.getLast?.all fun c => c != '<' && c != '\x7b') = true := by decide +kernel
  rcases doctype_cases kind with ⟨entry, hentry, heq⟩ | heq
  · rw [heq]
    exact neutral_of_check (hknown entry hentry).1 (hknown entry hentry).2
  · have hstart : Neutral "<!DOCTYPE ".toList := neutral_of_check (by decide) (by decide)
    have hend : Neutral ">".toList := neutral_of_check (by decide) (by decide)
    rw [heq]
    exact (hstart.append h.neutral).append hend

lemma neverBranch_doctype (kind : Text) : NeverBranch (doctype kind) := by
  have hknown : ∀ entry ∈ knownDoctypes, entry.2.head? = some '<' := by decide
  have hbracket : (doctype kind).head? = some '<' := by
    rcases doctype_cases kind with ⟨entry, hentry, heq⟩ | heq
    · rw [heq, hknown entry hentry]
    · rw [heq]
      rfl
  obtain ⟨rest, hrest⟩ : ∃ rest, doctype kind = '<' :: rest := List.head?_eq_some_iff.1 hbracket
  rw [hrest]
  exact neverBranch_cons (by decide) (by decide) rest

namespace CodeWriter

lemma neverBranch_textCode (w : CodeWriter) (scope : Scope) (place : Place) {first : Text}
    (hfirst : '\n' ∉ first) (hnever : NeverBranch first) (rest : Text) :
    NeverBranch (w.textCode scope place (first ++ rest)) := by
  obtain ⟨before, after, hbefore, heq⟩ := w.exists_textCode_eq scope place hfirst rest
  rw [heq]
  exact (hnever.padded hbefore).append after

lemma encloses_include (w : CodeWriter) (place : Place) {code : Text} (h : Prose code)
    (hembed : w.settings.embedCode = true) (scope : Scope) :
    LineCode.Encloses ⟨[], [], w.includeCode place code, [], scope⟩ [] := by
  have hnumber : Tame (Text.ofNat place.depth) := by
    intro c hc
    have hdigit : c.isDigit = true := Nat.isDigit_of_mem_toDigits (by decide) (by decide) hc
    constructor <;>
    · rintro rfl
      exact absurd hdigit (by decide)
  rw [includeCode, if_pos hembed]
  refine LineCode.encloses_body (neutral_outputMarks ?_) (neverBranch_outputMarks _) scope
  exact (((tame_of_all (by decide)).append h.tame).append (tame_of_all (by decide))).append hnumber
    |>.append (tame_of_all (by decide))

lemma encloses_expression (w : CodeWriter) (scope : Scope) (place : Place) {code : Text}
    (h : Prose code) (hembed : w.settings.embedCode = true) (below : Scope) :
    LineCode.Encloses ⟨[], [], w.expressionCode scope place code, [], below⟩ [] := by
  rw [expressionCode, if_pos hembed]
  refine LineCode.encloses_body (w.neutral_textCode scope place (tame_outputMarks h.tame)) ?_ below
  rw [outputMarks, List.append_assoc]
  exact w.neverBranch_textCode scope place (by decide) neverBranch_braces _

lemma encloses_text (w : CodeWriter) (scope : Scope) (place : Place) {t : Text} (h : Prose t)
    (hne : t ≠ []) (htrim : Trimmed t) (below : Scope) :
    LineCode.Encloses ⟨[], [], w.textCode scope place t, [], below⟩ [] := by
  refine LineCode.encloses_body (w.neutral_textCode scope place h.tame) ?_ below
  obtain ⟨c, rest, rfl⟩ := List.exists_cons_of_ne_nil hne
  have hvisible : Text.isBlank c = false := htrim.first c rfl
  have hbreak : '\n' ∉ [c] := by
    rintro hmem
    cases List.mem_singleton.1 hmem
    exact absurd hvisible (by decide)
  have hbrace : c ≠ '\x7b' := ne_of_isProse (h c List.mem_cons_self) (by decide)
  exact w.neverBranch_textCode scope place hbreak (neverBranch_cons hvisible hbrace []) rest

end CodeWriter

/-! ## Comments -/

lemma MadeFrom.prose {s t : Text} (h : MadeFrom t s) (ht : Prose t) : Prose s := by
  intro c hc
  rcases h c hc with hc | rfl | rfl
  · exact ht c hc
  · decide
  · decide

/-- A text between neutral brackets stays neutral, and its first bracket stays in front. -/
lemma neutral_indentText_brackets {first middle last : Text} (hfirst : Neutral first)
    (hmiddle : Prose middle) (hlast : Neutral last) (hbegin : '\n' ∉ first) (hend : '\n' ∉ last)
    (hnever : NeverBranch first) (canIndent : Bool) (level : Nat) (newline : Bool) :
    Neutral (indentText canIndent level newline (first ++ middle ++ last)) ∧
      NeverBranch (indentText canIndent level newline (first ++ middle ++ last)) := by
  obtain ⟨before, inner, after, hbefore, hinner, hafter, heq⟩ :=
    exists_indentText_eq hbegin hend canIndent level newline middle
  rw [heq]
  refine ⟨?_, ?_⟩
  · exact (((hbefore.neutral.append hfirst).append (hinner.prose hmiddle).neutral).append
      hlast).append hafter.neutral
  · exact (((hnever.padded hbefore).append inner).append last).append after

/-- The brackets of a comment: however they are laid out, the scan passes them. -/
structure CommentBrackets (opening closing : Text) : Prop where
  front : ∀ pad : Text, Padding pad → '\n' ∉ pad → ∀ canIndent level newline,
    Neutral (indentText canIndent level newline (opening ++ pad)) ∧
      NeverBranch (indentText canIndent level newline (opening ++ pad))
  neutral : Neutral closing
  never : NeverBranch closing
  unbroken : '\n' ∉ closing

namespace CommentBrackets

lemma simple : CommentBrackets "<!--" "-->" where
  front := by
    intro pad hpad hbreak canIndent level newline
    have hopen : Neutral "<!--".toList := neutral_of_check (by decide) (by decide)
    have hempty : Prose [] := by simp [Prose]
    have hlaid := neutral_indentText_brackets hopen hempty hpad.neutral (by decide)
      hbreak (neverBranch_cons (by decide) (by decide) _) canIndent level newline
    rwa [List.append_nil] at hlaid
  neutral := neutral_of_check (by decide) (by decide)
  never := neverBranch_cons (by decide) (by decide) _
  unbroken := by decide

lemma conditional {condition : Text} (h : Prose condition) :
    CommentBrackets ("<!--[" ++ condition ++ "]>") "<![endif]-->" where
  front := by
    intro pad hpad hbreak canIndent level newline
    have hopen : Neutral "<!--[".toList := neutral_of_check (by decide) (by decide)
    have hend : Neutral "]>".toList := neutral_of_check (by decide) (by decide)
    have hlaid := neutral_indentText_brackets hopen h (hend.append hpad.neutral)
      (by decide) (by simpa using hbreak) (neverBranch_cons (by decide) (by decide) _)
      canIndent level newline
    rwa [← List.append_assoc] at hlaid
  neutral := neutral_of_check (by decide) (by decide)
  never := neverBranch_cons (by decide) (by decide) _
  unbroken := by decide

/-- With lines below it, a comment is opened and closed on lines of its own. -/
lemma encloses_lines {opening closing : Text} (h : CommentBrackets opening closing) {t : Text}
    (ht : Prose t) (canIndent : Bool) (level : Nat) (below : Scope) :
    LineCode.Encloses ⟨[], indentText canIndent level true opening,
      if t.isEmpty then [] else indentText canIndent (level + 1) true t,
      indentText canIndent level true closing, below⟩ [] := by
  have hfront := h.front [] Padding.nil (by simp) canIndent level true
  rw [List.append_nil] at hfront
  have hbody : Neutral (if t.isEmpty then [] else indentText canIndent (level + 1) true t) := by
    split_ifs
    · exact Neutral.nil
    · exact neutral_indentText ht.tame.calm canIndent (level + 1)
  obtain ⟨before, after, hbefore, hafter, hclose⟩ :=
    exists_indentText_unbroken h.unbroken canIndent level true
  rw [hclose]
  exact LineCode.encloses_neutral rfl (hfront.1.append hbody) (hfront.2.append _)
    ((hbefore.neutral.append h.neutral).append hafter.neutral)
    (Or.inr ((h.never.padded hbefore).append after))

/-- Without lines below it, a comment stands on one line. -/
lemma encloses_line {opening closing : Text} (h : CommentBrackets opening closing) {t : Text}
    (ht : Prose t) (canIndent : Bool) (level : Nat) (below : Scope) :
    LineCode.Encloses ⟨[], indentText canIndent level false (opening ++ " "), t,
      " " ++ closing ++ "\n", below⟩ [] := by
  have hblank : Padding " ".toList := fun c hc => Or.inl (List.mem_singleton.1 hc)
  have hfront := h.front " " hblank (by decide) canIndent level false
  have hback : Neutral (" " ++ closing ++ "\n") :=
    (hblank.neutral.append h.neutral).append (padding_lineEnding true).neutral
  exact LineCode.encloses_neutral rfl (hfront.1.append ht.neutral) (hfront.2.append _)
    hback (Or.inr ((h.never.padded hblank).append _))

end CommentBrackets

lemma CodeWriter.encloses_comment (scope : Scope) (place : Place) (hasChildren : Bool)
    {condition : Option Text} {t : Text} (hcondition : Prose (condition.getD [])) (ht : Prose t) :
    (commentCode scope place hasChildren [] condition t).Encloses [] := by
  cases condition with
  | none =>
      cases hasChildren with
      | true => exact CommentBrackets.simple.encloses_lines ht _ _ _
      | false => exact CommentBrackets.simple.encloses_line ht _ _ _
  | some condition =>
      cases hasChildren with
      | true => exact (CommentBrackets.conditional hcondition).encloses_lines ht _ _ _
      | false => exact (CommentBrackets.conditional hcondition).encloses_line ht _ _ _

/-! ## Elements -/

/-- Code that puts an element on the stack. -/
structure OpensElement (e : Element) (opening : Text) : Prop where
  enter : ∀ (s : ScanState) (rest : Text),
    scanCode s (opening ++ rest) = scanCode (s.push (.element e.tag)) rest
  begins : NeverBranch opening

/-- Code that takes an element off the stack. -/
structure ClosesElement (e : Element) (closing : Text) : Prop where
  leave : ∀ (s : ScanState) (rest : Text),
    scanCode (s.push (.element e.tag)) (closing ++ rest) = scanCode s rest
  ends : NeverBranch closing

lemma OpensElement.padded {e : Element} {opening : Text} (h : OpensElement e opening)
    {before : Text} (hbefore : Padding before) : OpensElement e (before ++ opening) where
  enter := fun s rest => by
    rw [List.append_assoc, scanCode_neutral hbefore.neutral, h.enter]
  begins := h.begins.padded hbefore

lemma ClosesElement.padded {e : Element} {closing : Text} (h : ClosesElement e closing)
    {after : Text} (hafter : Padding after) : ClosesElement e (closing ++ after) where
  leave := fun s rest => by
    rw [List.append_assoc, h.leave, scanCode_neutral hafter.neutral]
  ends := h.ends.append after

/-- Inside of preformatted elements tags are written as they are. -/
lemma indentText_tag (level : Nat) (newline : Bool) (t : Text) :
    indentText false level newline ('<' :: t) = '<' :: t := by
  simp [indentText, Text.startsWith, Text.dropPrefix?]

namespace Element.WellFormed

variable {e : Element}

lemma neverBranch_openTag (h : e.WellFormed) (ending : Text) (hending : '\n' ∉ ending)
    (canIndent : Bool) (level : Nat) (newline : Bool) :
    NeverBranch (indentText canIndent level newline (e.openTag ++ ending)) := by
  obtain ⟨before, body, after, hbefore, -, -, heq⟩ :=
    h.exists_indentText_openTag ending hending canIndent level newline
  rw [heq]
  exact ((neverBranch_cons (by decide) (by decide) _).padded hbefore).append after

lemma opens_indentText (h : e.WellFormed) (canIndent : Bool) (level : Nat) (newline : Bool) :
    OpensElement e (indentText canIndent level newline (e.openTag ++ ">")) :=
  ⟨h.scanCode_openTag canIndent level newline, h.neverBranch_openTag _ (by decide) _ _ _⟩

lemma opens_bare (h : e.WellFormed) : OpensElement e (e.openTag ++ ">") := by
  have hlaid := h.opens_indentText false 0 false
  obtain ⟨body, -, hopen⟩ := h.exists_openTag_eq
  rw [hopen] at hlaid ⊢
  simpa only [List.cons_append, indentText_tag] using hlaid

lemma closes_indentText (h : e.WellFormed) (canIndent : Bool) (level : Nat) (newline : Bool) :
    ClosesElement e (indentText canIndent level newline e.closeTag) := by
  refine ⟨h.scanCode_closeTag canIndent level newline, ?_⟩
  obtain ⟨before, after, hbefore, -, heq⟩ :=
    exists_indentText_unbroken h.newline_not_mem_closeTag canIndent level newline
  rw [heq]
  exact ((neverBranch_cons (by decide) (by decide) _).padded hbefore).append after

lemma closes_bare (h : e.WellFormed) : ClosesElement e e.closeTag := by
  have hlaid := h.closes_indentText false 0 false
  rw [closeTag] at hlaid ⊢
  rwa [show "</" ++ e.tag ++ ">" = '<' :: ('/' :: e.tag ++ ">") from rfl, indentText_tag] at hlaid

/-- Tags around neutral text put the element around what stands between them. -/
lemma encloses_tags {opening body closing : Text} (hopen : OpensElement e opening)
    (hbody : Neutral body) (hclose : ClosesElement e closing) (scope : Scope) :
    LineCode.Encloses ⟨[], opening, body, closing, scope⟩ [.element e.tag] where
  mark := rfl
  enter := fun s rest => by
    rw [List.append_assoc, hopen.enter, scanCode_neutral hbody]
    rfl
  leave := hclose.leave
  begins := hopen.begins.append body
  ends := fun rest _ => hclose.ends rest

/-- An element that is not closed at once stands around the lines below it. -/
lemma encloses_elementCode (h : e.WellFormed) (w : CodeWriter) (scope : Scope) (place : Place)
    (hasChildren : Bool) : (w.elementCode scope place hasChildren [] e).Encloses
      (if e.selfClosing then [] else [.element e.tag]) := by
  have hbreak : Padding "\n".toList := padding_lineEnding true
  have hcontent : Neutral e.content := h.content.neutral h.content_last
  rw [CodeWriter.elementCode]
  dsimp only
  by_cases hself : e.selfClosing = true
  · rw [if_pos hself, if_pos hself]
    refine ⟨rfl, fun s rest => ?_, fun s rest => rfl, ?_, fun rest hrest => hrest⟩
    · simpa using h.scanCode_selfClosing _ _ _ s rest
    · simpa using h.neverBranch_openTag " />" (by decide) _ _ _
  rw [if_neg hself, if_neg hself]
  split
  · refine encloses_tags (h.opens_indentText _ _ _) ?_ (h.closes_bare.padded hbreak) _
    split
    · exact Neutral.nil
    · exact neutral_indentText h.content _ _
  split
  · refine encloses_tags (h.opens_indentText _ _ _) ?_ (h.closes_indentText _ _ _) _
    split
    · exact Neutral.nil
    · exact neutral_indentText (h.content.wrapWords _) _ _
  split
  · exact encloses_tags (h.opens_bare.padded hbreak) hcontent (h.closes_bare.padded hbreak) _
  split
  · refine encloses_tags ?_ hcontent (h.closes_bare.padded ?_) _
    · split
      · exact h.opens_indentText _ _ _
      · exact h.opens_bare
    · split
      · exact hbreak
      · exact fun c hc => Or.inl (List.mem_singleton.1 hc)
  · exact encloses_tags (h.opens_indentText _ _ _) hcontent (h.closes_bare.padded hbreak) _

end Element.WellFormed

end Offside
