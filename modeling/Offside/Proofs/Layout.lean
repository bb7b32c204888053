import Mathlib
import Offside.Proofs.Tags

/-!
# Layout

The pieces of a line are indented, wrapped and put on lines of their own before they are written.
This changes nothing but spaces and line feeds: `indentText` replaces line feeds and pads both ends
(`indentText_eq`), and `wrapWords` breaks lines at spaces.  So text in which no tag and no
instruction begins stays like that (`Calm`), and what stands at the beginning and at the end of a
tag stays there (`exists_indentText_eq`).
-/

namespace Offside

/-! ## Padding -/

/-- Spaces and line feeds only. -/
def Padding (t : Text) : Prop := ∀ c ∈ t, c = ' ' ∨ c = '\n'

lemma Padding.nil : Padding [] := by simp [Padding]

lemma Padding.append {s t : Text} (hs : Padding s) (ht : Padding t) : Padding (s ++ t) := by
  intro c hc
  rcases List.mem_append.1 hc with hc | hc
  · exact hs c hc
  · exact ht c hc

lemma Padding.isBlank {t : Text} (h : Padding t) : ∀ c ∈ t, Text.isBlank c = true := by
  intro c hc
  rcases h c hc with rfl | rfl <;> rfl

lemma padding_times (level : Nat) : Padding (Text.times level "  ") := by
  intro c hc
  simp only [Text.times, List.mem_flatten, List.mem_replicate] at hc
  obtain ⟨piece, ⟨-, rfl⟩, hc⟩ := hc
  left
  simpa using hc

/-! ## Tame and calm text -/

/-- Text that keeps away from tags and instructions: no opening bracket and no per cent sign. -/
def Tame (t : Text) : Prop := ∀ c ∈ t, c ≠ '<' ∧ c ≠ '%'

lemma Tame.append {s t : Text} (hs : Tame s) (ht : Tame t) : Tame (s ++ t) := by
  intro c hc
  rcases List.mem_append.1 hc with hc | hc
  · exact hs c hc
  · exact ht c hc

lemma Padding.tame {t : Text} (h : Padding t) : Tame t := by
  intro c hc
  rcases h c hc with rfl | rfl <;> decide

/-- Text without opening brackets in which no instruction begins. -/
structure Calm (t : Text) : Prop where
  bracket : '<' ∉ t
  chain : t.IsChain Unmarked

lemma Tame.calm {t : Text} (h : Tame t) : Calm t := by
  refine ⟨fun hmem => (h _ hmem).1 rfl, (List.isChain_isInfix t).imp fun a b hab hmark => ?_⟩
  exact (h b (hab.subset (by simp))).2 hmark.2

lemma Calm.neutral {t : Text} (h : Calm t) (hlast : ∀ c ∈ t.getLast?, c ≠ '\x7b') : Neutral t := by
  refine ⟨h.chain.imp_of_mem_imp fun a b ha _ hab => ⟨fun htag => ?_, hab⟩,
    fun c hc => ⟨?_, hlast c hc⟩⟩
  · exact h.bracket (htag.1 ▸ ha)
  · rintro rfl
    exact h.bracket (List.mem_of_getLast? hc)

lemma Padding.neutral {t : Text} (h : Padding t) : Neutral t := by
  refine h.tame.calm.neutral fun c hc => ?_
  rcases h c (List.mem_of_getLast? hc) with rfl | rfl <;> decide

/-- Calm texts can follow each other, unless an instruction begins where they meet. -/
lemma Calm.append {s t : Text} (hs : Calm s) (ht : Calm t)
    (hmeet : (∀ c ∈ s.getLast?, c ≠ '\x7b') ∨ ∀ c ∈ t.head?, c ≠ '%') : Calm (s ++ t) := by
  refine ⟨?_, List.isChain_append.2 ⟨hs.chain, ht.chain, fun a ha b hb hmark => ?_⟩⟩
  · rw [List.mem_append, not_or]
    exact ⟨hs.bracket, ht.bracket⟩
  · rcases hmeet with hmeet | hmeet
    · exact hmeet a ha hmark.1
    · exact hmeet b hb hmark.2

lemma Calm.of_isInfix {s t : Text} (h : Calm t) (hst : s <:+: t) : Calm s := by
  refine ⟨fun hmem => h.bracket (hst.subset hmem), ?_⟩
  obtain ⟨front, back, rfl⟩ := hst
  exact (List.isChain_append.1 (List.isChain_append.1 h.chain).1).2.1

/-- Padding between calm texts keeps instructions from beginning. -/
lemma Calm.append_blank {s t : Text} (hs : Calm s) {c : Char} (hc : c = ' ' ∨ c = '\n')
    (ht : Calm t) : Calm (s ++ c :: t) := by
  have hpad : Padding [c] := fun d hd => by rwa [List.mem_singleton.1 hd]
  have hright : Calm ([c] ++ t) := hpad.tame.calm.append ht (Or.inl fun d hd => by
    cases hd
    rcases hc with rfl | rfl <;> decide)
  refine hs.append hright (Or.inr fun d hd => ?_)
  cases hd
  rcases hc with rfl | rfl <;> decide

/-- Every character comes from `t`, or is padding. -/
def MadeFrom (t s : Text) : Prop := ∀ c ∈ s, c ∈ t ∨ c = ' ' ∨ c = '\n'

lemma MadeFrom.tame {s t : Text} (h : MadeFrom t s) (ht : Tame t) : Tame s := by
  intro c hc
  rcases h c hc with hc | rfl | rfl
  · exact ht c hc
  · decide
  · decide

/-! ## Indenting -/

/-- What a line feed becomes when lines are indented. -/
def relay (level : Nat) (ending : Text) (t : Text) : Text :=
  t.flatMap fun c => if c = '\n' then ending ++ Text.times level "  " else [c]

lemma relay_append (level : Nat) (ending s t : Text) :
    relay level ending (s ++ t) = relay level ending s ++ relay level ending t := by
  simp [relay]

lemma relay_eq_self {t : Text} (h : '\n' ∉ t) (level : Nat) (ending : Text) :
    relay level ending t = t := by
  induction t with
  | nil => rfl
  | cons c cs ih =>
      rw [List.mem_cons, not_or] at h
      rw [relay, List.flatMap_cons, if_neg (Ne.symm h.1), ← relay, ih h.2]
      rfl

lemma madeFrom_relay {ending : Text} (hending : Padding ending) (level : Nat) (t : Text) :
    MadeFrom t (relay level ending t) := by
  intro c hc
  obtain ⟨d, hd, hc⟩ := List.mem_flatMap.1 hc
  split_ifs at hc with hline
  · exact Or.inr (hending.append (padding_times level) c hc)
  · rw [List.mem_singleton.1 hc]
    exact Or.inl hd

lemma flatMap_splitOn (level : Nat) (ending t : Text) :
    ((Text.splitOn '\n' t).flatMap fun line => Text.times level "  " ++ line ++ ending)
      = Text.times level "  " ++ relay level ending t ++ ending := by
  induction t with
  | nil => simp [Text.splitOn, relay]
  | cons c cs ih =>
      rw [Text.splitOn]
      by_cases hc : c = '\n'
      · rw [if_pos hc, List.flatMap_cons, ih]
        simp [relay, hc]
      · rw [if_neg hc]
        cases hsplit : Text.splitOn '\n' cs with
        | nil => exact absurd hsplit (splitOn_ne_nil _ _)
        | cons piece pieces =>
            rw [hsplit, List.flatMap_cons] at ih
            simp only [List.append_assoc] at ih
            have htail := List.append_cancel_left ih
            rw [List.flatMap_cons]
            simp only [List.append_assoc, List.cons_append]
            rw [htail]
            simp [relay, hc]

/-- What ends an indented line. -/
def lineEnding (newline : Bool) : Text := if newline then "\n" else []

lemma padding_lineEnding (newline : Bool) : Padding (lineEnding newline) := by
  cases newline with
  | true => exact fun c hc => Or.inr (by simpa [lineEnding] using hc)
  | false => exact Padding.nil

/-- Indenting replaces line feeds and pads both ends. -/
lemma indentText_eq (level : Nat) (newline : Bool) (t : Text) :
    indentText true level newline t
      = Text.times level "  " ++ relay level (lineEnding newline) t ++ lineEnding newline := by
  rw [indentText, if_pos rfl]
  exact flatMap_splitOn level _ t

lemma head?_relay (level : Nat) (t : Text) : (relay level (lineEnding true) t).head? = t.head? := by
  cases t with
  | nil => rfl
  | cons c cs =>
      rw [relay, List.flatMap_cons]
      split_ifs with hc
      · rw [hc]
        rfl
      · rfl

/-- Neighbours stay as they are where every line keeps its end. -/
lemma isChain_relay {r : Char → Char → Prop} (hblank : ∀ a b, a = ' ' ∨ a = '\n' → r a b)
    {t : Text} (h : t.IsChain r) (level : Nat) :
    (relay level (lineEnding true) t).IsChain r := by
  have hpad := (padding_lineEnding true).append (padding_times level)
  induction t with
  | nil => exact List.isChain_nil
  | cons c cs ih =>
      rw [relay, List.flatMap_cons]
      refine List.isChain_append.2 ⟨?_, ih h.tail, fun a ha b hb => ?_⟩
      · split_ifs
        · exact (List.isChain_isInfix _).imp fun a b hab =>
            hblank a b (hpad a (hab.subset List.mem_cons_self))
        · exact List.isChain_singleton _
      · have hb' : b ∈ cs.head? := by rwa [← head?_relay level]
        split_ifs at ha with hc
        · exact hblank a b (hpad a (List.mem_of_getLast? ha))
        · cases ha
          exact (List.isChain_cons.1 h).1 b hb'

/-- Where every line keeps its end, no instruction comes about. -/
lemma Calm.relay {t : Text} (h : Calm t) (level : Nat) :
    Calm (relay level (lineEnding true) t) := by
  refine ⟨fun hmem => ?_, isChain_relay ?_ h.chain level⟩
  · rcases madeFrom_relay (padding_lineEnding true) level t _ hmem with hmem | hmem | hmem
    · exact h.bracket hmem
    · cases hmem
    · cases hmem
  · rintro a b (rfl | rfl) <;> exact fun hmark => absurd hmark.1 (by decide)

/-- The beginning and the end of a text stay where they are, if no line is broken in them. -/
lemma exists_indentText_eq {first last : Text} (hfirst : '\n' ∉ first) (hlast : '\n' ∉ last)
    (canIndent : Bool) (level : Nat) (newline : Bool) (middle : Text) :
    ∃ before inner after, Padding before ∧ MadeFrom middle inner ∧ Padding after ∧
      indentText canIndent level newline (first ++ middle ++ last)
        = before ++ first ++ inner ++ last ++ after := by
  cases canIndent with
  | true =>
      refine ⟨Text.times level "  ", relay level (lineEnding newline) middle, lineEnding newline,
        padding_times level, madeFrom_relay (padding_lineEnding newline) level middle,
        padding_lineEnding newline, ?_⟩
      rw [indentText_eq, relay_append, relay_append, relay_eq_self hfirst, relay_eq_self hlast]
      simp only [List.append_assoc]
  | false =>
      rw [indentText, if_neg Bool.false_ne_true]
      split_ifs
      · exact ⟨[], middle, [], Padding.nil, fun c hc => Or.inl hc, Padding.nil, by simp⟩
      · exact ⟨[], middle, "\n", Padding.nil, fun c hc => Or.inl hc, padding_lineEnding true,
          by simp⟩

/-- A text in which no line is broken is only padded. -/
lemma exists_indentText_unbroken {t : Text} (h : '\n' ∉ t) (canIndent : Bool) (level : Nat)
    (newline : Bool) : ∃ before after, Padding before ∧ Padding after ∧
      indentText canIndent level newline t = before ++ t ++ after := by
  obtain ⟨before, inner, after, hbefore, hinner, hafter, heq⟩ :=
    exists_indentText_eq h (List.not_mem_nil (a := '\n')) canIndent level newline []
  rw [List.append_nil, List.append_nil] at heq
  refine ⟨before, inner ++ after, hbefore, ?_, by rw [heq]; simp⟩
  exact Padding.append (fun c hc => (hinner c hc).resolve_left (by simp)) hafter

lemma startsWith_bracket {t : Text} (h : '<' ∉ t) : Text.startsWith "<" t = false := by
  cases t with
  | nil => rfl
  | cons c cs =>
      have hc : '<' ≠ c := fun hc => h (hc ▸ List.mem_cons_self)
      simp [Text.startsWith, Text.dropPrefix?, hc]

/-- Calm text with padding after it is neutral. -/
lemma Calm.neutral_append {t : Text} (h : Calm t) {c : Char} (hc : c = ' ' ∨ c = '\n') :
    Neutral (t ++ [c]) := by
  refine (h.append_blank hc ⟨by simp, List.isChain_nil⟩).neutral fun d hd => ?_
  rw [List.getLast?_concat] at hd
  cases hd
  rcases hc with rfl | rfl <;> decide

/-- Calm text is neutral on lines of its own. -/
lemma neutral_indentText {t : Text} (h : Calm t) (canIndent : Bool) (level : Nat) :
    Neutral (indentText canIndent level true t) := by
  cases canIndent with
  | true =>
      rw [indentText_eq, List.append_assoc]
      exact (padding_times level).neutral.append ((h.relay level).neutral_append (Or.inr rfl))
  | false =>
      rw [indentText, if_neg Bool.false_ne_true, startsWith_bracket h.bracket,
        if_neg Bool.false_ne_true]
      exact h.neutral_append (Or.inr rfl)

/-! ## Text on a line -/

/-- The first piece begins the text, and the others stand in it. -/
lemma parts_of_splitOn {sep : Char} {t first : Text} {rest : List Text}
    (h : Text.splitOn sep t = first :: rest) : first <+: t ∧ ∀ piece ∈ rest, piece <:+: t := by
  induction t generalizing first rest with
  | nil =>
      cases h
      exact ⟨List.nil_prefix, by simp⟩
  | cons c cs ih =>
      cases hcs : Text.splitOn sep cs with
      | nil => exact absurd hcs (splitOn_ne_nil _ _)
      | cons next later =>
          obtain ⟨hnext, hlater⟩ := ih hcs
          rw [Text.splitOn, hcs] at h
          split_ifs at h
          · cases h
            refine ⟨List.nil_prefix, fun piece hpiece => ?_⟩
            rcases List.mem_cons.1 hpiece with rfl | hpiece
            · exact hnext.isInfix.trans (List.suffix_cons c cs).isInfix
            · exact (hlater piece hpiece).trans (List.suffix_cons c cs).isInfix
          · cases h
            exact ⟨List.prefix_cons_inj c |>.2 hnext, fun piece hpiece =>
              (hlater piece hpiece).trans (List.suffix_cons c cs).isInfix⟩

lemma isInfix_of_mem_splitOn {sep : Char} {t piece : Text} (h : piece ∈ Text.splitOn sep t) :
    piece <:+: t := by
  cases hsplit : Text.splitOn sep t with
  | nil => exact absurd hsplit (splitOn_ne_nil _ _)
  | cons first rest =>
      obtain ⟨hfirst, hrest⟩ := parts_of_splitOn hsplit
      rw [hsplit] at h
      rcases List.mem_cons.1 h with rfl | h
      · exact hfirst.isInfix
      · exact hrest piece h

/-- What holds of every word, and of a line with one more word where that fits, holds of every line
that the words are laid out on. -/
lemma forall_mem_fillLines {P : Text → Prop} {width : Nat}
    (hspace : ∀ s t, Text.byteLength s + 1 + Text.byteLength t ≤ width → P s → P t →
      P (s ++ ' ' :: t))
    {current : Text} {words : List Text} (hcurrent : P current)
    (hwords : ∀ word ∈ words, P word) : ∀ line ∈ fillLines width current words, P line := by
  induction words generalizing current with
  | nil =>
      intro line hline
      rw [fillLines, List.mem_singleton] at hline
      exact hline ▸ hcurrent
  | cons word words ih =>
      have hword := hwords word List.mem_cons_self
      have hlater : ∀ other ∈ words, P other := fun other hother =>
        hwords other (List.mem_cons_of_mem _ hother)
      intro line hline
      rw [fillLines] at hline
      split_ifs at hline with _ hwide
      · exact ih hword hlater line hline
      · rcases List.mem_cons.1 hline with rfl | hline
        · exact hcurrent
        · exact ih hword hlater line hline
      · refine ih ?_ hlater line hline
        simpa using hspace current word (Nat.not_lt.1 hwide) hcurrent hword

lemma mem_join {sep : Text} {pieces : List Text} {c : Char} (h : c ∈ Text.join sep pieces) :
    (∃ piece ∈ pieces, c ∈ piece) ∨ c ∈ sep := by
  induction pieces with
  | nil => simp [Text.join] at h
  | cons piece pieces ih =>
      cases pieces with
      | nil => exact Or.inl ⟨piece, List.mem_cons_self, h⟩
      | cons next rest =>
          rw [Text.join, List.mem_append, List.mem_append] at h
          · rcases h with (h | h) | h
            · exact Or.inl ⟨piece, List.mem_cons_self, h⟩
            · exact Or.inr h
            · rcases ih h with ⟨other, hother, hc⟩ | hc
              · exact Or.inl ⟨other, List.mem_cons_of_mem _ hother, hc⟩
              · exact Or.inr hc
          · simp

lemma join_of_forall {P : Text → Prop} {c : Char} (hnil : P [])
    (hbreak : ∀ s t, P s → P t → P (s ++ c :: t)) {pieces : List Text}
    (h : ∀ piece ∈ pieces, P piece) : P (Text.join [c] pieces) := by
  induction pieces with
  | nil => exact hnil
  | cons piece pieces ih =>
      cases pieces with
      | nil => exact h piece List.mem_cons_self
      | cons next rest =>
          have htail := ih fun other hother => h other (List.mem_cons_of_mem _ hother)
          rw [Text.join]
          · simpa using hbreak _ _ (h piece List.mem_cons_self) htail
          · simp

/-- Wrapping a text breaks it at spaces, and nothing else comes about. -/
lemma wrapWords_of_forall {P : Text → Prop} (hnil : P [])
    (hspace : ∀ s t, P s → P t → P (s ++ ' ' :: t)) (hbreak : ∀ s t, P s → P t → P (s ++ '\n' :: t))
    {t : Text} (h : ∀ word, word <:+: t → P word) (width : Nat) : P (wrapWords width t) :=
  join_of_forall hnil hbreak (forall_mem_fillLines (fun s t _ => hspace s t) hnil fun word hword =>
    h word (isInfix_of_mem_splitOn hword))

lemma Calm.wrapWords {t : Text} (h : Calm t) (width : Nat) : Calm (wrapWords width t) :=
  wrapWords_of_forall ⟨by simp, List.isChain_nil⟩ (fun _ _ hs ht => hs.append_blank (Or.inl rfl) ht)
    (fun _ _ hs ht => hs.append_blank (Or.inr rfl) ht) (fun _ hword => h.of_isInfix hword) width

namespace CodeWriter

/-- Text on a line is neutral, however it shares the line with its neighbours. -/
lemma neutral_textCode (w : CodeWriter) (scope : Scope) (place : Place) {t : Text} (h : Tame t) :
    Neutral (w.textCode scope place t) := by
  have hfirst : ∀ newline, Tame (indentText true place.depth newline t) := by
    intro newline
    rw [indentText_eq]
    exact ((padding_times _).tame.append
      ((madeFrom_relay (padding_lineEnding newline) _ t).tame h)).append
      (padding_lineEnding newline).tame
  rw [textCode]
  split_ifs
  · split
    · exact neutral_indentText h.calm true _
    · exact (hfirst false).calm.neutral_append (Or.inl rfl)
    · exact h.calm.neutral_append (Or.inr rfl)
    · exact h.calm.neutral_append (Or.inl rfl)
  · exact neutral_indentText h.calm _ _

/-- The beginning of a text stays at the beginning, with nothing but padding before it. -/
lemma exists_textCode_eq (w : CodeWriter) (scope : Scope) (place : Place) {first : Text}
    (hfirst : '\n' ∉ first) (rest : Text) :
    ∃ before after, Padding before ∧
      w.textCode scope place (first ++ rest) = before ++ first ++ after := by
  have hindent : ∀ canIndent level newline, ∃ before after, Padding before ∧
      indentText canIndent level newline (first ++ rest) = before ++ first ++ after := by
    intro canIndent level newline
    obtain ⟨before, inner, after, hbefore, -, -, heq⟩ :=
      exists_indentText_eq hfirst (List.not_mem_nil (a := '\n')) canIndent level newline rest
    rw [List.append_nil] at heq
    exact ⟨before, inner ++ after, hbefore, by rw [heq]; simp⟩
  rw [textCode]
  split_ifs
  · split
    · exact hindent true _ _
    · obtain ⟨before, after, hbefore, heq⟩ := hindent true place.depth false
      exact ⟨before, after ++ " ", hbefore, by rw [heq]; simp⟩
    · exact ⟨[], rest ++ "\n", Padding.nil, by simp⟩
    · exact ⟨[], rest ++ " ", Padding.nil, by simp⟩
  · exact hindent _ _ _

end CodeWriter

end Offside
