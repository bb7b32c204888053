import Mathlib
import Offside.Proofs.Layout
import Offside.Proofs.Paths

/-!
# Wrapped lines

Wrapping cuts a text at every single space and lays the pieces out on lines.  A run of spaces gives
empty pieces, which can end a line, begin one or go into it like any other.  However the spaces
stand and whatever the width is, three things hold.

**No word is lost.**  A space ends a word wherever it stands (`wordsOf_append_space`), so a piece
that is put behind a line adds its word to the words of the line, and the end of a line does what a
space does (`flatMap_wordsOf_fillLines`).

**Every line fits or is one word.**  A piece is put behind a line only where both fit, and this is
the only way a space gets into a line (`fits_of_mem_fillLines`).

**No line ends early.**  A line ends in front of a piece that does not fit behind it, and the next
line begins with this piece (`exists_fillLines_eq_cons`).  An empty piece leaves its place to the
next one.  Where not even the empty piece fits, no other does, so the line did not end early in
this case either (`isChain_fillLines`).
-/

namespace Offside

variable {width : Nat} {current : Text} {words : List Text}

lemma byteLength_append (s t : Text) :
    Text.byteLength (s ++ t) = Text.byteLength s + Text.byteLength t := by
  induction s with
  | nil => simp [Text.byteLength]
  | cons c s ih => simp [Text.byteLength, ih, Nat.add_assoc]

/-! ## Words -/

/-- What stands between the spaces of a text, where that is not empty. -/
def wordsOf (t : Text) : List Text := (Text.splitOn ' ' t).filter (· ≠ [])

/-- What stands before the first space of a text, or all of it if it has none. -/
def leadingWord (t : Text) : Text := (Text.splitOn ' ' t).head (splitOn_ne_nil ' ' t)

@[simp] lemma wordsOf_nil : wordsOf [] = [] := rfl

lemma wordsOf_append_space (s t : Text) : wordsOf (s ++ ' ' :: t) = wordsOf s ++ wordsOf t := by
  rw [wordsOf, splitOn_append_cons, List.filter_append]
  rfl

lemma wordsOf_join (pieces : List Text) :
    wordsOf (Text.join [' '] pieces) = pieces.flatMap wordsOf := by
  induction pieces with
  | nil => rfl
  | cons piece pieces ih =>
      cases pieces with
      | nil => simp [Text.join]
      | cons next rest =>
          rw [List.flatMap_cons, ← ih, join_cons_cons, List.append_assoc, List.singleton_append,
            wordsOf_append_space]

/-- The words of a text are those of its pieces, some of which may be empty. -/
lemma flatMap_wordsOf_splitOn (t : Text) : (Text.splitOn ' ' t).flatMap wordsOf = wordsOf t := by
  rw [← wordsOf_join, join_splitOn]

lemma leadingWord_append {word : Text} (h : ' ' ∉ word) (rest : Text) :
    leadingWord (word ++ rest) = word ++ leadingWord rest := by
  induction word with
  | nil => rfl
  | cons c word ih =>
      rw [List.mem_cons, not_or] at h
      have hword := ih h.2
      simp only [leadingWord] at hword ⊢
      cases hsplit : Text.splitOn ' ' (word ++ rest) with
      | nil => exact absurd hsplit (splitOn_ne_nil _ _)
      | cons first later =>
          simp only [hsplit, List.head_cons] at hword
          simp [Text.splitOn, Ne.symm h.1, hsplit, hword]

/-! ## Filling lines -/

/-- The line that is being filled begins the first line. -/
lemma exists_fillLines_eq_cons (width : Nat) (current : Text) (words : List Text) :
    ∃ rest lines, fillLines width current words = (current ++ rest) :: lines := by
  induction words generalizing current with
  | nil => exact ⟨[], [], by simp [fillLines]⟩
  | cons word words ih =>
      rw [fillLines]
      split_ifs with hempty
      · rw [List.isEmpty_iff.1 hempty]
        obtain ⟨rest, lines, hlines⟩ := ih word
        exact ⟨word ++ rest, lines, hlines⟩
      · exact ⟨[], fillLines width word words, by rw [List.append_nil]⟩
      · obtain ⟨rest, lines, hlines⟩ := ih (current ++ " " ++ word)
        exact ⟨" " ++ word ++ rest, lines, by simpa using hlines⟩

lemma flatMap_wordsOf_fillLines :
    (fillLines width current words).flatMap wordsOf = wordsOf current ++ words.flatMap wordsOf := by
  induction words generalizing current with
  | nil => simp [fillLines]
  | cons word words ih =>
      rw [fillLines, List.flatMap_cons]
      split_ifs with hempty
      · rw [ih, List.isEmpty_iff.1 hempty, wordsOf_nil, List.nil_append]
      · rw [List.flatMap_cons, ih]
      · have hjoined : wordsOf (current ++ " " ++ word) = wordsOf current ++ wordsOf word := by
          simpa using wordsOf_append_space current word
        rw [ih, hjoined, List.append_assoc]

lemma fits_of_mem_fillLines (hcurrent : ' ' ∉ current) (hwords : ∀ word ∈ words, ' ' ∉ word) :
    ∀ line ∈ fillLines width current words, Text.byteLength line ≤ width ∨ ' ' ∉ line := by
  refine forall_mem_fillLines (fun s t hfits _ _ => .inl ?_) (.inr hcurrent)
    fun word hword => .inr (hwords word hword)
  rw [byteLength_append, Text.byteLength, show (' ' : Char).utf8Size = 1 from rfl]
  omega

/-- A line ends only where the word that begins the next one does not fit any more. -/
lemma isChain_fillLines (hwords : ∀ word ∈ words, ' ' ∉ word) :
    (fillLines width current words).IsChain fun line next =>
      width < Text.byteLength line + 1 + Text.byteLength (leadingWord next) := by
  induction words generalizing current with
  | nil => exact List.isChain_singleton current
  | cons word words ih =>
      have hword := hwords word List.mem_cons_self
      have hlater : ∀ other ∈ words, ' ' ∉ other := fun other hother =>
        hwords other (List.mem_cons_of_mem _ hother)
      rw [fillLines]
      split_ifs with hempty hwide
      · exact ih hlater
      · have hchain := @ih word hlater
        obtain ⟨rest, lines, hlines⟩ := exists_fillLines_eq_cons width word words
        rw [hlines] at hchain ⊢
        refine hchain.cons_cons ?_
        -- `rest` belongs to the leading word only if `word` is empty, and can only make it longer.
        rw [leadingWord_append hword, byteLength_append]
        omega
      · exact ih hlater

/-! ## Wrapping -/

/-- Cutting a wrapped text at its line feeds gives the lines that were filled. -/
lemma splitOn_wrapWords (width : Nat) {text : Text} (h : '\n' ∉ text) :
    Text.splitOn '\n' (wrapWords width text) = fillLines width [] (Text.splitOn ' ' text) := by
  have hne : fillLines width [] (Text.splitOn ' ' text) ≠ [] := by
    obtain ⟨rest, lines, hlines⟩ := exists_fillLines_eq_cons width [] (Text.splitOn ' ' text)
    simp [hlines]
  refine splitOn_join hne (forall_mem_fillLines (fun s t _ hs ht => ?_) (by simp) ?_)
  · simp [hs, ht]
  · intro word hword hmem
    exact h ((isInfix_of_mem_splitOn hword).subset hmem)

/-- **Wrapping is lossless, bounded and greedy.**  The words on the lines are the words of the text,
in the same order.  Every line is at most `width` bytes long or holds no space.  No line could have
taken the word that the next line begins with. -/
theorem wrapWords_lossless_bounded_greedy (width : Nat) {text : Text} (h : '\n' ∉ text) :
    let lines := Text.splitOn '\n' (wrapWords width text)
    lines.flatMap wordsOf = wordsOf text ∧
      (∀ line ∈ lines, Text.byteLength line ≤ width ∨ ' ' ∉ line) ∧
      lines.IsChain fun line next =>
        width < Text.byteLength line + 1 + Text.byteLength (leadingWord next) := by
  have hwords : ∀ word ∈ Text.splitOn ' ' text, ' ' ∉ word := fun _ => notMem_of_mem_splitOn
  rw [splitOn_wrapWords width h]
  refine ⟨?_, fits_of_mem_fillLines (by simp) hwords, isChain_fillLines hwords⟩
  rw [flatMap_wordsOf_fillLines, wordsOf_nil, List.nil_append, flatMap_wordsOf_splitOn]

/-- A letter of two bytes, a word that is too long, and two runs of spaces: one space of the first
run stays at the end of a line, and nothing is left of the second. -/
theorem wrapWords_lossless_bounded_greedy_runs :
    let text : Text := "é  ab toolong  x"
    let lines : List Text := ["é ", "ab", "toolong", "x"]
    '\n' ∉ text ∧ Text.splitOn '\n' (wrapWords 5 text) = lines ∧
      lines.flatMap wordsOf = wordsOf text ∧
      (∀ line ∈ lines, Text.byteLength line ≤ 5 ∨ ' ' ∉ line) ∧
      lines.IsChain fun line next =>
        5 < Text.byteLength line + 1 + Text.byteLength (leadingWord next) := by
  intro text lines
  have htext : '\n' ∉ text := by decide +kernel
  have hlines : Text.splitOn '\n' (wrapWords 5 text) = lines := by decide +kernel
  have hwrapped := wrapWords_lossless_bounded_greedy 5 htext
  rw [hlines] at hwrapped
  exact ⟨htext, hlines, hwrapped⟩

-- At width zero every word has a line of its own, and the spaces at the end leave an empty line.
example : wrapWords 0 "  a   b  " = "a\nb\n" := by
  decide +kernel

end Offside
