import Mathlib
import Offside.Text.Blank

/-!
# Laws of texts

What trimming, known beginnings and ends, and cutting at a character do, as far as the other files
need it.
-/

namespace Offside

/-! ## White space -/

/-- A text that neither begins nor ends with white space. -/
structure Trimmed (t : Text) : Prop where
  first : ∀ c ∈ t.head?, Text.isBlank c = false
  last : ∀ c ∈ t.getLast?, Text.isBlank c = false

lemma trimStart_eq_self {t : Text} (h : ∀ c ∈ t.head?, Text.isBlank c = false) :
    Text.trimStart t = t := by
  cases t with
  | nil => rfl
  | cons c cs =>
      have hc : Text.isBlank c = false := h c rfl
      simp [Text.trimStart, hc]

lemma trimEnd_eq_self {t : Text} (h : ∀ c ∈ t.getLast?, Text.isBlank c = false) :
    Text.trimEnd t = t := by
  have hrev : t.reverse.dropWhile Text.isBlank = t.reverse :=
    trimStart_eq_self (t := t.reverse) (by simpa using h)
  rw [Text.trimEnd, Text.dropEndWhile, hrev, List.reverse_reverse]

lemma Trimmed.trim_eq {t : Text} (h : Trimmed t) : Text.trim t = t := by
  rw [Text.trim, trimStart_eq_self h.first, trimEnd_eq_self h.last]

lemma Trimmed.trim_padded {t : Text} (h : Trimmed t) : Text.trim (' ' :: t ++ [' ']) = t := by
  have hstart : Text.trimStart (' ' :: t ++ [' ']) = if t = [] then [] else t ++ [' '] := by
    cases t with
    | nil => rfl
    | cons c cs =>
        have hc : Text.isBlank c = false := h.first c rfl
        simp [Text.trimStart, hc, show Text.isBlank ' ' = true from rfl]
  rw [Text.trim, hstart]
  split_ifs with hempty
  · rw [hempty]
    rfl
  · have hend := trimEnd_eq_self h.last
    rw [Text.trimEnd, Text.dropEndWhile] at hend ⊢
    rw [List.reverse_append, List.reverse_singleton, List.singleton_append, List.dropWhile_cons,
      if_pos (by decide), hend]

/-- The end of a trimmed text can follow any other trimmed text. -/
lemma Trimmed.append_of_append {front after start : Text} (h : Trimmed (front ++ after))
    (hstart : Trimmed start) (hne : start ≠ []) : Trimmed (start ++ after) := by
  refine ⟨fun c hc => ?_, fun c hc => ?_⟩
  · rw [List.head?_append_of_ne_nil _ hne] at hc
    exact hstart.first c hc
  · cases after with
    | nil => exact hstart.last c (by simpa using hc)
    | cons d ds =>
        have hlast := h.last c
        rw [List.getLast?_append_of_ne_nil _ (List.cons_ne_nil d ds)] at hc hlast
        exact hlast hc

lemma trim_isInfix (t : Text) : Text.trim t <:+: t := by
  have hend : Text.trim t <+: Text.trimStart t := List.rdropWhile_prefix Text.isBlank _
  exact hend.isInfix.trans (List.dropWhile_suffix _).isInfix

lemma mem_of_mem_trim {t : Text} {c : Char} (h : c ∈ Text.trim t) : c ∈ t :=
  (trim_isInfix t).subset h

lemma trimmed_trim (t : Text) : Trimmed (Text.trim t) := by
  have hfirst : ∀ s : Text, ∀ c ∈ (s.dropWhile Text.isBlank).head?, Text.isBlank c = false := by
    intro s c hc
    have hnot := List.head?_dropWhile_not Text.isBlank s
    rwa [Option.mem_def.1 hc] at hnot
  obtain ⟨blanks, hblanks⟩ : Text.trim t <+: Text.trimStart t :=
    List.rdropWhile_prefix Text.isBlank _
  refine ⟨fun c hc => hfirst t c ?_, ?_⟩
  · have hmem := List.mem_head?_append_of_mem_head? (t := blanks) hc
    rwa [hblanks] at hmem
  · rw [Text.trim, Text.trimEnd, Text.dropEndWhile, List.getLast?_reverse]
    exact hfirst _

lemma trim_ne_nil {t : Text} (h : Text.isBlankText t = false) : Text.trim t ≠ [] := by
  intro hempty
  have hstart : ∀ c ∈ Text.trimStart t, Text.isBlank c = true := List.rdropWhile_eq_nil_iff.1 hempty
  have hall : ∀ c ∈ t, Text.isBlank c = true := by
    intro c hc
    rw [← List.takeWhile_append_dropWhile (p := Text.isBlank) (l := t)] at hc
    rcases List.mem_append.1 hc with hc | hc
    · exact List.mem_takeWhile_imp hc
    · exact hstart c hc
  rw [Text.isBlankText, List.all_eq_true.2 hall] at h
  cases h

/-- Dropping from the end does not reach what stands before a character that is kept. -/
lemma dropEndWhile_append {p : Char → Bool} {front : Text}
    (hfront : ∀ c ∈ front.getLast?, p c = false) (back : Text) :
    Text.dropEndWhile p (front ++ back) = front ++ Text.dropEndWhile p back := by
  have hkept : front.reverse.dropWhile p = front.reverse := by
    rw [List.dropWhile_eq_self_iff]
    intro hlength
    have hlast := hfront front.reverse[0] (by simp [List.getLast?_eq_getElem?] at hlength ⊢)
    simpa using hlast
  rw [Text.dropEndWhile, List.reverse_append, List.dropWhile_append, hkept, Text.dropEndWhile]
  split_ifs with hnone
  · rw [List.isEmpty_iff.1 hnone, List.reverse_reverse, List.reverse_nil, List.append_nil]
  · rw [List.reverse_append, List.reverse_reverse]

/-! ## Known beginnings and ends -/

lemma eq_append_of_dropPrefix? {start t rest : Text} (h : Text.dropPrefix? start t = some rest) :
    t = start ++ rest := by
  induction start generalizing t with
  | nil => simpa [Text.dropPrefix?] using h
  | cons p ps ih =>
      cases t with
      | nil => simp [Text.dropPrefix?] at h
      | cons c cs =>
          rw [Text.dropPrefix?] at h
          split_ifs at h with hp
          rw [ih h, hp]
          rfl

lemma dropPrefix?_append (start rest : Text) :
    Text.dropPrefix? start (start ++ rest) = some rest := by
  induction start with
  | nil => rfl
  | cons c cs ih => rw [List.cons_append, Text.dropPrefix?, if_pos rfl, ih]

lemma eq_append_of_dropSuffix? {finish t rest : Text} (h : Text.dropSuffix? finish t = some rest) :
    t = rest ++ finish := by
  obtain ⟨r, hr, rfl⟩ := Option.map_eq_some_iff.1 h
  simpa using congrArg List.reverse (eq_append_of_dropPrefix? hr)

/-! ## Cutting -/

lemma splitOnce?_append {sep : Char} {t : Text} (ht : sep ∉ t) (rest : Text) :
    Text.splitOnce? sep (t ++ sep :: rest) = some (t, rest) := by
  induction t with
  | nil => simp [Text.splitOnce?]
  | cons c t ih =>
      rw [List.mem_cons, not_or] at ht
      simp [Text.splitOnce?, Ne.symm ht.1, ih ht.2]

lemma splitOn_ne_nil (sep : Char) (t : Text) : Text.splitOn sep t ≠ [] := by
  cases t with
  | nil => simp [Text.splitOn]
  | cons c cs =>
      rw [Text.splitOn]
      split_ifs
      · simp
      · split <;> simp

lemma splitOn_eq_singleton {sep : Char} {t : Text} (h : sep ∉ t) : Text.splitOn sep t = [t] := by
  induction t with
  | nil => rfl
  | cons c cs ih =>
      rw [List.mem_cons, not_or] at h
      rw [Text.splitOn, if_neg (Ne.symm h.1), ih h.2]

lemma splitOn_append_cons (sep : Char) (a b : Text) :
    Text.splitOn sep (a ++ sep :: b) = Text.splitOn sep a ++ Text.splitOn sep b := by
  induction a with
  | nil => simp [Text.splitOn]
  | cons c cs ih =>
      rw [List.cons_append, Text.splitOn, Text.splitOn, ih]
      split_ifs with hc
      · rfl
      · cases hcs : Text.splitOn sep cs with
        | nil => exact absurd hcs (splitOn_ne_nil sep cs)
        | cons piece pieces => rfl

lemma join_splitOn (sep : Char) (t : Text) : Text.join [sep] (Text.splitOn sep t) = t := by
  induction t with
  | nil => rfl
  | cons c cs ih =>
      rw [Text.splitOn]
      cases hpieces : Text.splitOn sep cs with
      | nil => exact absurd hpieces (splitOn_ne_nil sep cs)
      | cons piece pieces =>
          rw [hpieces] at ih
          split_ifs with hc
          · rw [hc, Text.join, ih]
            · rfl
            · simp
          · cases pieces with
            | nil => exact congrArg _ ih
            | cons next rest => exact congrArg (c :: ·) ih

lemma join_cons_cons (sep piece next : Text) (rest : List Text) :
    Text.join sep (piece :: next :: rest) = piece ++ sep ++ Text.join sep (next :: rest) := rfl

lemma join_append_singleton (sep : Text) {pieces : List Text} (hne : pieces ≠ []) (last : Text) :
    Text.join sep (pieces ++ [last]) = Text.join sep pieces ++ sep ++ last := by
  induction pieces with
  | nil => exact absurd rfl hne
  | cons piece pieces ih =>
      cases pieces with
      | nil => rfl
      | cons next rest =>
          have hrest := ih (by simp)
          simp only [List.cons_append] at hrest ⊢
          simp [join_cons_cons, hrest]

end Offside
