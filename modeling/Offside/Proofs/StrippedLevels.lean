import Mathlib
import Offside.Proofs.Indentation

/-!
# Taking levels off a line

Writing levels, measuring them and taking them off fit together, as long as the columns that are
counted fit in a machine word.

**Words.**  Taking levels off counts columns in words.  Where the levels and the columns of the line
fit in one, nothing is lost, and it is the same as counting exactly (`strip_eq_stripColumns`).
Where the levels do not fit, the budget is another one (`strip_past_word`).

**What is taken off.**  Indentation is taken off one character at a time as long as it fits in the
budget.  `TakenOff` says where this stops, without the recursion: what is gone is indentation that
fits, and the next character is no indentation or would not fit (`takenOff_stripColumns`).  Nothing
else stops there (`TakenOff.stripColumns_eq`).

**Depth.**  A fraction of a level counts as a whole one, so a depth is bounded by `n` exactly if the
columns fit in `n` units (`depth_le_iff`).  A tab can stand across the end of the budget.  It is
then kept whole, and what is left may be one level deeper than the levels that were not taken off
(`TakenOff.depth_le`).  This is the only way to leave a part of the budget unused: where no tab
follows a space, the budget is used up or no indentation is left (`TakenOff.usesUp`), so the depths
are exact and two strips in a row are one.
-/

namespace Offside

namespace IndentUnit

variable {unit : IndentUnit} {budget k : Nat} {line pad rest : Text}

lemma width_pos (unit : IndentUnit) (c : Char) : 0 < unit.width c := by
  unfold width
  split_ifs
  · exact unit.columns_pos
  · exact Nat.one_pos

lemma width_le_columns (unit : IndentUnit) (c : Char) : unit.width c ≤ unit.columns := by
  unfold width
  split_ifs
  · exact le_rfl
  · exact unit.columns_pos

/-! ## Depths -/

lemma depth_le_iff {n : Nat} :
    unit.depth line ≤ n ↔ unit.leadingColumns line ≤ n * unit.columns := by
  have hpos := unit.columns_pos
  rw [depth, ← Nat.lt_succ_iff, Nat.div_lt_iff_lt_mul hpos, Nat.succ_mul]
  omega

lemma depth_of_head? (unit : IndentUnit) (h : ∀ c ∈ line.head?, isIndent c = false) :
    unit.depth line = 0 := by
  refine Nat.le_zero.1 (depth_le_iff.2 ?_)
  rw [leadingColumns_of_head? unit h]
  exact Nat.zero_le _

/-- Indentation within `k` levels in front of a line makes it at most `k` levels deeper. -/
lemma depth_append_le (hpad : ∀ c ∈ pad, isIndent c = true)
    (hcolumns : unit.leadingColumns pad ≤ k * unit.columns) :
    unit.depth (pad ++ rest) ≤ k + unit.depth rest := by
  have hrest : unit.leadingColumns rest ≤ unit.depth rest * unit.columns := depth_le_iff.1 le_rfl
  rw [depth_le_iff, leadingColumns_append unit hpad, Nat.add_mul]
  omega

/-- Indentation of at least `k` levels in front of a line makes it at least `k` levels deeper. -/
lemma add_depth_le (hpad : ∀ c ∈ pad, isIndent c = true)
    (hcolumns : k * unit.columns ≤ unit.leadingColumns pad) (rest : Text) :
    k + unit.depth rest ≤ unit.depth (pad ++ rest) := by
  have hline : unit.leadingColumns (pad ++ rest) ≤ unit.depth (pad ++ rest) * unit.columns :=
    depth_le_iff.1 le_rfl
  rw [leadingColumns_append unit hpad] at hline
  have hk : k ≤ unit.depth (pad ++ rest) := by
    refine Nat.le_of_mul_le_mul_right ?_ unit.columns_pos
    omega
  obtain ⟨left, hleft⟩ := Nat.exists_eq_add_of_le hk
  rw [hleft, Nat.add_mul] at hline
  rw [hleft]
  refine Nat.add_le_add_left (depth_le_iff.2 ?_) k
  omega

/-! ## What is taken off -/

/-- Take indentation off a line as long as it fits in `budget` columns, counted exactly. -/
def stripColumns (unit : IndentUnit) : Nat → Text → Text
  | _, [] => []
  | budget, c :: cs =>
    if isIndent c && unit.width c ≤ budget then unit.stripColumns (budget - unit.width c) cs
    else c :: cs

lemma stripFrom_eq_stripColumns {used : Nat} (hused : used ≤ budget)
    (hfits : used + unit.leadingColumns line < Text.wordLimit) :
    unit.stripFrom budget used line = unit.stripColumns (budget - used) line := by
  induction line generalizing used with
  | nil => rfl
  | cons c cs ih =>
      rw [stripFrom, stripColumns]
      by_cases hc : isIndent c = true
      · rw [leadingColumns_cons unit hc] at hfits
        have hnext : (used + unit.width c) % Text.wordLimit = used + unit.width c :=
          Nat.mod_eq_of_lt (by omega)
        simp only [hc, hnext, Bool.true_and, decide_eq_true_eq]
        by_cases hwidth : used + unit.width c ≤ budget
        · rw [if_pos hwidth, if_pos (by omega), ih hwidth (by omega), Nat.sub_add_eq]
        · rw [if_neg hwidth, if_neg (by omega)]
      · simp [hc]

/-- Counting in words is counting exactly where nothing is too large for a word. -/
lemma strip_eq_stripColumns {levels : Nat} (hlevels : levels * unit.columns < Text.wordLimit)
    (hline : unit.leadingColumns line < Text.wordLimit) :
    unit.strip levels line = unit.stripColumns (levels * unit.columns) line := by
  rw [strip, Nat.mod_eq_of_lt hlevels, stripFrom_eq_stripColumns (Nat.zero_le _) (by omega),
    Nat.sub_zero]

/-- The indentation `pad` fits in the budget, and nothing more of the line does. -/
structure TakenOff (unit : IndentUnit) (budget : Nat) (pad rest : Text) : Prop where
  indent : ∀ c ∈ pad, isIndent c = true
  fits : unit.leadingColumns pad ≤ budget
  stops : ∀ c ∈ rest.head?, isIndent c = true → budget < unit.leadingColumns pad + unit.width c

/-- Nothing of the budget is left over, or there is no more indentation to take off. -/
def UsesUp (unit : IndentUnit) (budget : Nat) (pad rest : Text) : Prop :=
  unit.leadingColumns pad = budget ∨ ∀ c ∈ rest.head?, isIndent c = false

lemma TakenOff.stripColumns_eq (h : TakenOff unit budget pad rest) :
    unit.stripColumns budget (pad ++ rest) = rest := by
  induction pad generalizing budget with
  | nil =>
      cases rest with
      | nil => rfl
      | cons c cs =>
          have hstop := h.stops c rfl
          rw [List.nil_append, stripColumns, if_neg]
          simp only [Bool.and_eq_true, decide_eq_true_eq, not_and, not_le]
          intro hc
          simpa [leadingColumns] using hstop hc
  | cons c pad ih =>
      have hc : isIndent c = true := h.indent c List.mem_cons_self
      have hfits := h.fits
      rw [leadingColumns_cons unit hc] at hfits
      rw [List.cons_append, stripColumns, if_pos]
      · refine ih ⟨fun d hd => h.indent d (List.mem_cons_of_mem c hd), by omega, ?_⟩
        intro d hd hindent
        have hstop := h.stops d hd hindent
        rw [leadingColumns_cons unit hc] at hstop
        omega
      · simp only [hc, Bool.true_and, decide_eq_true_eq]
        omega

lemma takenOff_stripColumns (unit : IndentUnit) (budget : Nat) (line : Text) :
    ∃ pad, line = pad ++ unit.stripColumns budget line ∧
      TakenOff unit budget pad (unit.stripColumns budget line) := by
  induction line generalizing budget with
  | nil => exact ⟨[], rfl, by simp, Nat.zero_le _, by simp [stripColumns]⟩
  | cons c cs ih =>
      by_cases hc : (isIndent c && unit.width c ≤ budget) = true
      · obtain ⟨pad, hcs, hpad⟩ := ih (budget - unit.width c)
        rw [stripColumns, if_pos hc]
        simp only [Bool.and_eq_true, decide_eq_true_eq] at hc
        refine ⟨c :: pad, congrArg (c :: ·) hcs, ?_, ?_, ?_⟩
        · intro d hd
          rcases List.mem_cons.1 hd with rfl | hd
          · exact hc.1
          · exact hpad.indent d hd
        · have hfits := hpad.fits
          rw [leadingColumns_cons unit hc.1]
          omega
        · intro d hd hindent
          have hstop := hpad.stops d hd hindent
          rw [leadingColumns_cons unit hc.1]
          omega
      · rw [stripColumns, if_neg hc]
        refine ⟨[], rfl, by simp, Nat.zero_le _, ?_⟩
        intro d hd hindent
        obtain rfl : c = d := by simpa using hd
        simpa [hindent, leadingColumns] using hc

lemma takenOff_strip {levels : Nat} (hlevels : levels * unit.columns < Text.wordLimit)
    (hline : unit.leadingColumns line < Text.wordLimit) :
    ∃ pad, line = pad ++ unit.strip levels line ∧
      TakenOff unit (levels * unit.columns) pad (unit.strip levels line) := by
  rw [strip_eq_stripColumns hlevels hline]
  exact unit.takenOff_stripColumns _ line

lemma TakenOff.strip_eq {levels : Nat} (h : TakenOff unit (levels * unit.columns) pad rest)
    (hlevels : levels * unit.columns < Text.wordLimit)
    (hline : unit.leadingColumns (pad ++ rest) < Text.wordLimit) :
    unit.strip levels (pad ++ rest) = rest := by
  rw [strip_eq_stripColumns hlevels hline, h.stripColumns_eq]

lemma takenOff_repeated (hunit : unit ≠ .spaces 0) (levels : Nat) (line : Text) :
    TakenOff unit (levels * unit.columns) (unit.repeated levels) line where
  indent _ hc := isIndent_of_mem_repeated hc
  fits := (leadingColumns_repeated hunit levels).le
  stops c _ _ := by
    rw [leadingColumns_repeated hunit]
    exact Nat.lt_add_of_pos_right (unit.width_pos c)

/-! ## How deep the rest is -/

namespace TakenOff

lemma depth_append_le (h : TakenOff unit (k * unit.columns) pad rest) :
    unit.depth (pad ++ rest) ≤ k + unit.depth rest :=
  IndentUnit.depth_append_le h.indent h.fits

/-- Less than a level of the budget is left over, unless all indentation is gone. -/
lemma depth_le (h : TakenOff unit (k * unit.columns) pad rest) :
    unit.depth rest ≤ unit.depth (pad ++ rest) - k + 1 := by
  by_cases hhead : ∀ c ∈ rest.head?, isIndent c = false
  · rw [depth_of_head? unit hhead]
    exact Nat.zero_le _
  · push Not at hhead
    obtain ⟨c, hc, hindent⟩ := hhead
    have hstop := h.stops c hc (by simpa using hindent)
    have hwidth := unit.width_le_columns c
    have hused : (k - 1) * unit.columns ≤ unit.leadingColumns pad := by
      rw [Nat.sub_mul, Nat.one_mul]
      omega
    have hdeeper := add_depth_le h.indent hused rest
    omega

lemma depth_eq (h : TakenOff unit (k * unit.columns) pad rest)
    (hused : UsesUp unit (k * unit.columns) pad rest) :
    unit.depth rest = unit.depth (pad ++ rest) - k := by
  have hle := h.depth_append_le
  rcases hused with hused | hhead
  · have hge := add_depth_le h.indent hused.ge rest
    omega
  · have hnone := depth_of_head? unit hhead
    omega

end TakenOff

/-! ## Tabs before spaces -/

/-- No tab follows a space in the indentation of a line. -/
def TabsFirst (line : Text) : Prop :=
  (line.takeWhile isIndent).Pairwise fun first later => first = ' ' → later ≠ '\t'

instance (line : Text) : Decidable (TabsFirst line) := by
  unfold TabsFirst
  infer_instance

lemma TabsFirst.ne_tab (hpad : ∀ c ∈ pad, isIndent c = true)
    (h : TabsFirst (pad ++ rest)) :
    ∀ c ∈ pad, ∀ d ∈ rest.head?, isIndent d = true → c = ' ' → d ≠ '\t' := by
  rw [TabsFirst, List.takeWhile_append_of_pos hpad, List.pairwise_append] at h
  intro c hc d hd hindent
  refine h.2.2 c hc d ?_
  cases rest with
  | nil => simp at hd
  | cons e rest =>
      obtain rfl : e = d := by simpa using hd
      simp [hindent]

lemma eq_replicate_tab (hpad : ∀ c ∈ pad, isIndent c = true) (hspace : ' ' ∉ pad) :
    pad = List.replicate pad.length '\t' := by
  refine List.eq_replicate_iff.2 ⟨rfl, fun c hc => ?_⟩
  have hindent := hpad c hc
  simp only [isIndent, Bool.or_eq_true, beq_iff_eq] at hindent
  rcases hindent with rfl | rfl
  · exact absurd hc hspace
  · rfl

/-- Where no tab follows a space, a budget of whole levels is used up. -/
lemma TakenOff.usesUp (h : TakenOff unit (k * unit.columns) pad rest)
    (htabs : TabsFirst (pad ++ rest)) : UsesUp unit (k * unit.columns) pad rest := by
  by_cases hhead : ∀ c ∈ rest.head?, isIndent c = false
  · exact .inr hhead
  · left
    push Not at hhead
    obtain ⟨c, hc, hindent⟩ := hhead
    replace hindent : isIndent c = true := by simpa using hindent
    have hfits := h.fits
    have hstop := h.stops c hc hindent
    by_cases htab : c = '\t'
    · -- Only tabs are before a tab, so the columns of both sides are multiples of a unit.
      have hspace : ' ' ∉ pad := fun hmem =>
        htabs.ne_tab h.indent ' ' hmem c hc hindent rfl htab
      have hcolumns : unit.leadingColumns pad = pad.length * unit.columns := by
        rw [eq_replicate_tab h.indent hspace, leadingColumns_replicate unit rfl]
        simp [width]
      have hwidth : unit.width c = unit.columns := if_pos htab
      rw [hcolumns, hwidth, ← Nat.succ_mul] at hstop
      rw [hcolumns] at hfits ⊢
      have hlt := Nat.lt_of_mul_lt_mul_right hstop
      have hle := Nat.le_of_mul_le_mul_right hfits unit.columns_pos
      rw [show pad.length = k by omega]
    · have hwidth : unit.width c = 1 := if_neg htab
      omega

/-- Where a first strip leaves nothing of its budget, a second one goes on where it stopped. -/
lemma strip_strip_of_usesUp {m : Nat} (h : TakenOff unit (k * unit.columns) pad rest)
    (hused : UsesUp unit (k * unit.columns) pad rest)
    (hlevels : (k + m) * unit.columns < Text.wordLimit)
    (hline : unit.leadingColumns (pad ++ rest) < Text.wordLimit) :
    unit.strip (k + m) (pad ++ rest) = unit.strip m rest := by
  have hsplit := leadingColumns_append unit h.indent rest
  have hsum := Nat.add_mul k m unit.columns
  obtain ⟨more, hrest, hmore⟩ : ∃ more, rest = more ++ unit.strip m rest ∧
      TakenOff unit (m * unit.columns) more (unit.strip m rest) :=
    takenOff_strip (by omega) (by omega)
  have hboth : TakenOff unit ((k + m) * unit.columns) (pad ++ more) (unit.strip m rest) := by
    have hcolumns := leadingColumns_append unit h.indent more
    have hfits := h.fits
    have hfits' := hmore.fits
    refine ⟨?_, by rw [hcolumns, Nat.add_mul]; omega, ?_⟩
    · intro c hc
      rcases List.mem_append.1 hc with hc | hc
      · exact h.indent c hc
      · exact hmore.indent c hc
    · intro c hc hindent
      have hstop := hmore.stops c hc hindent
      rcases hused with hused | hhead
      · rw [hcolumns, Nat.add_mul, hused]
        omega
      · -- A line that is not indented has nothing to take off.
        exfalso
        cases more with
        | nil =>
            rw [List.nil_append] at hrest
            rw [← hrest] at hc
            simp [hhead c hc] at hindent
        | cons d more =>
            have hd := hhead d (by rw [hrest]; rfl)
            simp [hmore.indent d List.mem_cons_self] at hd
  have hwhole : pad ++ rest = pad ++ more ++ unit.strip m rest := by
    rw [List.append_assoc, ← hrest]
  rw [hwhole] at hline ⊢
  exact hboth.strip_eq hlevels hline

-- A tab behind a space stands across the end of the first level: it is kept, and the rest is one
-- level deeper than what was not taken off.
example : (IndentUnit.spaces 2).depth " \t x" = 2 ∧
    (IndentUnit.spaces 2).depth ((IndentUnit.spaces 2).strip 1 " \t x") = 2 := by
  decide +kernel

end IndentUnit

end Offside
