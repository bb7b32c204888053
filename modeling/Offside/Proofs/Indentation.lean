import Mathlib
import Offside.Indent

/-!
# Laws of indentation

Levels that are written in front of a line add up with the levels that the line has already, however
these are spelled: the columns of the two parts are added, and those of whole levels fill whole
units.  The unit of no spaces is the one exception, since its levels cannot be seen in a text.

The levels in front of a line are white space, so what a line says does not depend on them.

**Words.**  A depth is counted in a machine word, which holds the columns modulo `Text.wordLimit`
(`wordColumns_eq`).  So it is the exact depth where the columns fit in a word
(`wordDepth_eq_depth`), which is what the laws of this file are about.
-/

namespace Offside

lemma isBlank_of_isIndent {c : Char} (h : isIndent c = true) : Text.isBlank c = true := by
  simp only [isIndent, Bool.or_eq_true, beq_iff_eq] at h
  rcases h with rfl | rfl <;> rfl

lemma isBlankText_append (s t : Text) :
    Text.isBlankText (s ++ t) = (Text.isBlankText s && Text.isBlankText t) :=
  List.all_append

lemma exists_of_not_isBlankText {t : Text} (h : Text.isBlankText t = false) :
    ∃ c ∈ t, Text.isBlank c = false := by
  simpa [Text.isBlankText] using h

namespace IndentUnit

variable (unit : IndentUnit)

lemma columns_pos : 0 < unit.columns := by
  cases unit with
  | tab => exact Nat.succ_pos 3
  | spaces count => exact Nat.lt_of_lt_of_le Nat.zero_lt_one (le_max_right count 1)

lemma isIndent_of_mem_repeated {unit : IndentUnit} {levels : Nat} {c : Char}
    (h : c ∈ unit.repeated levels) : isIndent c = true := by
  cases unit with
  | tab =>
      rw [List.eq_of_mem_replicate h]
      rfl
  | spaces count =>
      rw [List.eq_of_mem_replicate h]
      rfl

lemma isBlank_of_mem_repeated {levels : Nat} {c : Char} (h : c ∈ unit.repeated levels) :
    Text.isBlank c = true :=
  isBlank_of_isIndent (isIndent_of_mem_repeated h)

@[simp] lemma repeated_zero : unit.repeated 0 = [] := by
  cases unit <;> rfl

lemma repeated_add (first second : Nat) :
    unit.repeated (first + second) = unit.repeated first ++ unit.repeated second := by
  cases unit with
  | tab => exact List.replicate_add first second '\t'
  | spaces count =>
      rw [repeated, Nat.mul_add]
      exact List.replicate_add (count * first) (count * second) ' '

@[simp] lemma isBlankText_repeated_append (levels : Nat) (line : Text) :
    Text.isBlankText (unit.repeated levels ++ line) = Text.isBlankText line := by
  have hpad : Text.isBlankText (unit.repeated levels) = true :=
    List.all_eq_true.2 fun _ hc => unit.isBlank_of_mem_repeated hc
  rw [isBlankText_append, hpad, Bool.true_and]

@[simp] lemma trimStart_repeated_append (levels : Nat) (line : Text) :
    Text.trimStart (unit.repeated levels ++ line) = Text.trimStart line :=
  List.dropWhile_append_of_pos fun _ hc => unit.isBlank_of_mem_repeated hc

/-! ## Columns -/

lemma leadingColumns_cons {c : Char} (hc : isIndent c = true) (line : Text) :
    unit.leadingColumns (c :: line) = unit.width c + unit.leadingColumns line := by
  simp [leadingColumns, hc]

lemma leadingColumns_of_head? {line : Text} (h : ∀ c ∈ line.head?, isIndent c = false) :
    unit.leadingColumns line = 0 := by
  cases line with
  | nil => rfl
  | cons c cs => simp [leadingColumns, h c rfl]

lemma leadingColumns_append {pad : Text} (hpad : ∀ c ∈ pad, isIndent c = true) (line : Text) :
    unit.leadingColumns (pad ++ line) = unit.leadingColumns pad + unit.leadingColumns line := by
  induction pad with
  | nil => exact (Nat.zero_add _).symm
  | cons c pad ih =>
      have hc := hpad c List.mem_cons_self
      have hrest := ih fun d hd => hpad d (List.mem_cons_of_mem c hd)
      rw [List.cons_append, leadingColumns_cons unit hc, leadingColumns_cons unit hc, hrest,
        Nat.add_assoc]

lemma leadingColumns_replicate {c : Char} (hc : isIndent c = true) (count : Nat) :
    unit.leadingColumns (List.replicate count c) = count * unit.width c := by
  induction count with
  | zero => simp [leadingColumns]
  | succ count ih =>
      rw [List.replicate_succ, leadingColumns_cons unit hc, ih, Nat.succ_mul, Nat.add_comm]

/-- Whole levels fill whole units. -/
lemma leadingColumns_repeated {unit : IndentUnit} (hunit : unit ≠ .spaces 0) (levels : Nat) :
    unit.leadingColumns (unit.repeated levels) = levels * unit.columns := by
  cases unit with
  | tab => exact leadingColumns_replicate tab rfl levels
  | spaces count =>
      have hcount : max count 1 = count := by
        refine max_eq_left (Nat.one_le_iff_ne_zero.2 fun hzero => hunit ?_)
        rw [hzero]
      rw [repeated, leadingColumns_replicate _ rfl, columns, hcount]
      exact (Nat.mul_one _).trans (Nat.mul_comm _ _)

/-- **Levels add up.**  A line that is written some levels deeper is that much deeper. -/
lemma depth_repeated_append {unit : IndentUnit} (hunit : unit ≠ .spaces 0) (levels : Nat)
    (line : Text) : unit.depth (unit.repeated levels ++ line) = levels + unit.depth line := by
  have hpos := unit.columns_pos
  have hsum : levels * unit.columns + unit.leadingColumns line + unit.columns - 1
      = unit.leadingColumns line + unit.columns - 1 + unit.columns * levels := by
    rw [Nat.mul_comm]
    omega
  rw [depth, leadingColumns_append unit fun _ hc => isIndent_of_mem_repeated hc,
    leadingColumns_repeated hunit, hsum, Nat.add_mul_div_left _ _ hpos, depth, Nat.add_comm]

/-- Levels in front of a line are kept where its depth is written out again, whatever the unit. -/
lemma repeated_depth_repeated_append (levels : Nat) (line : Text) :
    unit.repeated (unit.depth (unit.repeated levels ++ line))
      = unit.repeated levels ++ unit.repeated (unit.depth line) := by
  by_cases hunit : unit = .spaces 0
  · simp [hunit, repeated]
  · rw [depth_repeated_append hunit, repeated_add]

/-! ## Words -/

/-- The columns of the indentation of a line, added up in a word. -/
def wordColumns (line : Text) : Nat :=
  (line.takeWhile isIndent).foldl (fun used c => (used + unit.width c) % Text.wordLimit) 0

/-- How deep a line stands if its columns are counted in a word. -/
def wordDepth (line : Text) : Nat := (unit.wordColumns line + unit.columns - 1) / unit.columns

lemma foldl_wordColumns (used : Nat) (pad : Text) :
    pad.foldl (fun used c => (used + unit.width c) % Text.wordLimit) (used % Text.wordLimit)
      = (used + pad.foldr (fun c columns => unit.width c + columns) 0) % Text.wordLimit := by
  induction pad generalizing used with
  | nil => rfl
  | cons c pad ih =>
      rw [List.foldl_cons, List.foldr_cons, Nat.mod_add_mod, ih, Nat.add_assoc]

lemma wordColumns_eq (line : Text) :
    unit.wordColumns line = unit.leadingColumns line % Text.wordLimit := by
  have hsum := unit.foldl_wordColumns 0 (line.takeWhile isIndent)
  rwa [Nat.zero_mod, Nat.zero_add] at hsum

lemma wordDepth_eq_depth {line : Text} (h : unit.leadingColumns line < Text.wordLimit) :
    unit.wordDepth line = unit.depth line := by
  rw [wordDepth, wordColumns_eq, Nat.mod_eq_of_lt h, depth]

end IndentUnit

end Offside
