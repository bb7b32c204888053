import Mathlib
import Offside.Proofs.Includes
import Offside.Proofs.Paths

/-!
# Lines that are pushed deeper

A line with a depth override is pushed some levels deeper, and so are the lines nested under it.
This file compares how far lines are pushed with the overrides of all lines that enclose them.

**Lines.**  A line is told by its text and the override behind it (`PushLine`).  The override is
read back from the end of the line (`PushLine.Proper.depthOverride?_raw`).

**A pass.**  Only one override is in force at a time: that of the last line which has one, as long
as it encloses the lines that follow (`latest`).  A pass hands it on from line to line
(`SourceReader.pushes_forceAfter`), and pushes every line by it (`SourceReader.resolveOnce_own`).
After that no directive is left.

**Enclosing lines.**  So an override replaces those around it and is not added to them.  This makes
no difference where none is nested under a line that is pushed (`inForce_eq_enclosingLevels`), and
only there (`pushEach_inForce_iff`).  `SourceReader.lines_eq_pushEach` says so of sources.
-/

namespace Offside

/-! ## Overrides as they are written -/

/-- A depth override behind a text. -/
structure DepthSuffix where
  /-- What stands before the question mark. -/
  gap : Text
  digits : Text
  tail : Text
  deriving Repr, DecidableEq

namespace DepthSuffix

/-- The text of an override. -/
def written (s : DepthSuffix) : Text := s.gap ++ '?' :: s.digits ++ s.tail

/-- The number of levels that an override says. -/
def levels (s : DepthSuffix) : Nat := (Text.natValue? s.digits).getD 0

/-- The digits are some of `0` to `9`, with white space around the override. -/
@[mk_iff] structure Proper (s : DepthSuffix) : Prop where
  gap : Text.isBlankText s.gap = true
  digits : (Text.natValue? s.digits).isSome = true
  bound : s.levels < 2 ^ 32
  tail : Text.isBlankText s.tail = true

instance (s : DepthSuffix) : Decidable s.Proper := decidable_of_iff' _ (proper_iff s)

end DepthSuffix

/-- A text ends in a depth override, with digits of any script. -/
def EndsInSuffix (t : Text) : Prop :=
  ∃ front digits tail : Text, digits ≠ [] ∧ (∀ c ∈ digits, Text.isDigit c = true) ∧
    Text.isBlankText tail = true ∧ t = front ++ '?' :: digits ++ tail

lemma isBlank_of_isDigit {c : Char} (h : Text.isDigit c = true) : Text.isBlank c = false := by
  obtain ⟨first, hfirst, hrange⟩ := List.any_eq_true.1 h
  have hzeros : ∀ first ∈ Text.digitZeros, (0x20 < first ∧ first + 10 ≤ 0x85) ∨
      (0xa0 < first ∧ first + 10 ≤ 0x1680) ∨ (0x1680 < first ∧ first + 10 ≤ 0x2000) ∨
      0x3000 < first := by decide
  have hzero := hzeros first hfirst
  simp only [Bool.and_eq_true, decide_eq_true_eq] at hrange
  simp only [Text.isBlank, Bool.or_eq_false_iff, Bool.and_eq_false_iff, decide_eq_false_iff_not,
    beq_eq_false_iff_ne]
  omega

/-- Read from its end, a line with an override shows the digits, the mark, and the rest. -/
lemma reverse_dropWhile_suffix {digits tail : Text} (hne : digits ≠ [])
    (hdigits : ∀ c ∈ digits, Text.isDigit c = true) (htail : Text.isBlankText tail = true)
    (front : Text) :
    (front ++ '?' :: digits ++ tail).reverse.dropWhile Text.isBlank
      = digits.reverse ++ '?' :: front.reverse := by
  have hblank : ∀ c ∈ tail.reverse, Text.isBlank c = true := fun c hc =>
    List.all_eq_true.1 htail c (List.mem_reverse.1 hc)
  obtain ⟨d, ds, hds⟩ := List.exists_cons_of_ne_nil (List.reverse_ne_nil_iff.2 hne)
  have hd : Text.isBlank d = false :=
    isBlank_of_isDigit (hdigits d (List.mem_reverse.1 (hds ▸ List.mem_cons_self)))
  simp [List.dropWhile_append_of_pos hblank, hds, hd]

/-- The digits end where the mark stands. -/
lemma takeWhile_dropWhile_suffix {digits : Text} (hdigits : ∀ c ∈ digits, Text.isDigit c = true)
    (front : Text) :
    (digits.reverse ++ '?' :: front).takeWhile Text.isDigit = digits.reverse ∧
      (digits.reverse ++ '?' :: front).dropWhile Text.isDigit = '?' :: front := by
  have hall : ∀ c ∈ digits.reverse, Text.isDigit c = true := fun c hc =>
    hdigits c (List.mem_reverse.1 hc)
  have hmark : Text.isDigit '?' = false := by decide
  rw [List.takeWhile_append_of_pos hall, List.dropWhile_append_of_pos hall]
  simp [hmark]

lemma isSome_depthOverride?_iff (t : Text) :
    (depthOverride? t).isSome = true ↔ EndsInSuffix t := by
  rw [isSome_depthOverride?, endsInOverride, Bool.and_eq_true, beq_iff_eq]
  constructor
  · rintro ⟨hdigits, hmark⟩
    obtain ⟨front, hfront⟩ := List.head?_eq_some_iff.1 hmark
    refine ⟨front.reverse, ((t.reverse.dropWhile Text.isBlank).takeWhile Text.isDigit).reverse,
      (t.reverse.takeWhile Text.isBlank).reverse, by simpa using hdigits, ?_, ?_, ?_⟩
    · exact fun c hc => List.mem_takeWhile_imp (List.mem_reverse.1 hc)
    · exact List.all_eq_true.2 fun c hc => List.mem_takeWhile_imp (List.mem_reverse.1 hc)
    · have hrest : t.reverse.dropWhile Text.isBlank
          = (t.reverse.dropWhile Text.isBlank).takeWhile Text.isDigit ++ '?' :: front := by
        rw [← hfront, List.takeWhile_append_dropWhile]
      have hall : t.reverse = t.reverse.takeWhile Text.isBlank ++
          ((t.reverse.dropWhile Text.isBlank).takeWhile Text.isDigit ++ '?' :: front) := by
        rw [← hrest, List.takeWhile_append_dropWhile]
      have hwhole := congrArg List.reverse hall
      simpa using hwhole
  · rintro ⟨front, digits, tail, hne, hdigits, htail, rfl⟩
    obtain ⟨htake, hdrop⟩ := takeWhile_dropWhile_suffix hdigits front.reverse
    rw [reverse_dropWhile_suffix hne hdigits htail, htake, hdrop]
    simpa using hne

instance (t : Text) : Decidable (EndsInSuffix t) :=
  decidable_of_iff _ (isSome_depthOverride?_iff t)

lemma DepthSuffix.Proper.digits_spec {s : DepthSuffix} (h : s.Proper) :
    s.digits ≠ [] ∧ ∀ c ∈ s.digits, Text.isDigit c = true := by
  have hdigits := h.digits
  rw [Text.natValue?] at hdigits
  split_ifs at hdigits with hnone
  · cases hdigits
  · rw [Bool.not_eq_true, Bool.or_eq_false_iff, Bool.not_eq_false'] at hnone
    refine ⟨by simpa using hnone.1, fun c hc => ?_⟩
    have hc := List.all_eq_true.1 hnone.2 c hc
    simp only [Char.isDigit, Bool.and_eq_true, decide_eq_true_eq] at hc
    refine List.any_eq_true.2 ⟨0x30, List.mem_cons_self, ?_⟩
    rw [Bool.and_eq_true, decide_eq_true_eq, decide_eq_true_eq]
    exact ⟨hc.1, Nat.lt_succ_of_le hc.2⟩

/-- An override is read as it was written, and all of it is taken off. -/
lemma DepthSuffix.Proper.depthOverride?_append {s : DepthSuffix} (h : s.Proper) {t : Text}
    (ht : t.getLast?.any Text.isBlank = false) :
    depthOverride? (t ++ s.written) = some (t, s.levels) := by
  obtain ⟨hne, hdigits⟩ := h.digits_spec
  have hwritten : t ++ s.written = (t ++ s.gap) ++ '?' :: s.digits ++ s.tail := by
    simp [written]
  obtain ⟨htake, hdrop⟩ := takeWhile_dropWhile_suffix hdigits (t ++ s.gap).reverse
  obtain ⟨d, ds, hds⟩ := List.exists_cons_of_ne_nil (List.reverse_ne_nil_iff.2 hne)
  have htext : ((t ++ s.gap).reverse.dropWhile Text.isBlank).reverse = t := by
    have hgap : s.gap.reverse.dropWhile Text.isBlank = [] :=
      List.dropWhile_eq_nil_iff.2 fun c hc => List.all_eq_true.1 h.gap c (List.mem_reverse.1 hc)
    have hend := dropEndWhile_append ((Option.any_eq_false _ _).1 ht) s.gap
    rwa [Text.dropEndWhile, Text.dropEndWhile, hgap, List.reverse_nil, List.append_nil] at hend
  have hlevels : overrideLevels (d :: ds).reverse = s.levels := by
    rw [← hds, List.reverse_reverse]
    obtain ⟨n, hn⟩ := Option.isSome_iff_exists.1 h.digits
    have hbound := h.bound
    rw [levels, hn, Option.getD_some] at hbound
    have hword : n < Text.wordLimit := hbound.trans (by decide)
    simp only [overrideLevels, levels, hn, Option.getD_some, if_pos hword]
  rw [depthOverride?, hwritten, reverse_dropWhile_suffix hne hdigits h.tail,
    List.span_eq_takeWhile_dropWhile, htake, hdrop, hds]
  simp only [htext, hlevels]

/-! ## Lines -/

/-- A line of a source: a text, and the override behind it if there is one. -/
structure PushLine where
  text : Text
  suffix? : Option DepthSuffix
  deriving Repr, DecidableEq

namespace PushLine

/-- The line as it is written. -/
def raw (line : PushLine) : Text := line.text ++ (line.suffix?.map DepthSuffix.written).getD []

/-- How many levels the override of the line says, or none. -/
def levels (line : PushLine) : Nat := (line.suffix?.map DepthSuffix.levels).getD 0

/-- A line with at most one override, which includes nothing and is not continued, neither as it is
written nor without its override. -/
@[mk_iff] structure Proper (line : PushLine) : Prop where
  suffix : ∀ s ∈ line.suffix?, s.Proper ∧ line.text.getLast?.any Text.isBlank = false
  once : ¬EndsInSuffix line.text
  own : staticInclude? line.raw = none
  ended : continued? line.raw = none ∧ continued? line.text = none

instance (line : PushLine) : Decidable line.Proper := decidable_of_iff' _ (proper_iff line)

variable {line : PushLine}

lemma raw_of_none (h : line.suffix? = none) : line.raw = line.text := by
  rw [raw, h, Option.map_none, Option.getD_none, List.append_nil]

lemma levels_of_none (h : line.suffix? = none) : line.levels = 0 := by
  rw [levels, h, Option.map_none, Option.getD_none]

lemma Proper.depthOverride?_text (h : line.Proper) : depthOverride? line.text = none := by
  rw [← Option.not_isSome_iff_eq_none, isSome_depthOverride?_iff]
  exact h.once

/-- The override of a line is read as it was written. -/
lemma Proper.depthOverride?_raw (h : line.Proper) :
    depthOverride? line.raw = line.suffix?.map fun s => (line.text, s.levels) := by
  cases hsuffix : line.suffix? with
  | none => rw [raw_of_none hsuffix, h.depthOverride?_text, Option.map_none]
  | some s =>
      obtain ⟨hs, htext⟩ := h.suffix s hsuffix
      rw [raw, hsuffix, Option.map_some, Option.getD_some, hs.depthOverride?_append htext,
        Option.map_some]

lemma Proper.withoutOverride_raw (h : line.Proper) :
    SourceReader.withoutOverride line.raw = line.text := by
  rw [SourceReader.withoutOverride, h.depthOverride?_raw]
  cases hsuffix : line.suffix? with
  | none => exact raw_of_none hsuffix
  | some s => rfl

/-- A line with an override is not blank. -/
lemma suffix?_of_isBlankText (h : Text.isBlankText line.raw = true) : line.suffix? = none := by
  cases hsuffix : line.suffix? with
  | none => rfl
  | some s =>
      rw [raw, hsuffix] at h
      simp [DepthSuffix.written, Text.isBlankText, show Text.isBlank '?' = false from rfl] at h

/-- Without its override a line includes nothing either. -/
lemma Proper.staticInclude?_text (h : line.Proper) (hline : '\n' ∉ line.raw) :
    staticInclude? line.text = none := by
  rw [Option.eq_none_iff_forall_ne_some]
  intro name hname
  obtain ⟨hstart, hname⟩ := Option.filter_eq_some_iff.1 hname
  have htext := eq_append_of_dropPrefix? hstart
  have hraw : Text.trimStart line.raw
      = "!! " ++ (name ++ (line.suffix?.map DepthSuffix.written).getD []) := by
    rw [raw, Text.trimStart, List.dropWhile_append, ← Text.trimStart, htext]
    simp
  have hunbroken : '\n' ∉ name ++ (line.suffix?.map DepthSuffix.written).getD [] := by
    intro hmem
    refine hline ((List.dropWhile_sublist Text.isBlank).subset ?_)
    rw [← Text.trimStart, hraw]
    exact List.mem_append_right _ hmem
  have hempty : name = [] ∧ (line.suffix?.map DepthSuffix.written).getD [] = [] := by
    simpa [staticInclude?, hraw, Text.dropPrefix?, hunbroken] using h.own
  simp [hempty.1] at hname

/-- The line pushed by some levels, without its override. -/
def placed (unit : IndentUnit) (levels : Nat) (line : PushLine) : OriginLine :=
  ⟨if Text.isBlankText line.raw then line.raw else unit.repeated levels ++ line.text, none⟩

lemma text_placed (h : Text.isBlankText line.raw = false) (unit : IndentUnit) (levels : Nat) :
    (line.placed unit levels).text = unit.repeated levels ++ line.text := by
  rw [placed, h]
  rfl

end PushLine

/-! ## How far lines are pushed -/

section

variable (unit : IndentUnit)

/-- Every line, pushed by as many levels as it and the lines before it say.  These are given with
the nearest first. -/
def pushEach (amount : List PushLine → PushLine → Nat) :
    List PushLine → List PushLine → List OriginLine
  | _, [] => []
  | before, line :: rest =>
    line.placed unit (amount before line) :: pushEach amount (line :: before) rest

/-- The lines that enclose a line of a depth: the nearest line before it that is less deep, and the
lines that enclose that one. -/
def enclosing : Nat → List PushLine → List PushLine
  | _, [] => []
  | depth, line :: before =>
    if Text.isBlankText line.raw then enclosing depth before
    else if unit.depth line.raw < depth then line :: enclosing (unit.depth line.raw) before
    else enclosing depth before

/-- The levels of a line and of all lines that enclose it. -/
def enclosingLevels (before : List PushLine) (line : PushLine) : Nat :=
  line.levels + ((enclosing unit (unit.depth line.raw) before).map PushLine.levels).sum

/-- The levels of the last line before that has an override, if it encloses a line of a depth. -/
def latest : Nat → List PushLine → Nat
  | _, [] => 0
  | depth, line :: before =>
    if Text.isBlankText line.raw then latest depth before
    else if line.suffix?.isSome then if unit.depth line.raw < depth then line.levels else 0
    else latest (min depth (unit.depth line.raw)) before

/-- The levels of a line that has an override, or else those of the last line before that has one,
if it encloses the line. -/
def inForce (before : List PushLine) (line : PushLine) : Nat :=
  if line.suffix?.isSome then line.levels else latest unit (unit.depth line.raw) before

end

namespace SourceReader

/-- The levels that an override pushes a line of a depth. -/
def Override.pushes (force : Override) (depth : Nat) : Nat :=
  if depth ≤ force.depth then 0 else force.levels

section

variable {unit : IndentUnit} {force : Override} {before : List PushLine} {line : PushLine}

/-- A line is pushed by its own override, or else by the one that is in force. -/
lemma levels_forceAfter (hforce : ∀ depth, force.pushes depth = latest unit depth before)
    (hline : line.Proper) (hblank : Text.isBlankText line.raw = false) :
    (forceAfter unit force line.raw).levels = inForce unit before line := by
  rw [forceAfter, inForce, hblank, hline.depthOverride?_raw]
  cases hsuffix : line.suffix? with
  | none =>
      rw [← hforce, Override.pushes]
      simp only [Option.map_none, Option.isSome_none, Bool.false_eq_true, if_false]
      split_ifs <;> rfl
  | some s => simp [PushLine.levels, hsuffix]

/-- **The override that is in force** after some lines is the last one, as long as it encloses what
follows. -/
lemma pushes_forceAfter (hforce : ∀ depth, force.pushes depth = latest unit depth before)
    (hline : line.Proper) (depth : Nat) :
    (forceAfter unit force line.raw).pushes depth = latest unit depth (line :: before) := by
  rw [forceAfter, latest, hline.depthOverride?_raw]
  by_cases hblank : Text.isBlankText line.raw = true
  · rw [if_pos hblank, if_pos hblank, hforce]
  · rw [if_neg hblank, if_neg hblank]
    cases hsuffix : line.suffix? with
    | none =>
        simp only [Option.map_none, Option.isSome_none, Bool.false_eq_true, if_false]
        rw [← hforce]
        by_cases hleft : unit.depth line.raw ≤ force.depth
        · rw [if_pos hleft, Override.pushes, ite_self, Override.pushes,
            if_pos (min_le_of_right_le hleft)]
        · rw [if_neg hleft, Override.pushes, Override.pushes]
          simp only [min_le_iff, hleft, or_false]
    | some s =>
        simp only [Option.map_some, Option.isSome_some, if_true, Override.pushes, PushLine.levels,
          hsuffix, Option.getD_some]
        split_ifs <;> omega

end

variable {r : SourceReader}

/-- A line of the template itself. -/
def ownLine (line : PushLine) : OriginLine := ⟨line.raw, none⟩

/-- **A pass over lines** pushes each of them by the override that is in force. -/
lemma resolveOnce_own {force : Override} {before lines : List PushLine}
    (hforce : ∀ depth, force.pushes depth = latest r.settings.indent depth before)
    (hlines : ∀ line ∈ lines, line.Proper ∧ '\n' ∉ line.raw) :
    r.resolveOnce force (lines.map ownLine)
      = .ok (pushEach r.settings.indent (inForce r.settings.indent) before lines) := by
  induction lines generalizing force before with
  | nil => rfl
  | cons line lines ih =>
      obtain ⟨⟨hline, hunbroken⟩, hlines⟩ := List.forall_mem_cons.1 hlines
      have hplaced : r.replaceLine force (ownLine line)
          = .ok [line.placed r.settings.indent (inForce r.settings.indent before line)] := by
        rw [replaceLine, PushLine.placed]
        by_cases hblank : Text.isBlankText line.raw = true
        · simp only [ownLine, hblank, if_true]
        · rw [Bool.not_eq_true] at hblank
          simp only [ownLine, hline.withoutOverride_raw, hline.staticInclude?_text hunbroken,
            levels_forceAfter hforce hline hblank, hblank, Bool.false_eq_true, if_false]
      rw [List.map_cons, resolveOnce_cons_eq_ok_iff]
      exact ⟨_, _, hplaced, ih (pushes_forceAfter hforce hline) hlines, rfl⟩

/-! ## After a pass -/

/-- A blank text holds no directive. -/
lemma not_hasDirective_of_isBlankText {line : OriginLine}
    (h : Text.isBlankText line.text = true) :
    hasDirective line = false ∧ continued? line.text = none := by
  have hnone : line.text.reverse.dropWhile Text.isBlank = [] :=
    List.dropWhile_eq_nil_iff.2 fun c hc => List.all_eq_true.1 h c (List.mem_reverse.1 hc)
  have hinclude : staticInclude? line.text = none := by
    rw [Option.eq_none_iff_forall_ne_some]
    intro name hname
    rw [isBlankText_of_staticInclude? hname] at h
    cases h
  constructor
  · rw [hasDirective, isSome_depthOverride?, hnone, hinclude]
    rfl
  · rw [continued?_eq, hnone]
    rfl

lemma hasDirective_ownLine {line : PushLine} (h : line.Proper) :
    hasDirective (ownLine line) = line.suffix?.isSome := by
  rw [hasDirective, ownLine, h.own, h.depthOverride?_raw, Option.isSome_map, Option.isSome_none,
    Bool.or_false]

/-- No directive is left where a line was pushed. -/
lemma not_hasDirective_placed {line : PushLine} (h : line.Proper) (hunbroken : '\n' ∉ line.raw)
    (unit : IndentUnit) (levels : Nat) :
    hasDirective (line.placed unit levels) = false ∧
      continued? (line.placed unit levels).text = none := by
  by_cases hblank : Text.isBlankText (line.placed unit levels).text = true
  · exact not_hasDirective_of_isBlankText hblank
  · rw [Bool.not_eq_true] at hblank
    have hraw : Text.isBlankText line.raw = false := by
      cases hraw : Text.isBlankText line.raw with
      | false => rfl
      | true =>
          rw [PushLine.placed, hraw, if_pos rfl, hraw] at hblank
          cases hblank
    have hplaced := PushLine.text_placed hraw unit levels
    rw [hplaced, unit.isBlankText_repeated_append] at hblank
    have hput : staysPut (unit.repeated levels ++ line.text) = true := by
      rw [staysPut_repeated_append hblank, staysPut, h.ended.2, h.depthOverride?_text]
      rfl
    rw [hasDirective, hplaced, depthOverride?_of_staysPut hput, staticInclude?_repeated_append,
      h.staticInclude?_text hunbroken]
    exact ⟨rfl, continued?_of_staysPut hput⟩

lemma forall_mem_pushEach {p : OriginLine → Prop} {unit : IndentUnit}
    {amount : List PushLine → PushLine → Nat} {lines : List PushLine}
    (h : ∀ line ∈ lines, ∀ levels, p (line.placed unit levels)) (before : List PushLine) :
    ∀ line ∈ pushEach unit amount before lines, p line := by
  induction lines generalizing before with
  | nil => simp [pushEach]
  | cons line lines ih =>
      obtain ⟨hline, hlines⟩ := List.forall_mem_cons.1 h
      exact List.forall_mem_cons.2 ⟨hline _, ih hlines (line :: before)⟩

/-- Where no line has an override, all stay as they are. -/
lemma pushEach_eq_own {unit : IndentUnit} {before lines : List PushLine}
    (hbefore : ∀ line ∈ before, line.suffix? = none)
    (hlines : ∀ line ∈ lines, line.suffix? = none) :
    pushEach unit (inForce unit) before lines = lines.map ownLine := by
  have hlatest : ∀ {before : List PushLine}, (∀ line ∈ before, line.suffix? = none) →
      ∀ depth, latest unit depth before = 0 := by
    intro before hbefore
    induction before with
    | nil => exact fun _ => rfl
    | cons line before ih =>
        obtain ⟨hline, hbefore⟩ := List.forall_mem_cons.1 hbefore
        simp [latest, hline, ih hbefore]
  induction lines generalizing before with
  | nil => rfl
  | cons line lines ih =>
      obtain ⟨hline, hlines⟩ := List.forall_mem_cons.1 hlines
      have hplaced : line.placed unit (inForce unit before line) = ownLine line := by
        rw [PushLine.placed, inForce, hline, hlatest hbefore, PushLine.raw_of_none hline]
        simp [ownLine, PushLine.raw_of_none hline]
      rw [pushEach, hplaced, ih (List.forall_mem_cons.2 ⟨hline, hbefore⟩) hlines, List.map_cons]

/-- **All directives are resolved in one pass.** -/
lemma resolve_own {passes : Nat} (hpasses : 0 < passes) {lines : List PushLine}
    (hlines : ∀ line ∈ lines, line.Proper ∧ '\n' ∉ line.raw) :
    r.resolve passes (lines.map ownLine)
      = .ok (pushEach r.settings.indent (inForce r.settings.indent) [] lines) := by
  have hresolved : ∀ line ∈ pushEach r.settings.indent (inForce r.settings.indent) [] lines,
      hasDirective line = false ∧ continued? line.text = none :=
    forall_mem_pushEach (fun line hline levels =>
      not_hasDirective_placed (hlines line hline).1 (hlines line hline).2 _ levels) []
  obtain ⟨passes, rfl⟩ := Nat.exists_eq_succ_of_ne_zero hpasses.ne'
  rw [resolve]
  cases hany : (lines.map ownLine).any hasDirective with
  | false =>
      have hnone : ∀ line ∈ lines, line.suffix? = none := by
        intro line hline
        rw [List.any_map, List.any_eq_false] at hany
        simpa [hasDirective_ownLine (hlines line hline).1] using hany line hline
      rw [pushEach_eq_own (by simp) hnone]
      rfl
  | true =>
      have hpass := @resolveOnce_own r ⟨0, 0⟩ [] lines (by simp [Override.pushes, latest]) hlines
      have hjoin := joinContinuations_of_continued? fun line hline => (hresolved line hline).2
      have hdone : (pushEach r.settings.indent (inForce r.settings.indent) [] lines).any
          hasDirective = false :=
        List.any_eq_false.2 fun line hline => by simp [(hresolved line hline).1]
      have hrest : r.resolve passes
          (pushEach r.settings.indent (inForce r.settings.indent) [] lines)
            = .ok (pushEach r.settings.indent (inForce r.settings.indent) [] lines) := by
        cases passes <;>
        · rw [resolve, hdone]
          rfl
      simp [hpass, bind, Except.bind, hjoin, hrest]

end SourceReader

/-! ## Enclosing lines -/

section

variable {unit : IndentUnit}

/-- What encloses a line encloses every deeper line in its place. -/
lemma enclosing_isSuffix {depth deeper : Nat} (h : depth ≤ deeper) (before : List PushLine) :
    enclosing unit depth before <:+ enclosing unit deeper before := by
  induction before generalizing depth deeper with
  | nil => exact List.suffix_rfl
  | cons line before ih =>
      rw [enclosing, enclosing]
      by_cases hblank : Text.isBlankText line.raw = true
      · rw [if_pos hblank, if_pos hblank]
        exact ih h
      · rw [if_neg hblank, if_neg hblank]
        by_cases hless : unit.depth line.raw < depth
        · rw [if_pos hless, if_pos (hless.trans_le h)]
        · rw [if_neg hless]
          split_ifs
          · exact (ih (Nat.le_of_not_lt hless)).trans (List.suffix_cons _ _)
          · exact ih h

/-- A line encloses what follows as long as that is deeper. -/
lemma isSuffix_enclosing {o : PushLine} (ho : Text.isBlankText o.raw = false)
    {between : List PushLine} (hbetween : ∀ line ∈ between, Text.isBlankText line.raw = false →
      unit.depth o.raw < unit.depth line.raw) {depth : Nat} (hdepth : unit.depth o.raw < depth)
    (before : List PushLine) :
    o :: enclosing unit (unit.depth o.raw) before
      <:+ enclosing unit depth (between ++ o :: before) := by
  induction between generalizing depth with
  | nil =>
      rw [List.nil_append, enclosing, ho, if_neg Bool.false_ne_true, if_pos hdepth]
  | cons line between ih =>
      obtain ⟨hline, hbetween⟩ := List.forall_mem_cons.1 hbetween
      rw [List.cons_append, enclosing]
      split_ifs with hblank hless
      · exact ih hbetween hdepth
      · exact (ih hbetween (hline (Bool.not_eq_true _ ▸ hblank))).trans (List.suffix_cons _ _)
      · exact ih hbetween hdepth

/-- No line with an override is nested, as the lines are written, under a line that is pushed. -/
def OverridesApart (unit : IndentUnit) (lines : List PushLine) : Prop :=
  ∀ before line after, lines = before ++ line :: after → line.suffix?.isSome = true →
    ∀ o ∈ enclosing unit (unit.depth line.raw) before.reverse, o.levels = 0

lemma sum_levels_eq_zero {lines : List PushLine} (h : ∀ o ∈ lines, o.levels = 0) :
    (lines.map PushLine.levels).sum = 0 := by
  rw [List.sum_eq_zero_iff]
  intro levels hlevels
  obtain ⟨o, ho, rfl⟩ := List.mem_map.1 hlevels
  exact h o ho

/-- Where overrides are apart, the last one is the only one that pushes. -/
lemma latest_eq_sum {before : List PushLine}
    (h : ∀ later line earlier, before = later ++ line :: earlier → line.suffix?.isSome = true →
      ∀ o ∈ enclosing unit (unit.depth line.raw) earlier, o.levels = 0) (depth : Nat) :
    latest unit depth before = ((enclosing unit depth before).map PushLine.levels).sum := by
  induction before generalizing depth with
  | nil => rfl
  | cons line before ih =>
      have hrest := ih fun later other earlier heq =>
        h (line :: later) other earlier (by rw [heq, List.cons_append])
      rw [latest, enclosing]
      by_cases hblank : Text.isBlankText line.raw = true
      · rw [if_pos hblank, if_pos hblank, hrest]
      · rw [if_neg hblank, if_neg hblank]
        by_cases hsuffix : line.suffix?.isSome = true
        -- An override counts alone, whether or not it encloses the line that is asked for.
        · have hzero := h [] line before rfl hsuffix
          rw [if_pos hsuffix]
          split_ifs with hless
          · rw [List.map_cons, List.sum_cons, sum_levels_eq_zero hzero, Nat.add_zero]
          · refine (sum_levels_eq_zero fun o ho => hzero o ?_).symm
            exact (enclosing_isSuffix (Nat.le_of_not_lt hless) before).subset ho
        · have hlevels := PushLine.levels_of_none (Option.not_isSome_iff_eq_none.1 hsuffix)
          rw [if_neg hsuffix, hrest]
          split_ifs with hless
          · rw [List.map_cons, List.sum_cons, hlevels, Nat.zero_add, min_eq_right hless.le]
          · rw [min_eq_left (Nat.le_of_not_lt hless)]

/-- **Where overrides are apart, all that enclose a line count.** -/
lemma inForce_eq_enclosingLevels {lines before after : List PushLine} {line : PushLine}
    (h : OverridesApart unit lines) (hlines : lines = before ++ line :: after) :
    inForce unit before.reverse line = enclosingLevels unit before.reverse line := by
  rw [inForce, enclosingLevels]
  split_ifs with hsuffix
  · rw [sum_levels_eq_zero (h before line after hlines hsuffix), Nat.add_zero]
  · rw [PushLine.levels_of_none (Option.not_isSome_iff_eq_none.1 hsuffix), Nat.zero_add]
    refine latest_eq_sum (fun later other earlier hother hsome => ?_) _
    have hbefore : before = earlier.reverse ++ other :: later.reverse := by
      have hreverse := congrArg List.reverse hother
      simpa using hreverse
    have hzero := h earlier.reverse other (later.reverse ++ line :: after)
      (by rw [hlines, hbefore, List.append_assoc, List.cons_append]) hsome
    rwa [List.reverse_reverse] at hzero

lemma pushEach_eq_iff {first second : List PushLine → PushLine → Nat}
    {before lines : List PushLine} :
    pushEach unit first before lines = pushEach unit second before lines ↔
      ∀ earlier line later, lines = earlier ++ line :: later →
        line.placed unit (first (earlier.reverse ++ before) line)
          = line.placed unit (second (earlier.reverse ++ before) line) := by
  induction lines generalizing before with
  | nil => simp [pushEach]
  | cons line lines ih =>
      rw [pushEach, pushEach, List.cons.injEq, ih]
      constructor
      · rintro ⟨hline, hlines⟩ earlier other later heq
        cases earlier with
        | nil =>
            cases heq
            exact hline
        | cons next earlier =>
            cases heq
            simpa using hlines earlier other later rfl
      · intro h
        refine ⟨h [] line lines rfl, fun earlier other later heq => ?_⟩
        simpa using h (line :: earlier) other later (by rw [heq, List.cons_append])

lemma repeated_injective (hunit : unit ≠ .spaces 0) {first second : Nat}
    (h : unit.repeated first = unit.repeated second) : first = second := by
  have hcolumns := congrArg unit.leadingColumns h
  rw [IndentUnit.leadingColumns_repeated hunit, IndentUnit.leadingColumns_repeated hunit]
    at hcolumns
  exact Nat.eq_of_mul_eq_mul_right unit.columns_pos hcolumns

/-- Levels can be seen in a line that is not blank, unless the unit is empty. -/
lemma placed_eq_placed_iff (hunit : unit ≠ .spaces 0) {line : PushLine}
    (hline : Text.isBlankText line.raw = false) {first second : Nat} :
    line.placed unit first = line.placed unit second ↔ first = second := by
  refine ⟨fun h => repeated_injective hunit ?_, fun h => by rw [h]⟩
  have htext := congrArg OriginLine.text h
  rwa [PushLine.text_placed hline, PushLine.text_placed hline, List.append_left_inj] at htext

/-- Every line is pushed by what encloses it only if overrides are apart. -/
lemma pushEach_inForce_iff (lines : List PushLine) :
    pushEach unit (inForce unit) [] lines = pushEach unit (enclosingLevels unit) [] lines ↔
      unit = .spaces 0 ∨ OverridesApart unit lines := by
  rw [pushEach_eq_iff]
  constructor
  · intro h
    by_cases hunit : unit = .spaces 0
    · exact .inl hunit
    · refine .inr fun before line after hlines hsuffix => ?_
      have hvisible : Text.isBlankText line.raw = false := by
        rw [← Bool.not_eq_true]
        intro hblank
        rw [PushLine.suffix?_of_isBlankText hblank] at hsuffix
        cases hsuffix
      have hlevels := (placed_eq_placed_iff hunit hvisible).1 (h before line after hlines)
      rw [inForce, if_pos hsuffix, enclosingLevels, List.append_nil] at hlevels
      intro o ho
      have hzero := List.sum_eq_zero_iff.1 (Nat.left_eq_add.1 hlevels)
      exact hzero _ (List.mem_map_of_mem ho)
  · rintro (rfl | h) before line after hlines
    · simp [PushLine.placed, IndentUnit.repeated]
    · rw [List.append_nil, inForce_eq_enclosingLevels h hlines]

/-! ## Nesting -/

/-- Lines that are nested under a line, as they are written, are still deeper than it. -/
def StaysNested (unit : IndentUnit) (lines : List PushLine) : Prop :=
  ∀ before o between line after, lines = before ++ o :: (between ++ line :: after) →
    Text.isBlankText o.raw = false → Text.isBlankText line.text = false →
    (∀ other ∈ between ++ [line], Text.isBlankText other.raw = false →
      unit.depth o.raw < unit.depth other.raw) →
    unit.depth (o.placed unit (inForce unit before.reverse o)).text
      < unit.depth (line.placed unit
          (inForce unit (between.reverse ++ o :: before.reverse) line)).text

lemma leadingColumns_le_append (t rest : Text) :
    unit.leadingColumns t ≤ unit.leadingColumns (t ++ rest) := by
  induction t with
  | nil => exact Nat.zero_le _
  | cons c t ih =>
      simp only [IndentUnit.leadingColumns, List.cons_append, List.takeWhile_cons] at ih ⊢
      split_ifs
      · exact Nat.add_le_add_left ih _
      · exact Nat.le_refl _

lemma leadingColumns_append_of_visible {t : Text} (h : Text.isBlankText t = false) (rest : Text) :
    unit.leadingColumns (t ++ rest) = unit.leadingColumns t := by
  induction t with
  | nil => cases h
  | cons c t ih =>
      simp only [IndentUnit.leadingColumns, List.cons_append, List.takeWhile_cons] at ih ⊢
      split_ifs with hc
      · rw [Text.isBlankText, List.all_cons, isBlank_of_isIndent hc, Bool.true_and] at h
        rw [List.foldr_cons, List.foldr_cons, ih h]
      · rfl

/-- An override at the end of a line is not part of its indentation. -/
lemma PushLine.depth_text_le (line : PushLine) : unit.depth line.text ≤ unit.depth line.raw := by
  have hcolumns := @leadingColumns_le_append unit line.text
    ((line.suffix?.map DepthSuffix.written).getD [])
  exact Nat.div_le_div_right (by rw [PushLine.raw]; omega)

lemma PushLine.depth_text {line : PushLine} (h : Text.isBlankText line.text = false) :
    unit.depth line.text = unit.depth line.raw := by
  rw [IndentUnit.depth, IndentUnit.depth, PushLine.raw, leadingColumns_append_of_visible h]

/-- Where overrides are apart, what is nested stays nested. -/
lemma OverridesApart.staysNested {lines : List PushLine} (h : OverridesApart unit lines) :
    StaysNested unit lines := by
  intro before o between line after hlines ho hline hbetween
  have hraw : Text.isBlankText line.raw = false := by
    rw [PushLine.raw, isBlankText_append, hline, Bool.false_and]
  have hdeeper := hbetween line (by simp) hraw
  have houter := inForce_eq_enclosingLevels h hlines
  have hsplit : lines = (before ++ o :: between) ++ line :: after := by simp [hlines]
  have hinner := inForce_eq_enclosingLevels h hsplit
  rw [List.reverse_append, List.reverse_cons, List.append_assoc, List.singleton_append] at hinner
  rw [PushLine.text_placed ho, PushLine.text_placed hraw, houter, hinner]
  have hlevels : enclosingLevels unit before.reverse o
      ≤ enclosingLevels unit (between.reverse ++ o :: before.reverse) line := by
    have hreverse : ∀ other ∈ between.reverse, Text.isBlankText other.raw = false →
        unit.depth o.raw < unit.depth other.raw := fun other hother =>
      hbetween other (List.mem_append_left _ (List.mem_reverse.1 hother))
    obtain ⟨nearer, hnearer⟩ := isSuffix_enclosing ho hreverse hdeeper before.reverse
    rw [enclosingLevels, enclosingLevels, ← hnearer, List.map_append, List.sum_append,
      List.map_cons, List.sum_cons]
    omega
  by_cases hunit : unit = .spaces 0
  · have hnone : ∀ levels, unit.repeated levels = [] := fun levels => by
      simp [hunit, IndentUnit.repeated]
    rw [hnone, hnone, List.nil_append, List.nil_append, PushLine.depth_text hline]
    exact o.depth_text_le.trans_lt hdeeper
  · rw [IndentUnit.depth_repeated_append hunit, IndentUnit.depth_repeated_append hunit,
      PushLine.depth_text hline]
    exact Nat.add_lt_add_of_le_of_lt hlevels (o.depth_text_le.trans_lt hdeeper)

lemma length_pushEach (amount : List PushLine → PushLine → Nat) (before lines : List PushLine) :
    (pushEach unit amount before lines).length = lines.length := by
  induction lines generalizing before with
  | nil => rfl
  | cons line lines ih => rw [pushEach, List.length_cons, ih, List.length_cons]

end

namespace SourceReader

lemma notMem_of_mem_rawLines {source line : Text} (h : line ∈ rawLines source) : '\n' ∉ line := by
  obtain ⟨piece, hpiece, rfl⟩ := List.mem_map.1 h
  exact fun hmem => notMem_of_mem_splitOn hpiece ((List.rdropWhile_prefix _ _).subset hmem)

/-- **Overrides push what they enclose, and each replaces those around it.**  Take a source whose
lines include nothing, are not continued and have at most one override each.  In one pass it is
resolved to as many lines as it has.  Blank lines stay as they are, and every other line is pushed
by its own override, or by the last one before it if that encloses it, and loses its override.  So
every line is pushed by its own override together with those of all lines that enclose it exactly if
no line with an override is nested under a line that is pushed, or if levels are written as nothing.
If there is no such line, what is nested under a line stays nested under it. -/
theorem lines_eq_pushEach (r : SourceReader) (hpasses : 0 < r.settings.maxPasses) {source : Text}
    {lines : List PushLine} (hsource : rawLines source = lines.map PushLine.raw)
    (hlines : ∀ line ∈ lines, line.Proper) :
    r.lines source
      = .ok (pushEach r.settings.indent (inForce r.settings.indent) [] lines) ∧
    (pushEach r.settings.indent (inForce r.settings.indent) [] lines).length
      = (rawLines source).length ∧
    (r.lines source
        = .ok (pushEach r.settings.indent (enclosingLevels r.settings.indent) [] lines) ↔
      r.settings.indent = .spaces 0 ∨ OverridesApart r.settings.indent lines) ∧
    (OverridesApart r.settings.indent lines → StaysNested r.settings.indent lines) := by
  have hunbroken : ∀ line ∈ lines, line.Proper ∧ '\n' ∉ line.raw := fun line hline =>
    ⟨hlines line hline,
      notMem_of_mem_rawLines (hsource ▸ List.mem_map_of_mem hline)⟩
  have hown : (rawLines source).map (fun text => (⟨text, none⟩ : OriginLine))
      = lines.map ownLine := by
    rw [hsource, List.map_map]
    rfl
  have hjoin : joinContinuations (lines.map ownLine) = lines.map ownLine := by
    refine joinContinuations_of_continued? fun line hline => ?_
    obtain ⟨pushed, hpushed, rfl⟩ := List.mem_map.1 hline
    exact (hlines pushed hpushed).ended.1
  have hresolved : r.lines source
      = .ok (pushEach r.settings.indent (inForce r.settings.indent) [] lines) := by
    rw [SourceReader.lines, hown, hjoin, resolve_own hpasses hunbroken]
  refine ⟨hresolved, ?_, ?_, OverridesApart.staysNested⟩
  · rw [length_pushEach, hsource, List.length_map]
  · rw [hresolved, Except.ok.injEq, pushEach_inForce_iff]

/-- Overrides of every spelling, none of them under a line that is pushed. -/
def apartLines : List PushLine :=
  [⟨"%ul".toList, some ⟨" ".toList, "0".toList, []⟩⟩,
    ⟨"\t%li".toList, some ⟨[], "3".toList, " ".toList⟩⟩, ⟨"\t\tx".toList, none⟩, ⟨[], none⟩,
    ⟨"\t\t\ty ?".toList, none⟩, ⟨"\t%li z".toList, none⟩,
    ⟨"%p".toList, some ⟨"\t".toList, "007".toList, []⟩⟩, ⟨"  %i".toList, none⟩]

/-- An override under a line that is pushed, and a line after it. -/
def crossedLines : List PushLine :=
  [⟨"%div".toList, some ⟨" ".toList, "2".toList, []⟩⟩,
    ⟨"\t%p a".toList, some ⟨" ".toList, "1".toList, []⟩⟩, ⟨"\t%b x".toList, none⟩]

theorem lines_eq_pushEach_apartLines :
    let r := ofFiles .standard []
    let apart := "%ul ?0\n\t%li?3 \n\t\tx\n\n\t\t\ty ?\n\t%li z\r\n%p\t?007\n  %i".toList
    let crossed := "%div ?2\n\t%p a ?1\n\t%b x".toList
    (rawLines apart = apartLines.map PushLine.raw ∧ (∀ line ∈ apartLines, line.Proper) ∧
      r.lines apart = .ok (["%ul", "\t\t\t\t%li", "\t\t\t\t\tx", "", "\t\t\t\t\t\ty ?", "\t%li z",
        "\t\t\t\t\t\t\t%p", "\t\t\t\t\t\t\t  %i"].map fun line => ⟨line.toList, none⟩) ∧
      r.lines apart = .ok (pushEach .tab (enclosingLevels .tab) [] apartLines) ∧
      StaysNested .tab apartLines) ∧
    (rawLines crossed = crossedLines.map PushLine.raw ∧ (∀ line ∈ crossedLines, line.Proper) ∧
      r.lines crossed
        = .ok (["\t\t%div", "\t\t%p a", "\t%b x"].map fun line => ⟨line.toList, none⟩) ∧
      r.lines crossed ≠ .ok (pushEach .tab (enclosingLevels .tab) [] crossedLines) ∧
      ¬OverridesApart .tab crossedLines ∧ ¬StaysNested .tab crossedLines) := by
  intro r apart crossed
  constructor
  · have hraw : rawLines apart = apartLines.map PushLine.raw := by decide +kernel
    have hproper : ∀ line ∈ apartLines, line.Proper := by decide +kernel
    have hresult := lines_eq_pushEach r (by decide) hraw hproper
    have hsums : r.lines apart = .ok (pushEach .tab (enclosingLevels .tab) [] apartLines) :=
      hresult.1.trans (by decide +kernel)
    have hapart : OverridesApart .tab apartLines := (hresult.2.2.1.1 hsums).resolve_left (by decide)
    exact ⟨hraw, hproper, hresult.1.trans (by decide +kernel), hsums, hresult.2.2.2 hapart⟩
  · have hraw : rawLines crossed = crossedLines.map PushLine.raw := by decide +kernel
    have hproper : ∀ line ∈ crossedLines, line.Proper := by decide +kernel
    have hresult := lines_eq_pushEach r (by decide) hraw hproper
    have hsums : r.lines crossed ≠ .ok (pushEach .tab (enclosingLevels .tab) [] crossedLines) := by
      rw [hresult.1]
      decide +kernel
    refine ⟨hraw, hproper, hresult.1.trans (by decide +kernel), hsums,
      fun hapart => hsums (hresult.2.2.1.2 (.inr hapart)), fun hnested => ?_⟩
    have hdeeper := hnested [] _ [_] _ [] rfl (by decide) (by decide) (by decide +kernel)
    exact absurd hdeeper (by decide +kernel)

end SourceReader

end Offside
