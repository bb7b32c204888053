import Mathlib
import Offside.Proofs.Includes
import Offside.Proofs.Text
import Offside.Template.Line

/-!
# Lines in debug mode

In debug mode every included file stands between two internal comments, its marks.  Here the lines
of a source are resolved in debug mode with a note at each line of whether it is a mark
(`SourceReader.trace`).  The trace goes on as long as debug mode does not disturb the other lines:

* a mark is neither continued nor put behind another line,
* it holds no directive,
* every other line is pushed as deep as it would be if the marks were not there.

As long as it does, all its lines are what debug mode gives, and its lines without the marks are
what is given without debug mode (`SourceReader.lines_of_tracedLines`).  The marks stay internal
comments (`SourceReader.isCommentLine_of_tracedLines`).

Only lines that are continued or pushed make a source that can be disturbed
(`SourceReader.exists_tracedLines`).
-/

namespace Offside

/-! ## Comments -/

/-- A line is an internal comment, however deep it is. -/
def IsCommentLine (t : Text) : Prop := ∃ rest, Text.trimStart t = '/' :: '/' :: rest

namespace IsCommentLine

variable {t : Text}

lemma isBlankText (h : IsCommentLine t) : Text.isBlankText t = false := by
  obtain ⟨rest, hrest⟩ := h
  by_contra hblank
  rw [Bool.not_eq_false] at hblank
  have hempty : Text.trimStart t = [] := List.dropWhile_eq_nil_iff.2 (List.all_eq_true.1 hblank)
  rw [hempty] at hrest
  cases hrest

lemma staticInclude? (h : IsCommentLine t) : staticInclude? t = none := by
  obtain ⟨rest, hrest⟩ := h
  rw [Offside.staticInclude?, hrest]
  rfl

lemma repeated_append (h : IsCommentLine t) (unit : IndentUnit) (levels : Nat) :
    IsCommentLine (unit.repeated levels ++ t) := by
  rwa [IsCommentLine, unit.trimStart_repeated_append]

lemma dropReturns (h : ∃ rest, t = '/' :: '/' :: rest) : IsCommentLine (dropReturns t) := by
  obtain ⟨rest, rfl⟩ := h
  refine ⟨Offside.dropReturns rest, ?_⟩
  have hslash : ∀ c ∈ ['/', '/'].getLast?, (c == '\r') = false := by
    rintro c ⟨⟩
    rfl
  have hkept : Offside.dropReturns ('/' :: '/' :: rest) = ['/', '/'] ++ Offside.dropReturns rest :=
    dropEndWhile_append hslash rest
  rw [hkept]
  rfl

/-- What stands below such a line is dropped. -/
lemma ofText_trim (h : IsCommentLine t) : TemplateLine.ofText (Text.trim t) = .internalComment := by
  obtain ⟨rest, hrest⟩ := h
  have hslash : ∀ c ∈ ['/', '/'].getLast?, Text.isBlank c = false := by
    rintro c ⟨⟩
    rfl
  have htrim : Text.trim t = ['/', '/'] ++ Text.trimEnd rest := by
    rw [Text.trim, hrest]
    exact dropEndWhile_append hslash rest
  rw [htrim]
  rfl

end IsCommentLine

/-! ## The ends of lines -/

lemma dropWhile_dropWhile {p q : Char → Bool} (hpq : ∀ c, p c = true → q c = true) (t : Text) :
    (t.dropWhile p).dropWhile q = t.dropWhile q := by
  induction t with
  | nil => rfl
  | cons c t ih =>
      by_cases hp : p c = true
      · rw [List.dropWhile_cons_of_pos hp, List.dropWhile_cons_of_pos (hpq c hp), ih]
      · rw [List.dropWhile_cons_of_neg hp]

/-- Whether a line is continued or pushed is seen at its last character that is not blank. -/
lemma staysPut_eq (t : Text) :
    staysPut t = ((Text.dropPrefix? ['|'] (t.reverse.dropWhile Text.isBlank)).isNone
      && !endsInOverride (t.reverse.dropWhile Text.isBlank)) := by
  rw [staysPut, continued?_eq, ← isSome_depthOverride?, Option.isNone_map, Option.not_isSome]

lemma staysPut_dropReturns (t : Text) : staysPut (dropReturns t) = staysPut t := by
  have hreturn : ∀ c, (c == '\r') = true → Text.isBlank c = true := by
    intro c hc
    rw [beq_iff_eq.1 hc]
    rfl
  rw [staysPut_eq, staysPut_eq, dropReturns, Text.dropEndWhile, List.reverse_reverse,
    dropWhile_dropWhile hreturn]

/-- What follows a dot decides whether a line is continued or pushed. -/
lemma staysPut_dot {finish : Text} (h : staysPut finish = true) (front : Text) :
    staysPut (front ++ '.' :: finish) = true := by
  have hdot : ∀ c ∈ (front ++ ['.']).getLast?, Text.isDigit c = false ∧ c ≠ '?' := by
    intro c hc
    rw [List.getLast?_concat, Option.mem_some_iff] at hc
    rw [← hc]
    decide
  cases hblank : Text.isBlankText finish with
  | false =>
      rw [← h, ← staysPut_append hblank hdot, List.append_assoc]
      rfl
  | true =>
      have hall : finish.reverse.dropWhile Text.isBlank = [] :=
        List.dropWhile_eq_nil_iff.2 fun c hc => List.all_eq_true.1 hblank c (List.mem_reverse.1 hc)
      rw [staysPut_eq, List.reverse_append, List.reverse_cons, List.append_assoc,
        List.dropWhile_append, hall]
      rfl

/-! ## Traced lines -/

/-- A line in debug mode, and whether it is a mark of an included file. -/
structure TracedLine extends OriginLine where
  isMark : Bool
  deriving Repr, DecidableEq

namespace TracedLine

/-- A line that is no mark. -/
def plain (line : OriginLine) : TracedLine := ⟨line, false⟩

/-- Whether a line is there with debug mode on or off. -/
def isThere (debug : Bool) (line : TracedLine) : Bool := debug || !line.isMark

lemma isThere_of_not_isMark {line : TracedLine} (h : line.isMark = false) (debug : Bool) :
    line.isThere debug = true := by
  rw [isThere, h, Bool.not_false, Bool.or_true]

lemma isMark_of_not_isThere {line : TracedLine} {debug : Bool} (h : line.isThere debug = false) :
    line.isMark = true := by
  rw [isThere, Bool.or_eq_false_iff, Bool.not_eq_false'] at h
  exact h.2

/-- Put a line deeper. -/
def indent (unit : IndentUnit) (levels : Nat) (line : TracedLine) : TracedLine :=
  ⟨line.toOriginLine.indent unit levels, line.isMark⟩

end TracedLine

/-- The lines that are there with debug mode on or off. -/
def linesIn (debug : Bool) (traced : List TracedLine) : List OriginLine :=
  (traced.filter (·.isThere debug)).map TracedLine.toOriginLine

section Lists

variable {debug : Bool} {line : TracedLine} (first second lines : List TracedLine)

@[simp] lemma linesIn_nil : linesIn debug [] = [] := rfl

lemma linesIn_true : linesIn true lines = lines.map TracedLine.toOriginLine :=
  congrArg _ (List.filter_eq_self.2 fun _ _ => rfl)

@[simp] lemma linesIn_append :
    linesIn debug (first ++ second) = linesIn debug first ++ linesIn debug second := by
  rw [linesIn, List.filter_append, List.map_append, linesIn, linesIn]

lemma linesIn_cons_there (h : line.isThere debug = true) :
    linesIn debug (line :: lines) = line.toOriginLine :: linesIn debug lines := by
  rw [linesIn, List.filter_cons_of_pos h, List.map_cons, linesIn]

lemma linesIn_singleton (line : OriginLine) (isMark : Bool) :
    linesIn debug [⟨line, isMark⟩] = if debug || !isMark then [line] else [] := by
  cases debug <;> cases isMark <;> rfl

lemma linesIn_cons_not_there (h : line.isThere debug = false) :
    linesIn debug (line :: lines) = linesIn debug lines := by
  rw [linesIn, List.filter_cons_of_neg (by simp [h]), linesIn]

variable {lines} in
lemma mem_linesIn_of_not_isMark (hline : line ∈ lines) (hmark : line.isMark = false) :
    line.toOriginLine ∈ linesIn debug lines :=
  List.mem_map_of_mem
    (List.mem_filter.2 ⟨hline, TracedLine.isThere_of_not_isMark hmark debug⟩)

lemma linesIn_subset (debug : Bool) : linesIn debug lines ⊆ linesIn true lines := by
  refine List.map_subset _ fun line hline => List.mem_filter.2 ⟨?_, rfl⟩
  exact (List.mem_filter.1 hline).1

@[simp] lemma linesIn_map_plain (lines : List OriginLine) :
    linesIn debug (lines.map .plain) = lines := by
  induction lines with
  | nil => rfl
  | cons line lines ih =>
      rw [List.map_cons, linesIn_cons_there _ (TracedLine.isThere_of_not_isMark rfl debug), ih]
      rfl

@[simp] lemma linesIn_map_indent (unit : IndentUnit) (levels : Nat) :
    linesIn debug (lines.map (.indent unit levels))
      = (linesIn debug lines).map (.indent unit levels) := by
  rw [linesIn, List.filter_map, List.map_map, linesIn, List.map_map]
  rfl

end Lists

/-! ## Continued lines -/

/-- A line behind the line that it continues. -/
def behind (pending : Option OriginLine) (next : OriginLine) : OriginLine :=
  match pending with
  | some head => { head with text := head.text ++ Text.trimStart next.text }
  | none => next

lemma joinAfter_cons (pending : Option OriginLine) (next : OriginLine) (rest : List OriginLine) :
    joinAfter pending (next :: rest)
      = match continued? (behind pending next).text with
        | some text => joinAfter (some { behind pending next with text := text }) rest
        | none => behind pending next :: joinAfter none rest := by
  cases pending <;> rfl

/-- Put each continued line and the line after it together, as long as neither is a mark.  The first
argument is the line that is to be continued. -/
def joinTraced : Option OriginLine → List TracedLine → Option (List TracedLine)
  | pending, [] => some (pending.toList.map .plain)
  | pending, next :: rest =>
    let line := behind pending next.toOriginLine
    if next.isMark && (pending.isSome || (continued? line.text).isSome) then none
    else
      match continued? line.text with
      | some text => joinTraced (some { line with text := text }) rest
      | none => (joinTraced none rest).map (⟨line, next.isMark⟩ :: ·)

/-- What is done with the first of some lines. -/
lemma joinTraced_cons_cases {pending : Option OriginLine} {line : TracedLine}
    {rest next : List TracedLine} (h : joinTraced pending (line :: rest) = some next) :
    (line.isMark = true → pending = none ∧ continued? line.text = none) ∧
      ((∃ text, continued? (behind pending line.toOriginLine).text = some text ∧
          joinTraced (some { behind pending line.toOriginLine with text := text }) rest
            = some next) ∨
        (continued? (behind pending line.toOriginLine).text = none ∧ ∃ after,
          joinTraced none rest = some after ∧
          next = ⟨behind pending line.toOriginLine, line.isMark⟩ :: after)) := by
  simp only [joinTraced] at h
  split_ifs at h with hapart
  constructor
  · intro hmark
    cases pending with
    | none => exact ⟨rfl, by simpa [hmark, behind] using hapart⟩
    | some head => simp [hmark] at hapart
  · cases hcontinued : continued? (behind pending line.toOriginLine).text with
    | some text =>
        simp only [hcontinued] at h
        exact Or.inl ⟨text, rfl, h⟩
    | none =>
        simp only [hcontinued] at h
        obtain ⟨after, hafter, rfl⟩ := Option.map_eq_some_iff.1 h
        exact Or.inr ⟨rfl, after, hafter, rfl⟩

/-- The trace puts the lines together that are put together with debug mode on and off. -/
lemma joinAfter_of_joinTraced (debug : Bool) {pending : Option OriginLine}
    {lines next : List TracedLine} (h : joinTraced pending lines = some next) :
    joinAfter pending (linesIn debug lines) = linesIn debug next := by
  induction lines generalizing pending next with
  | nil =>
      rw [joinTraced, Option.some.injEq] at h
      rw [← h, linesIn_map_plain]
      cases pending <;> rfl
  | cons line lines ih =>
      obtain ⟨hmark, hcases⟩ := joinTraced_cons_cases h
      cases hthere : line.isThere debug with
      | true =>
          rw [linesIn_cons_there _ hthere, joinAfter_cons]
          rcases hcases with ⟨text, hcontinued, hrest⟩ | ⟨hcontinued, after, hafter, rfl⟩
          · simp only [hcontinued]
            exact ih hrest
          · have hkept : TracedLine.isThere debug
                ⟨behind pending line.toOriginLine, line.isMark⟩ = true := hthere
            simp only [hcontinued, ih hafter, linesIn_cons_there after hkept]
      | false =>
          obtain ⟨rfl, hline⟩ := hmark (TracedLine.isMark_of_not_isThere hthere)
          rcases hcases with ⟨text, hcontinued, -⟩ | ⟨-, after, hafter, rfl⟩
          · rw [behind, hline] at hcontinued
            cases hcontinued
          · rw [linesIn_cons_not_there _ hthere, ih hafter]
            refine (linesIn_cons_not_there after ?_).symm
            exact hthere

namespace SourceReader

variable {r : SourceReader}

/-! ## One pass -/

/-- Read with debug mode on or off. -/
def withDebug (r : SourceReader) (debug : Bool) : SourceReader :=
  { r with settings := { r.settings with debug := debug } }

/-- The lines of an included file between its marks. -/
def markedFile (r : SourceReader) (name : Text) : List TracedLine :=
  ⟨r.fileMark "// Begin file " name, true⟩ :: (r.includedLines name).map .plain
    ++ [⟨r.fileMark "// End file " name, true⟩]

lemma linesIn_markedFile (debug : Bool) (name : Text) :
    linesIn debug (r.markedFile name) = (r.withDebug debug).announcedLines name := by
  rw [markedFile, linesIn_append]
  cases debug with
  | true =>
      rw [linesIn_cons_there _ rfl, linesIn_map_plain, linesIn_cons_there _ rfl]
      rfl
  | false =>
      rw [linesIn_cons_not_there _ rfl, linesIn_map_plain, linesIn_cons_not_there _ rfl,
        linesIn_nil, List.append_nil]
      rfl

/-- What a pass in debug mode puts in the place of a line, under an override that is in force. -/
def replaceTraced (r : SourceReader) (force : Override) (line : TracedLine) :
    Option (List TracedLine) :=
  let levels := (forceAfter r.settings.indent force line.text).levels
  if Text.isBlankText line.text then some [line]
  else
    match staticInclude? (withoutOverride line.text) with
    | some name =>
      if (r.included? name).isSome then
        some ((r.markedFile name).map
          (.indent r.settings.indent (r.settings.indent.depth line.text + levels)))
      else none
    | none =>
      some [{ line with text := r.settings.indent.repeated levels ++ withoutOverride line.text }]

/-- The overrides that are in force after a line, with debug mode on and off. -/
def forcesAfter (unit : IndentUnit) (force : Bool → Override) (line : TracedLine) (debug : Bool) :
    Override :=
  if line.isThere debug then forceAfter unit (force debug) line.text else force debug

/-- Whether a mark holds no directive, or a line is pushed alike with debug mode on and off.  Blank
lines are never pushed. -/
def isUndisturbed (unit : IndentUnit) (force : Bool → Override) (line : TracedLine) : Bool :=
  if line.isMark then !hasDirective line.toOriginLine
  else Text.isBlankText line.text ||
    (forceAfter unit (force true) line.text).levels
      == (forceAfter unit (force false) line.text).levels

lemma not_hasDirective_of_isUndisturbed {unit : IndentUnit} {force : Bool → Override}
    {line : TracedLine} (h : isUndisturbed unit force line = true) (hmark : line.isMark = true) :
    hasDirective line.toOriginLine = false := by
  rwa [isUndisturbed, if_pos hmark, Bool.not_eq_true'] at h

/-- Go through lines once, as long as none is disturbed. -/
def passTraced (r : SourceReader) : (Bool → Override) → List TracedLine →
    Option (List TracedLine)
  | _, [] => some []
  | force, line :: rest =>
    if isUndisturbed r.settings.indent force line then do
      let here ← r.replaceTraced (force true) line
      let after ← r.passTraced (forcesAfter r.settings.indent force line) rest
      return here ++ after
    else none

lemma passTraced_cons_eq_some_iff {force : Bool → Override} {line : TracedLine}
    {rest next : List TracedLine} :
    r.passTraced force (line :: rest) = some next ↔
      isUndisturbed r.settings.indent force line = true ∧ ∃ here after,
        r.replaceTraced (force true) line = some here ∧
        r.passTraced (forcesAfter r.settings.indent force line) rest = some after ∧
        next = here ++ after := by
  rw [passTraced]
  split_ifs with hline
  · rw [and_iff_right hline, Option.bind_eq_bind, Option.bind_eq_some_iff]
    refine exists_congr fun here => ?_
    rw [Option.bind_eq_some_iff]
    constructor
    · rintro ⟨hhere, after, hafter, ⟨⟩⟩
      exact ⟨after, hhere, hafter, rfl⟩
    · rintro ⟨after, hhere, hafter, rfl⟩
      exact ⟨hhere, after, hafter, rfl⟩
  · simp [hline]

lemma withoutOverride_of_not_hasDirective {line : OriginLine} (h : hasDirective line = false) :
    withoutOverride line.text = line.text ∧ staticInclude? line.text = none := by
  rw [hasDirective, Bool.or_eq_false_iff, Option.isSome_eq_false_iff, Option.isSome_eq_false_iff,
    Option.isNone_iff_eq_none, Option.isNone_iff_eq_none] at h
  rw [withoutOverride, h.1]
  exact ⟨rfl, h.2⟩

/-- Lines that are there are replaced as the trace says, under overrides that push them alike. -/
lemma replaceLine_of_replaceTraced {debug : Bool} {force own : Override} {line : TracedLine}
    {here : List TracedLine} (h : r.replaceTraced force line = some here)
    (hthere : line.isThere debug = true)
    (hlevels : Text.isBlankText line.text = false →
      (forceAfter r.settings.indent force line.text).levels
        = (forceAfter r.settings.indent own line.text).levels) :
    (r.withDebug debug).replaceLine own line.toOriginLine = .ok (linesIn debug here) := by
  have hunit : (r.withDebug debug).settings.indent = r.settings.indent := rfl
  simp only [replaceTraced] at h
  simp only [replaceLine, hunit]
  split_ifs at h ⊢ with hblank
  · cases h
    rw [linesIn_cons_there _ hthere, linesIn_nil]
  · rw [Bool.not_eq_true] at hblank
    rw [hlevels hblank] at h
    cases hname : staticInclude? (withoutOverride line.text) with
    | none =>
        simp only [hname, Option.some.injEq] at h ⊢
        rw [← h, linesIn_singleton, ← TracedLine.isThere, hthere]
        rfl
    | some name =>
        simp only [hname] at h ⊢
        split_ifs at h with hfound
        cases h
        rw [includeLines_eq_ok_iff, linesIn_map_indent, linesIn_markedFile]
        exact ⟨hfound, rfl⟩

/-- A line without a directive is at most pushed. -/
lemma exists_replaceTraced {line : TracedLine} (h : hasDirective line.toOriginLine = false)
    (force : Override) : ∃ levels, r.replaceTraced force line
      = some [⟨⟨r.settings.indent.repeated levels ++ line.text, line.origin⟩, line.isMark⟩] := by
  obtain ⟨hkept, hnone⟩ := withoutOverride_of_not_hasDirective h
  by_cases hblank : Text.isBlankText line.text = true
  · refine ⟨0, ?_⟩
    rw [replaceTraced, if_pos hblank, IndentUnit.repeated_zero]
    rfl
  · refine ⟨(forceAfter r.settings.indent force line.text).levels, ?_⟩
    simp only [replaceTraced, if_neg hblank, hkept, hnone]

/-- **A pass does the same to the lines with debug mode on and off**, but for the marks. -/
lemma resolveOnce_of_passTraced (debug : Bool) {force : Bool → Override}
    {lines next : List TracedLine} (h : r.passTraced force lines = some next) :
    (r.withDebug debug).resolveOnce (force debug) (linesIn debug lines)
      = .ok (linesIn debug next) := by
  induction lines generalizing force next with
  | nil =>
      cases h
      rfl
  | cons line lines ih =>
      obtain ⟨hline, here, after, hhere, hafter, rfl⟩ := passTraced_cons_eq_some_iff.1 h
      have hrest := ih hafter
      cases hthere : line.isThere debug with
      | true =>
          rw [forcesAfter, if_pos hthere] at hrest
          rw [linesIn_cons_there _ hthere, resolveOnce_cons_eq_ok_iff, linesIn_append]
          refine ⟨_, _, replaceLine_of_replaceTraced hhere hthere fun hblank => ?_, hrest, rfl⟩
          cases debug with
          | true => rfl
          | false =>
              have hplain : line.isMark = false := by simpa [TracedLine.isThere] using hthere
              simpa [isUndisturbed, hplain, hblank] using hline
      | false =>
          -- A mark that only debug mode sees leaves nothing behind for the other mode.
          rw [forcesAfter, if_neg (by simp [hthere])] at hrest
          have hdirective := not_hasDirective_of_isUndisturbed hline
            (TracedLine.isMark_of_not_isThere hthere)
          obtain ⟨levels, hpushed⟩ := exists_replaceTraced (r := r) hdirective (force true)
          rw [hhere, Option.some.injEq] at hpushed
          rw [linesIn_cons_not_there _ hthere, linesIn_append, hrest, hpushed, linesIn_singleton,
            ← TracedLine.isThere, hthere]
          rfl

/-- No mark that is gone through holds a directive. -/
lemma not_hasDirective_of_passTraced {force : Bool → Override} {lines next : List TracedLine}
    (h : r.passTraced force lines = some next) :
    ∀ line ∈ lines, line.isMark = true → hasDirective line.toOriginLine = false := by
  induction lines generalizing force next with
  | nil => simp
  | cons line lines ih =>
      obtain ⟨hline, here, after, -, hafter, -⟩ := passTraced_cons_eq_some_iff.1 h
      exact List.forall_mem_cons.2 ⟨not_hasDirective_of_isUndisturbed hline, ih hafter⟩

lemma any_hasDirective_linesIn {lines : List TracedLine}
    (h : ∀ line ∈ lines, line.isMark = true → hasDirective line.toOriginLine = false)
    (debug : Bool) :
    (linesIn debug lines).any hasDirective = (linesIn true lines).any hasDirective := by
  induction lines with
  | nil => rfl
  | cons line lines ih =>
      obtain ⟨hline, hrest⟩ := List.forall_mem_cons.1 h
      have hall : linesIn true (line :: lines) = line.toOriginLine :: linesIn true lines :=
        linesIn_cons_there _ rfl
      cases hthere : line.isThere debug with
      | true => rw [linesIn_cons_there _ hthere, hall, List.any_cons, List.any_cons, ih hrest]
      | false =>
          rw [linesIn_cons_not_there _ hthere, hall, List.any_cons,
            hline (TracedLine.isMark_of_not_isThere hthere), Bool.false_or, ih hrest]

/-! ## All passes -/

/-- Resolve directives pass by pass in debug mode, as long as no line is disturbed. -/
def trace (r : SourceReader) : Nat → List TracedLine → Option (List TracedLine)
  | passes, lines =>
    if !(linesIn true lines).any hasDirective then some lines
    else
      match passes with
      | 0 => none
      | passes + 1 => do
        let lines ← r.passTraced (fun _ => ⟨0, 0⟩) lines
        let lines ← joinTraced none lines
        r.trace passes lines

/-- The lines of a source in debug mode, if no line is disturbed. -/
def tracedLines (r : SourceReader) (source : Text) : Option (List TracedLine) := do
  let lines ← joinTraced none ((ownLines source).map .plain)
  r.trace r.settings.maxPasses lines

lemma trace_of_not_hasDirective {lines : List TracedLine}
    (h : (linesIn true lines).any hasDirective = false) (passes : Nat) :
    r.trace passes lines = some lines := by
  unfold trace
  rw [h]
  rfl

/-- What holds of the lines without directives, and of lines before a pass if it holds after it,
holds of the lines that a trace begins with. -/
lemma trace_induction {traced : List TracedLine} {P : Nat → List TracedLine → Prop}
    (hdone : ∀ passes, (linesIn true traced).any hasDirective = false → P passes traced)
    (hpass : ∀ passes lines passed joined, (linesIn true lines).any hasDirective = true →
      r.passTraced (fun _ => ⟨0, 0⟩) lines = some passed → joinTraced none passed = some joined →
      P passes joined → P (passes + 1) lines)
    {passes : Nat} {lines : List TracedLine} (h : r.trace passes lines = some traced) :
    P passes lines := by
  induction passes generalizing lines with
  | zero =>
      rw [trace] at h
      cases hany : (linesIn true lines).any hasDirective with
      | true =>
          rw [hany] at h
          cases h
      | false =>
          rw [hany] at h
          cases h
          exact hdone 0 hany
  | succ passes ih =>
      rw [trace] at h
      cases hany : (linesIn true lines).any hasDirective with
      | true =>
          rw [hany] at h
          obtain ⟨passed, hpassed, hnext⟩ := Option.bind_eq_some_iff.1 h
          obtain ⟨joined, hjoined, htrace⟩ := Option.bind_eq_some_iff.1 hnext
          exact hpass passes lines passed joined hany hpassed hjoined (ih htrace)
      | false =>
          rw [hany] at h
          cases h
          exact hdone _ hany

/-- Lines are resolved as the trace says, with debug mode on and off. -/
lemma resolve_of_trace (debug : Bool) {passes : Nat} {lines traced : List TracedLine}
    (h : r.trace passes lines = some traced) :
    (r.withDebug debug).resolve passes (linesIn debug lines) = .ok (linesIn debug traced) := by
  refine trace_induction (P := fun passes lines => (r.withDebug debug).resolve passes
    (linesIn debug lines) = .ok (linesIn debug traced)) (fun passes hnone => ?_) ?_ h
  · have hnone' : (linesIn debug traced).any hasDirective = false := by
      rw [List.any_eq_false] at hnone ⊢
      exact fun line hline => hnone line (linesIn_subset traced debug hline)
    unfold resolve
    rw [hnone']
    rfl
  · intro passes lines passed joined hany hpassed hjoined hresolve
    have hpass := resolveOnce_of_passTraced debug hpassed
    have hjoin := joinAfter_of_joinTraced debug hjoined
    rw [resolve, any_hasDirective_linesIn (not_hasDirective_of_passTraced hpassed) debug, hany]
    simpa [hpass, bind, Except.bind, joinContinuations, hjoin] using hresolve

/-- **The lines of a trace are what is resolved in debug mode, and without the marks they are what
is resolved without it.** -/
lemma lines_of_tracedLines (debug : Bool) {source : Text} {traced : List TracedLine}
    (h : r.tracedLines source = some traced) :
    (r.withDebug debug).lines source = .ok (linesIn debug traced) := by
  obtain ⟨joined, hjoined, htrace⟩ := Option.bind_eq_some_iff.1 h
  have hjoin := joinAfter_of_joinTraced debug hjoined
  rw [linesIn_map_plain] at hjoin
  have hresolve := resolve_of_trace debug htrace
  rw [← hjoin] at hresolve
  exact hresolve

/-! ## The texts of marks -/

/-- Something is true of the texts of all marks, however deep they are put. -/
structure HoldsOfMarks (r : SourceReader) (Q : Text → Prop) : Prop where
  comment : ∀ t, Q t → IsCommentLine t
  begins : ∀ name, Q (r.fileMark "// Begin file " name).text
  ends : ∀ name, Q (r.fileMark "// End file " name).text
  pushed : ∀ t, Q t → ∀ levels, Q (r.settings.indent.repeated levels ++ t)

/-- Something is true of the texts of the marks among lines. -/
def MarksSatisfy (Q : Text → Prop) (lines : List TracedLine) : Prop :=
  ∀ line ∈ lines, line.isMark = true → Q line.text

namespace MarksSatisfy

variable {Q : Text → Prop}

lemma append {first second : List TracedLine} (hfirst : MarksSatisfy Q first)
    (hsecond : MarksSatisfy Q second) : MarksSatisfy Q (first ++ second) := by
  intro line hline
  rcases List.mem_append.1 hline with hline | hline
  · exact hfirst line hline
  · exact hsecond line hline

lemma map_plain (lines : List OriginLine) : MarksSatisfy Q (lines.map .plain) := by
  intro line hline hmark
  obtain ⟨own, -, rfl⟩ := List.mem_map.1 hline
  cases hmark

lemma markedFile (hQ : r.HoldsOfMarks Q) (name : Text) (levels : Nat) :
    MarksSatisfy Q ((r.markedFile name).map (.indent r.settings.indent levels)) := by
  have hfile : MarksSatisfy Q (r.markedFile name) := by
    refine append (List.forall_mem_cons.2 ⟨fun _ => hQ.begins name, map_plain _⟩) ?_
    exact List.forall_mem_singleton.2 fun _ => hQ.ends name
  intro line hline hmark
  obtain ⟨own, hown, rfl⟩ := List.mem_map.1 hline
  have htext := hfile own hown hmark
  rw [TracedLine.indent, OriginLine.indent, (hQ.comment _ htext).isBlankText]
  exact hQ.pushed _ htext levels

lemma replaceTraced (hQ : r.HoldsOfMarks Q) {force : Override} {line : TracedLine}
    {here : List TracedLine} (h : r.replaceTraced force line = some here)
    (hline : line.isMark = true → Q line.text ∧ hasDirective line.toOriginLine = false) :
    MarksSatisfy Q here := by
  cases hmark : line.isMark with
  | true =>
      obtain ⟨htext, hdirective⟩ := hline hmark
      obtain ⟨levels, hpushed⟩ := exists_replaceTraced (r := r) hdirective force
      rw [hpushed, Option.some.injEq] at h
      rw [← h]
      exact List.forall_mem_singleton.2 fun _ => hQ.pushed _ htext levels
  | false =>
      have hplain : ∀ t, MarksSatisfy Q [⟨⟨t, line.origin⟩, line.isMark⟩] := by
        intro t
        refine List.forall_mem_singleton.2 fun hmark' => ?_
        rw [hmark] at hmark'
        cases hmark'
      simp only [SourceReader.replaceTraced] at h
      split_ifs at h with hblank
      · cases h
        exact hplain line.text
      · cases hname : staticInclude? (withoutOverride line.text) with
        | none =>
            simp only [hname, Option.some.injEq] at h
            rw [← h]
            exact hplain _
        | some name =>
            simp only [hname] at h
            split_ifs at h
            cases h
            exact markedFile hQ name _

lemma passTraced {lines next : List TracedLine} (hlines : MarksSatisfy Q lines)
    (hQ : r.HoldsOfMarks Q) {force : Bool → Override}
    (h : r.passTraced force lines = some next) : MarksSatisfy Q next := by
  induction lines generalizing force next with
  | nil =>
      cases h
      exact hlines
  | cons line lines ih =>
      obtain ⟨hline, here, after, hhere, hafter, rfl⟩ := passTraced_cons_eq_some_iff.1 h
      obtain ⟨htext, hrest⟩ := List.forall_mem_cons.1 hlines
      exact append (replaceTraced hQ hhere fun hmark =>
        ⟨htext hmark, not_hasDirective_of_isUndisturbed hline hmark⟩) (ih hrest hafter)

lemma joinTraced {lines next : List TracedLine} (hlines : MarksSatisfy Q lines)
    {pending : Option OriginLine} (h : joinTraced pending lines = some next) :
    MarksSatisfy Q next := by
  induction lines generalizing pending next with
  | nil =>
      cases h
      exact map_plain _
  | cons line lines ih =>
      obtain ⟨htext, hrest⟩ := List.forall_mem_cons.1 hlines
      obtain ⟨hapart, ⟨text, -, hnext⟩ | ⟨-, after, hafter, rfl⟩⟩ := joinTraced_cons_cases h
      · exact ih hrest hnext
      · refine List.forall_mem_cons.2 ⟨fun hmark => ?_, ih hrest hafter⟩
        obtain ⟨rfl, -⟩ := hapart hmark
        exact htext hmark

end MarksSatisfy

lemma holdsOfMarks_isCommentLine (r : SourceReader) : r.HoldsOfMarks IsCommentLine where
  comment _ h := h
  begins _ := .dropReturns ⟨_, rfl⟩
  ends _ := .dropReturns ⟨_, rfl⟩
  pushed _ h levels := h.repeated_append _ levels

/-- The marks of a trace are internal comments. -/
lemma isCommentLine_of_tracedLines {source : Text} {traced : List TracedLine}
    (h : r.tracedLines source = some traced) : MarksSatisfy IsCommentLine traced := by
  obtain ⟨joined, hjoined, htrace⟩ := Option.bind_eq_some_iff.1 h
  have hQ := r.holdsOfMarks_isCommentLine
  refine trace_induction
    (P := fun _ lines => MarksSatisfy IsCommentLine lines → MarksSatisfy IsCommentLine traced)
    (fun _ _ => id) ?_ htrace ((MarksSatisfy.map_plain _).joinTraced hjoined)
  intro _ lines passed joined _ hpassed hjoined hnext hlines
  exact hnext ((hlines.passTraced hQ hpassed).joinTraced hjoined)

/-! ## Sources that are not disturbed -/

lemma staysPut_fileMark (h : staysPut r.settings.sourceExtension = true) (words : String)
    (name : Text) : staysPut (r.fileMark words name).text = true := by
  obtain ⟨front, hfront⟩ : ∃ front : Text,
      r.includePath name = front ++ '.' :: r.settings.sourceExtension := by
    rw [includePath, FilePath.join]
    split_ifs
    · exact ⟨Text.trim name, by simp⟩
    · exact ⟨r.root ++ Text.trim name, by simp⟩
    · exact ⟨r.root ++ "/" ++ Text.trim name, by simp⟩
  rw [fileMark, staysPut_dropReturns, hfront, ← List.append_assoc]
  exact staysPut_dot h _

/-- A mark that is neither continued nor pushed. -/
def IsSteadyMark (t : Text) : Prop := IsCommentLine t ∧ staysPut t = true

lemma IsSteadyMark.hasDirective {line : OriginLine} (h : IsSteadyMark line.text) :
    hasDirective line = false := by
  rw [Offside.hasDirective, depthOverride?_of_staysPut h.2, h.1.staticInclude?]
  rfl

lemma holdsOfMarks_isSteadyMark (h : staysPut r.settings.sourceExtension = true) :
    r.HoldsOfMarks IsSteadyMark where
  comment _ ht := ht.1
  begins name := ⟨r.holdsOfMarks_isCommentLine.begins name, staysPut_fileMark h _ name⟩
  ends name := ⟨r.holdsOfMarks_isCommentLine.ends name, staysPut_fileMark h _ name⟩
  pushed _ ht levels :=
    ⟨ht.1.repeated_append _ levels, (staysPut_repeated_append ht.1.isBlankText _ levels).trans ht.2⟩

/-- Neither the marks nor the other lines are continued or pushed. -/
lemma staysPut_of_marksSatisfy {lines : List TracedLine} (hmarks : MarksSatisfy IsSteadyMark lines)
    (hplain : ∀ line ∈ linesIn false lines, staysPut line.text = true) :
    ∀ line ∈ lines, staysPut line.text = true := by
  intro line hline
  cases hmark : line.isMark with
  | true => exact (hmarks line hline hmark).2
  | false => exact hplain line.toOriginLine (mem_linesIn_of_not_isMark hline hmark)

/-- Marks include nothing. -/
lemma isSome_included?_of_plain {lines : List TracedLine} (hmarks : MarksSatisfy IsSteadyMark lines)
    (hfound : ∀ line ∈ linesIn false lines, ∀ name ∈ staticInclude? line.text,
      (r.included? name).isSome) :
    ∀ line ∈ lines, ∀ name ∈ staticInclude? line.text, (r.included? name).isSome := by
  intro line hline name hname
  cases hmark : line.isMark with
  | true =>
      rw [(hmarks line hline hmark).1.staticInclude?] at hname
      cases hname
  | false => exact hfound line.toOriginLine (mem_linesIn_of_not_isMark hline hmark) name hname

lemma joinTraced_eq_self {lines : List TracedLine}
    (h : ∀ line ∈ lines, staysPut line.text = true) : joinTraced none lines = some lines := by
  induction lines with
  | nil => rfl
  | cons line lines ih =>
      obtain ⟨hline, hrest⟩ := List.forall_mem_cons.1 h
      have hnone := continued?_of_staysPut hline
      simp [joinTraced, behind, hnone, ih hrest]

/-- A pass over lines that are not continued or pushed disturbs none, if the files are there. -/
lemma exists_passTraced {lines : List TracedLine}
    (hmarks : ∀ line ∈ lines, line.isMark = true → hasDirective line.toOriginLine = false)
    (hput : ∀ line ∈ lines, staysPut line.text = true)
    (hfound : ∀ line ∈ lines, ∀ name ∈ staticInclude? line.text, (r.included? name).isSome) :
    ∃ next, r.passTraced (fun _ => ⟨0, 0⟩) lines = some next := by
  induction lines with
  | nil => exact ⟨[], rfl⟩
  | cons line lines ih =>
      obtain ⟨hmark, hmarks⟩ := List.forall_mem_cons.1 hmarks
      obtain ⟨hline, hput⟩ := List.forall_mem_cons.1 hput
      obtain ⟨hfile, hfound⟩ := List.forall_mem_cons.1 hfound
      obtain ⟨after, hafter⟩ := ih hmarks hput hfound
      have hforce : forcesAfter r.settings.indent (fun _ => ⟨0, 0⟩) line = fun _ => ⟨0, 0⟩ := by
        funext debug
        rw [forcesAfter, forceAfter_of_staysPut hline, ite_self]
      have hundisturbed : isUndisturbed r.settings.indent (fun _ => ⟨0, 0⟩) line = true := by
        rw [isUndisturbed]
        split_ifs with hisMark
        · rw [hmark hisMark]
          rfl
        · rw [beq_self_eq_true, Bool.or_true]
      obtain ⟨here, hhere⟩ : ∃ here, r.replaceTraced ⟨0, 0⟩ line = some here := by
        simp only [replaceTraced, withoutOverride_of_staysPut hline]
        split_ifs
        · exact ⟨_, rfl⟩
        · cases hname : staticInclude? line.text with
          | none => exact ⟨_, rfl⟩
          | some name => exact ⟨_, if_pos (hfile name hname)⟩
      rw [← hforce] at hafter
      exact ⟨here ++ after,
        passTraced_cons_eq_some_iff.2 ⟨hundisturbed, here, after, hhere, hafter, rfl⟩⟩

lemma reaches_withDebug {debug : Bool} {lines : List OriginLine} {name : Text}
    (h : (r.withDebug debug).Reaches lines name) : r.Reaches lines name := by
  induction h with
  | here hline hinclude => exact .here hline hinclude
  | there _ hline hinclude ih => exact .there ih hline hinclude

lemma Settled.withDebug {lines : List OriginLine} (h : r.Settled lines) (debug : Bool) :
    (r.withDebug debug).Settled lines :=
  ⟨h.own, fun name hname => h.reached name (reaches_withDebug hname)⟩

lemma exists_trace (hextension : staysPut r.settings.sourceExtension = true) {passes : Nat}
    {lines : List TracedLine} {out : List OriginLine}
    (hsettled : (r.withDebug false).Settled (linesIn false lines))
    (hmarks : MarksSatisfy IsSteadyMark lines)
    (hout : (r.withDebug false).resolve passes (linesIn false lines) = .ok out) :
    ∃ traced, r.trace passes lines = some traced := by
  have hdirectives : ∀ {lines : List TracedLine}, MarksSatisfy IsSteadyMark lines →
      ∀ line ∈ lines, line.isMark = true → hasDirective line.toOriginLine = false :=
    fun hmarks line hline hmark => (hmarks line hline hmark).hasDirective
  induction passes generalizing lines with
  | zero =>
      cases hany : (linesIn true lines).any hasDirective with
      | false => exact ⟨lines, trace_of_not_hasDirective hany 0⟩
      | true =>
          rw [resolve, any_hasDirective_linesIn (hdirectives hmarks), hany] at hout
          cases hout
  | succ passes ih =>
      cases hany : (linesIn true lines).any hasDirective with
      | false => exact ⟨lines, trace_of_not_hasDirective hany _⟩
      | true =>
          rw [resolve, any_hasDirective_linesIn (hdirectives hmarks), hany] at hout
          obtain ⟨next, hpass, hout⟩ := bind_eq_ok_iff.1 hout
          obtain ⟨hfound, hnext⟩ := (resolveOnce_eq_ok_iff rfl hsettled.own).1 hpass
          have hput := staysPut_of_marksSatisfy hmarks hsettled.own
          obtain ⟨passed, hpassed⟩ := exists_passTraced (r := r) (hdirectives hmarks) hput
            (isSome_included?_of_plain hmarks hfound)
          have hplain : linesIn false passed = next := by
            rw [resolveOnce_of_passTraced false hpassed] at hpass
            exact Except.ok.inj hpass
          have hsettled' : (r.withDebug false).Settled (linesIn false passed) := by
            rw [hplain, hnext]
            exact hsettled.flatMap_splice
          have hmarks' := hmarks.passTraced (holdsOfMarks_isSteadyMark hextension) hpassed
          have hjoin := joinTraced_eq_self (staysPut_of_marksSatisfy hmarks' hsettled'.own)
          rw [← hplain, joinContinuations_eq_self hsettled'.own] at hout
          obtain ⟨traced, htraced⟩ := ih hsettled' hmarks' hout
          refine ⟨traced, ?_⟩
          rw [trace, hany, hpassed]
          simpa [hjoin] using htraced

/-- **A source in which no line is continued or pushed is not disturbed**, if it can be resolved and
neither are the lines of the files that are reached. -/
lemma exists_tracedLines (hextension : staysPut r.settings.sourceExtension = true) {source : Text}
    (hsettled : r.Settled (ownLines source)) {out : List OriginLine}
    (hout : (r.withDebug false).lines source = .ok out) :
    ∃ traced, r.tracedLines source = some traced := by
  have hjoin : joinTraced none ((ownLines source).map .plain)
      = some ((ownLines source).map .plain) := by
    refine joinTraced_eq_self fun line hline => ?_
    obtain ⟨own, hown, rfl⟩ := List.mem_map.1 hline
    exact hsettled.own own hown
  have hlines : (r.withDebug false).lines source
      = (r.withDebug false).resolve r.settings.maxPasses (ownLines source) := by
    rw [lines]
    exact congrArg _ (joinContinuations_eq_self hsettled.own)
  rw [hlines] at hout
  rw [tracedLines, hjoin]
  refine exists_trace hextension ?_ (.map_plain _) ((congrArg _ (linesIn_map_plain _)).trans hout)
  rw [linesIn_map_plain]
  exact hsettled.withDebug false

end SourceReader

end Offside
