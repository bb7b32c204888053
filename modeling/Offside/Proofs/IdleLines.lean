import Mathlib
import Offside.Proofs.Indentation
import Offside.Proofs.LineForms
import Offside.Proofs.LineNumbers

/-!
# Lines that say nothing

Blank lines, comments and the way lines end leave no trace in what a stylesheet is compiled to.

**What is left of a source.**  A source can be changed by putting an idle line in, taking one out,
or ending a line in another way (`SheetEdit`).  None of this touches the lines that say something
(`spokenLines`), in their order and with their indentation (`spokenLines_eq_of_edit`).

**A run.**  An idle line leaves the state as it is, whatever is open or held back at that point
(`StyleBuilder.step_of_isIdle`).  So a run is a run over the spoken lines, but these have other
numbers.  The numbers only pass through, and so the outcome depends on the spoken lines alone, up to
line numbers (`parseStyles_spoken`).
-/

namespace Offside

/-! ## White space at the end -/

lemma trimEnd_append_blanks (t : Text) {blanks : Text} (h : ∀ c ∈ blanks, Text.isBlank c = true) :
    Text.trimEnd (t ++ blanks) = Text.trimEnd t := by
  have hreverse : ∀ c ∈ blanks.reverse, Text.isBlank c = true := fun c hc =>
    h c (List.mem_reverse.1 hc)
  rw [Text.trimEnd, Text.dropEndWhile, List.reverse_append, List.dropWhile_append_of_pos hreverse]
  rfl

lemma trim_append_blanks (t : Text) {blanks : Text} (h : ∀ c ∈ blanks, Text.isBlank c = true) :
    Text.trim (t ++ blanks) = Text.trim t := by
  have hstart : Text.trimStart (t ++ blanks)
      = if (Text.trimStart t).isEmpty then Text.trimStart blanks else Text.trimStart t ++ blanks :=
    List.dropWhile_append
  rw [Text.trim, hstart]
  split_ifs with hnone
  · rw [Text.trim, List.isEmpty_iff.1 hnone, Text.trimStart, List.dropWhile_eq_nil_iff.2 h]
  · exact trimEnd_append_blanks _ h

/-- Only carriage returns are dropped. -/
lemma exists_dropReturns (t : Text) :
    ∃ returns, t = dropReturns t ++ returns ∧ ∀ c ∈ returns, c = '\r' := by
  refine ⟨(t.reverse.takeWhile (· == '\r')).reverse, ?_, fun c hc => ?_⟩
  · rw [dropReturns, Text.dropEndWhile, ← List.reverse_append, List.takeWhile_append_dropWhile,
      List.reverse_reverse]
  · simpa using List.mem_takeWhile_imp (List.mem_reverse.1 hc)

lemma ofText_dropReturns (t : Text) : StyleLine.ofText (dropReturns t) = StyleLine.ofText t := by
  obtain ⟨returns, ht, hreturns⟩ := exists_dropReturns t
  have hblank : ∀ c ∈ returns, Text.isBlank c = true := by
    intro c hc
    rw [hreturns c hc]
    rfl
  have htrim : Text.trim t = Text.trim (dropReturns t) := by
    conv_lhs => rw [ht]
    exact trim_append_blanks _ hblank
  rw [StyleLine.ofText, StyleLine.ofText, htrim]

/-- Indentation does not change what a line says. -/
lemma ofText_dropWhile_isIndent (t : Text) :
    StyleLine.ofText (t.dropWhile isIndent) = StyleLine.ofText t := by
  have hindent : ∀ c ∈ t.takeWhile isIndent, Text.isBlank c = true := fun c hc =>
    isBlank_of_isIndent (List.mem_takeWhile_imp hc)
  have htrim : Text.trim t = Text.trim (t.dropWhile isIndent) := by
    conv_lhs => rw [← List.takeWhile_append_dropWhile (p := isIndent) (l := t)]
    rw [Text.trim, Text.trimStart, List.dropWhile_append_of_pos hindent]
    rfl
  rw [StyleLine.ofText, StyleLine.ofText, htrim]

/-! ## Idle lines -/

/-- Whether a line says nothing: it is blank or a comment. -/
def isIdle (line : Text) : Bool :=
  StyleLine.ofText line == .blank || StyleLine.ofText line == .comment

/-- A line with nothing on it but white space, or white space and a comment. -/
structure IdleLine (line : Text) : Prop where
  unbroken : '\n' ∉ line
  idle : Text.isBlankText line = true ∨ Text.startsWith "//" (Text.trimStart line) = true

instance (line : Text) : Decidable (IdleLine line) :=
  decidable_of_iff ('\n' ∉ line ∧ (Text.isBlankText line = true ∨
    Text.startsWith "//" (Text.trimStart line) = true)) ⟨fun h => ⟨h.1, h.2⟩, fun h => ⟨h.1, h.2⟩⟩

lemma IdleLine.isIdle {line : Text} (h : IdleLine line) : isIdle line = true := by
  rcases h.idle with hblank | hcomment
  · have hstart : Text.trimStart line = [] :=
      List.dropWhile_eq_nil_iff.2 (List.all_eq_true.1 hblank)
    have hkind : StyleLine.ofText line = .blank := by
      rw [StyleLine.ofText, Text.trim, hstart]
      rfl
    simp [Offside.isIdle, hkind]
  · obtain ⟨remark, hremark⟩ := Option.isSome_iff_exists.1 hcomment
    have htrim : Text.trim line = "//" ++ Text.trimEnd remark := by
      rw [Text.trim, eq_append_of_dropPrefix? hremark]
      refine dropEndWhile_append (fun c hc => ?_) remark
      obtain rfl : '/' = c := by simpa using hc
      rfl
    have hkind : StyleLine.ofText line = .comment :=
      StyleLine.Form.ofText_of_none htrim (by simp) rfl
    simp [Offside.isIdle, hkind]

/-- A change of a source that is not meant to change what it says: an idle line is put in, or a
line is ended by a carriage return and a line feed. -/
inductive SheetEdit : Text → Text → Prop where
  | insertFirst {line : Text} (h : IdleLine line) (source : Text) :
      SheetEdit source (line ++ "\n" ++ source)
  | insertBetween (before : Text) {line : Text} (h : IdleLine line) (after : Text) :
      SheetEdit (before ++ "\n" ++ after) (before ++ "\n" ++ line ++ "\n" ++ after)
  | insertLast (source : Text) {line : Text} (h : IdleLine line) :
      SheetEdit source (source ++ "\n" ++ line)
  | returnLine (before after : Text) :
      SheetEdit (before ++ "\n" ++ after) (before ++ "\r\n" ++ after)

/-- The lines of a source that say something. -/
def spokenLines (source : Text) : List Text := (rawLines source).filter fun line => !isIdle line

lemma rawLines_append (before after : Text) :
    rawLines (before ++ "\n" ++ after) = rawLines before ++ rawLines after := by
  have hsplit := splitOn_append_cons '\n' before after
  rw [rawLines, rawLines, rawLines, List.append_assoc, ← List.map_append, ← hsplit]
  rfl

lemma rawLines_eq_singleton {t : Text} (h : '\n' ∉ t) : rawLines t = [dropReturns t] := by
  rw [rawLines, splitOn_eq_singleton h, List.map_singleton]

lemma rawLines_append_return (t : Text) : rawLines (t ++ ['\r']) = rawLines t := by
  by_cases hmem : '\n' ∈ t
  · obtain ⟨before, after, ht⟩ := List.append_of_mem hmem
    have hshorter : after.length < t.length := by
      rw [ht, List.length_append, List.length_cons]
      omega
    have hwhole := rawLines_append before (after ++ ['\r'])
    rw [rawLines_append_return after, ← rawLines_append] at hwhole
    simpa [ht] using hwhole
  · have hlast : dropReturns (t ++ ['\r']) = dropReturns t := by
      simp [dropReturns, Text.dropEndWhile]
    rw [rawLines_eq_singleton hmem, rawLines_eq_singleton (by simpa using hmem), hlast]
termination_by t.length

lemma spokenLines_append (before after : Text) :
    spokenLines (before ++ "\n" ++ after) = spokenLines before ++ spokenLines after := by
  rw [spokenLines, rawLines_append, List.filter_append]
  rfl

lemma IdleLine.spokenLines {line : Text} (h : IdleLine line) : spokenLines line = [] := by
  have hidle : Offside.isIdle (dropReturns line) = true := by
    rw [Offside.isIdle, ofText_dropReturns]
    exact h.isIdle
  rw [Offside.spokenLines, rawLines_eq_singleton h.unbroken]
  simp [hidle]

lemma spokenLines_eq_of_edit {source source' : Text} (h : SheetEdit source source') :
    spokenLines source = spokenLines source' := by
  cases h with
  | insertFirst h => rw [spokenLines_append, h.spokenLines, List.nil_append]
  | insertBetween before h after =>
      rw [spokenLines_append, spokenLines_append, spokenLines_append, h.spokenLines,
        List.append_nil]
  | insertLast source h => rw [spokenLines_append, h.spokenLines, List.append_nil]
  | returnLine before after =>
      have hreturn : spokenLines (before ++ ['\r']) = spokenLines before := by
        rw [spokenLines, rawLines_append_return]
        rfl
      have hafter := spokenLines_append (before ++ ['\r']) after
      rw [hreturn, ← spokenLines_append] at hafter
      simpa using hafter.symm

lemma spokenLines_eq_of_edits {source source' : Text}
    (h : Relation.EqvGen SheetEdit source source') : spokenLines source = spokenLines source' := by
  induction h with
  | rel source source' h => exact spokenLines_eq_of_edit h
  | refl source => rfl
  | symm source source' h ih => exact ih.symm
  | trans source middle source' h h' ih ih' => exact ih.trans ih'

/-! ## Runs over spoken lines -/

/-- Number the lines of what a stylesheet is parsed to in another way. -/
def StyleParse.renumber (f : Nat → Nat) (parsed : StyleParse) : StyleParse :=
  ⟨StyleOutline.renumber f parsed.outline, parsed.warnings.map (StyleWarning.renumber f)⟩

/-- A spoken line, measured but not numbered. -/
def spokenLine (unit : IndentUnit) (raw : Text) : SourceLine := ⟨0, raw, unit.depth raw⟩

namespace StyleBuilder

variable (b : StyleBuilder)

/-- An idle line changes nothing: neither the open rules nor the group, neither what is held back
nor the constants. -/
lemma step_of_isIdle {line : SourceLine} (h : isIdle line.raw = true) : b.step line = .ok b := by
  have hcontent : StyleLine.ofText line.content = StyleLine.ofText line.raw :=
    ofText_dropWhile_isIndent line.raw
  simp only [isIdle, Bool.or_eq_true, beq_iff_eq] at h
  rw [step, hcontent]
  rcases h with hblank | hcomment
  · rw [hblank]
  · rw [hcomment]

lemma foldlM_eq_foldlM_filter (lines : List SourceLine) :
    lines.foldlM step b = (lines.filter fun line => !isIdle line.raw).foldlM step b := by
  induction lines generalizing b with
  | nil => rfl
  | cons line lines ih =>
      by_cases hidle : isIdle line.raw = true
      · rw [List.filter_cons_of_neg (by simpa using hidle), List.foldlM_cons,
          step_of_isIdle b hidle]
        exact ih b
      · rw [List.filter_cons_of_pos (by simpa using hidle), List.foldlM_cons, List.foldlM_cons]
        cases b.step line with
        | error fault => rfl
        | ok next => exact ih next

/-- What is left at the end of a source. -/
def finish (b : StyleBuilder) : StyleParse := ⟨b.flush.rules.outline, b.flush.warnings⟩

lemma finish_renumber (f : Nat → Nat) : (b.renumber f).finish = b.finish.renumber f := by
  rw [finish, flush_renumber]
  rfl

end StyleBuilder

lemma parseStyles_eq (unit : IndentUnit) (constants : List (Text × Text)) (source : Text) :
    parseStyles unit constants source
      = ((sourceLines unit source).foldlM StyleBuilder.step (.start (.ofList constants))).map
          StyleBuilder.finish := by
  rw [parseStyles]
  cases (sourceLines unit source).foldlM StyleBuilder.step (.start (.ofList constants)) with
  | error fault => rfl
  | ok b => rfl

lemma filter_numberLines (unit : IndentUnit) (first : Nat) (raws : List Text) :
    ((numberLines unit first raws).filter fun line => !isIdle line.raw).map
        (SourceLine.renumber fun _ => 0)
      = (raws.filter fun raw => !isIdle raw).map (spokenLine unit) := by
  induction raws generalizing first with
  | nil => rfl
  | cons raw raws ih =>
      by_cases hidle : isIdle raw = true
      · simp [numberLines, hidle, ih]
      · simp [numberLines, hidle, ih, SourceLine.renumber, spokenLine]

/-- Up to line numbers, what a source is parsed to depends on its spoken lines alone. -/
lemma parseStyles_spoken (unit : IndentUnit) (constants : List (Text × Text)) (source : Text) :
    ((parseStyles unit constants source).mapError (StyleFault.renumber fun _ => 0)).map
        (StyleParse.renumber fun _ => 0)
      = (((spokenLines source).map (spokenLine unit)).foldlM StyleBuilder.step
          (.start (.ofList constants))).map StyleBuilder.finish := by
  have hstart : (StyleBuilder.start (.ofList constants)).renumber (fun _ => 0)
      = .start (.ofList constants) := rfl
  rw [spokenLines, ← filter_numberLines unit 1, ← hstart, StyleBuilder.foldlM_renumber,
    ← StyleBuilder.foldlM_eq_foldlM_filter, parseStyles_eq, sourceLines]
  cases (numberLines unit 1 (rawLines source)).foldlM StyleBuilder.step
      (.start (.ofList constants)) with
  | error fault => rfl
  | ok b => exact congrArg Except.ok (b.finish_renumber fun _ => 0).symm

/-! ## Compiling -/

/-- Number the line of an error in another way. -/
def StylesheetError.renumber (f : Nat → Nat) : StylesheetError → StylesheetError
  | calculation fault => calculation (fault.renumber f)
  | sourceNotFound path => sourceNotFound path
  | unreadable path cause => unreadable path cause
  | unknownStyle name => unknownStyle name
  | artifact cause => artifact cause

namespace StyleCompiler

variable {c : StyleCompiler}

lemma renderOutline_renumber (hstyles : c.styles = StyleRenderer.standard) (f : Nat → Nat)
    (outline : StyleOutline) (style : Text) :
    (c.renderOutline outline style).mapError (StylesheetError.renumber f)
      = c.renderOutline (StyleOutline.renumber f outline) style := by
  rw [renderOutline, renderOutline]
  cases hget : c.styles.get? style with
  | none => rfl
  | some renderer =>
      rw [hstyles] at hget
      have hsame := StyleRenderer.unnumbered_of_standard hget f outline
      simp only [hsame]
      rfl

/-- Numbering the line of the outcome in another way comes to the same as numbering what was parsed
in another way. -/
lemma compile_renumber (hstyles : c.styles = StyleRenderer.standard) (hcache : c.cache = none)
    (f : Nat → Nat) (constants : List (Text × Text)) (source : Text) (w : StyleWorkspace) :
    (c.compile constants source w).1.mapError (StylesheetError.renumber f)
      = if c.styles.has c.settings.style then
          ((((parseStyles c.settings.indent constants source).mapError
            (StyleFault.renumber f)).map (StyleParse.renumber f)).mapError .calculation).bind
              fun parsed => c.renderOutline parsed.outline c.settings.style
        else .error (.unknownStyle c.settings.style) := by
  rw [compile, hcache]
  by_cases hknown : c.styles.has c.settings.style = true
  · simp only [hknown, build, parse, if_true, Bool.not_true, Bool.false_eq_true, if_false]
    cases parseStyles c.settings.indent constants source with
    | error fault => rfl
    | ok parsed => exact renderOutline_renumber hstyles f parsed.outline c.settings.style
  · simp [hknown, Except.mapError, StylesheetError.renumber]

/-- Idle lines and the way lines end do not show in the outcome: a source that is changed by any
number of such edits gives the same text, or the same error but for the number of the line. -/
theorem compile_idle_lines (hstyles : c.styles = StyleRenderer.standard) (hcache : c.cache = none)
    {source source' : Text} (h : Relation.EqvGen SheetEdit source source')
    (constants : List (Text × Text)) (w : StyleWorkspace) :
    (c.compile constants source w).1.mapError (StylesheetError.renumber fun _ => 0)
      = (c.compile constants source' w).1.mapError (StylesheetError.renumber fun _ => 0) := by
  rw [compile_renumber hstyles hcache, compile_renumber hstyles hcache, parseStyles_spoken,
    parseStyles_spoken, spokenLines_eq_of_edits h]

/-- A comment between a group and its attribute, indented less than both, and a carriage return. -/
theorem compile_idle_lines_in_group :
    let c := (ofSettings .standard emptyWorkspace.files).withoutCache
    let plain : Text := "a\n  :font\n    :size 1px"
    let edited : Text := "a\r\n  :font\n\t// note\n    :size 1px"
    Relation.EqvGen SheetEdit plain edited ∧
      (c.compile [] edited emptyWorkspace).1.mapError (StylesheetError.renumber fun _ => 0)
        = .ok "a \x7b\n  font-size: 1px; \x7d" := by
  intro c plain edited
  have hplain : plain = "a\n  :font" ++ "\n" ++ "    :size 1px" := by decide +kernel
  have hnoted : ("a\n  :font" ++ "\n" ++ "\t// note" ++ "\n" ++ "    :size 1px" : Text)
      = "a" ++ "\n" ++ "  :font\n\t// note\n    :size 1px" := by
    decide +kernel
  have hedited : edited = "a" ++ "\r\n" ++ "  :font\n\t// note\n    :size 1px" := by
    decide +kernel
  have hnote : SheetEdit plain
      ("a\n  :font" ++ "\n" ++ "\t// note" ++ "\n" ++ "    :size 1px") := by
    rw [hplain]
    exact .insertBetween _ (by decide +kernel) _
  have hreturn : SheetEdit ("a\n  :font" ++ "\n" ++ "\t// note" ++ "\n" ++ "    :size 1px")
      edited := by
    rw [hnoted, hedited]
    exact .returnLine _ _
  have hedits : Relation.EqvGen SheetEdit plain edited :=
    .trans _ _ _ (.rel _ _ hnote) (.rel _ _ hreturn)
  refine ⟨hedits, (compile_idle_lines rfl rfl hedits [] emptyWorkspace).symm.trans ?_⟩
  decide +kernel

/-- An error does tell where its line stands. -/
example :
    let c := (ofSettings .standard emptyWorkspace.files).withoutCache
    (c.compile [] "a\n  :top = (1px" emptyWorkspace).1
        = .error (.calculation ⟨2, .unbalanced "(1px"⟩) ∧
      (c.compile [] "a\n\n  :top = (1px" emptyWorkspace).1
        = .error (.calculation ⟨3, .unbalanced "(1px"⟩) := by
  decide +kernel

end StyleCompiler

end Offside
