import Mathlib
import Offside.Proofs.Indentation
import Offside.Proofs.KeptStyles
import Offside.Proofs.Paths
import Offside.Stylesheet.Compiler

/-!
# How levels are spelled

A level of indentation can be written as a tab or as a run of spaces, whatever the unit is, and both
can be mixed on one line.  A stylesheet that is compiled afresh does not show how its levels were
spelled.

**One line.**  Both spellings of a level fill one unit, so a line stands as deep as it has levels
(`SpelledLine.depth_raw`), and its content is what is left without them
(`SpelledLine.content_raw`).

**A whole source.**  A line is taken in by its number, its depth and its content
(`StyleBuilder.step_congr`).  Two spellings of the same lines agree in all three
(`sameReading_sourceLines`), so they are parsed alike, and what is compiled from them is the same
(`compile_spelled`).

**Kept output** is found by the text of the source, and comes back without the white space at its
beginning.  So a spelling that was compiled before can have another answer than one that was not
(`compile_spelled_kept`).
-/

namespace Offside

/-- The two ways to write one level. -/
inductive LevelSpelling where
  | tab
  | spaces
  deriving Repr, DecidableEq

/-- A line whose levels are spelled one by one. -/
structure SpelledLine where
  levels : List LevelSpelling
  content : Text
  deriving Repr, DecidableEq

namespace IndentUnit

/-- One level as it is spelled: a tab, or the spaces that make a unit. -/
def levelText (unit : IndentUnit) : LevelSpelling → Text
  | .tab => ['\t']
  | .spaces => List.replicate unit.columns ' '

variable {unit : IndentUnit}

lemma isIndent_of_mem_levelText {spelling : LevelSpelling} {c : Char}
    (h : c ∈ unit.levelText spelling) : isIndent c = true := by
  cases spelling with
  | tab =>
      rw [List.mem_singleton.1 h]
      rfl
  | spaces =>
      rw [List.eq_of_mem_replicate h]
      rfl

/-- However a level is spelled, it fills one unit. -/
lemma leadingColumns_levelText (unit : IndentUnit) (spelling : LevelSpelling) :
    unit.leadingColumns (unit.levelText spelling) = unit.columns := by
  cases spelling with
  | tab => exact leadingColumns_replicate unit (c := '\t') rfl 1 |>.trans (Nat.one_mul _)
  | spaces => exact leadingColumns_replicate unit (c := ' ') rfl _ |>.trans (Nat.mul_one _)

/-- All levels of a line. -/
def levelsText (unit : IndentUnit) (levels : List LevelSpelling) : Text :=
  levels.flatMap unit.levelText

lemma isIndent_of_mem_levelsText {levels : List LevelSpelling} {c : Char}
    (h : c ∈ unit.levelsText levels) : isIndent c = true := by
  obtain ⟨spelling, -, hc⟩ := List.mem_flatMap.1 h
  exact isIndent_of_mem_levelText hc

lemma leadingColumns_levelsText (unit : IndentUnit) (levels : List LevelSpelling) :
    unit.leadingColumns (unit.levelsText levels) = levels.length * unit.columns := by
  induction levels with
  | nil => simp [levelsText, leadingColumns]
  | cons spelling levels ih =>
      rw [levelsText, List.flatMap_cons,
        leadingColumns_append unit fun _ hc => isIndent_of_mem_levelText hc,
        leadingColumns_levelText, ← levelsText, ih, List.length_cons, Nat.succ_mul, Nat.add_comm]

lemma leadingColumns_levelsText_append (unit : IndentUnit) (levels : List LevelSpelling) {t : Text}
    (ht : ∀ c ∈ t.head?, isIndent c = false) :
    unit.leadingColumns (unit.levelsText levels ++ t) = levels.length * unit.columns := by
  rw [leadingColumns_append unit fun _ hc => isIndent_of_mem_levelsText hc,
    leadingColumns_levelsText, leadingColumns_of_head? unit ht, Nat.add_zero]

/-- Levels are counted one by one in front of a text that is not indented itself. -/
lemma depth_levelsText_append (unit : IndentUnit) (levels : List LevelSpelling) {t : Text}
    (ht : ∀ c ∈ t.head?, isIndent c = false) :
    unit.depth (unit.levelsText levels ++ t) = levels.length := by
  have hpos := unit.columns_pos
  rw [depth, leadingColumns_levelsText_append unit levels ht, Nat.add_sub_assoc hpos, Nat.mul_comm,
    Nat.mul_add_div hpos, Nat.div_eq_of_lt (by omega), Nat.add_zero]

end IndentUnit

namespace SpelledLine

variable {unit : IndentUnit} {line : SpelledLine}

/-- The line as it is written for a unit. -/
def text (unit : IndentUnit) (line : SpelledLine) : Text :=
  unit.levelsText line.levels ++ line.content

/-- How deep the line is meant to stand, and what it says. -/
def meaning (line : SpelledLine) : Nat × Text := (line.levels.length, line.content)

/-- The content begins where the levels end, and stays on its line. -/
structure OnOneLine (content : Text) : Prop where
  start : ∀ c ∈ content.head?, isIndent c = false
  unbroken : '\n' ∉ content

instance (content : Text) : Decidable (OnOneLine content) :=
  decidable_of_iff ((content.head?.all fun c => !isIndent c) = true ∧ '\n' ∉ content)
    ⟨fun h => ⟨by simpa [Option.all_eq_true] using h.1, h.2⟩,
      fun h => ⟨by simpa [Option.all_eq_true] using h.start, h.unbroken⟩⟩

lemma newline_notMem_text (h : OnOneLine line.content) : '\n' ∉ line.text unit := by
  rw [text, List.mem_append, not_or]
  refine ⟨fun hmem => ?_, h.unbroken⟩
  exact absurd (IndentUnit.isIndent_of_mem_levelsText hmem) (by decide)

/-- Carriage returns at the end are those of the content. -/
lemma dropReturns_text (line : SpelledLine) :
    dropReturns (line.text unit) = unit.levelsText line.levels ++ dropReturns line.content := by
  refine dropEndWhile_append (fun c hc => ?_) line.content
  have hindent := IndentUnit.isIndent_of_mem_levelsText (List.mem_of_getLast? hc)
  rw [beq_eq_false_iff_ne]
  rintro rfl
  exact absurd hindent (by decide)

lemma OnOneLine.head?_dropReturns {content : Text} (h : OnOneLine content) :
    ∀ c ∈ (dropReturns content).head?, isIndent c = false := by
  obtain ⟨returns, hreturns⟩ : dropReturns content <+: content := List.rdropWhile_prefix _ _
  intro c hc
  refine h.start c ?_
  rw [← hreturns]
  exact List.mem_head?_append_of_mem_head? hc

lemma depth_raw (h : OnOneLine line.content) :
    unit.depth (dropReturns (line.text unit)) = line.levels.length := by
  rw [dropReturns_text]
  exact unit.depth_levelsText_append _ h.head?_dropReturns

lemma leadingColumns_raw (h : OnOneLine line.content) :
    unit.leadingColumns (dropReturns (line.text unit)) = line.levels.length * unit.columns := by
  rw [dropReturns_text]
  exact unit.leadingColumns_levelsText_append _ h.head?_dropReturns

lemma content_raw (h : OnOneLine line.content) :
    (dropReturns (line.text unit)).dropWhile isIndent = dropReturns line.content := by
  rw [dropReturns_text,
    List.dropWhile_append_of_pos fun _ hc => IndentUnit.isIndent_of_mem_levelsText hc]
  cases hcontent : dropReturns line.content with
  | nil => rfl
  | cons c cs =>
      have hc := h.head?_dropReturns c (by rw [hcontent]; rfl)
      rw [List.dropWhile_cons, hc, if_neg Bool.false_ne_true]

/-- The columns of every line can be counted in a word. -/
def FitWords (unit : IndentUnit) (lines : List SpelledLine) : Prop :=
  ∀ line ∈ lines, line.levels.length * unit.columns < Text.wordLimit

instance (unit : IndentUnit) (lines : List SpelledLine) : Decidable (FitWords unit lines) :=
  inferInstanceAs (Decidable (∀ line ∈ lines, line.levels.length * unit.columns < Text.wordLimit))

lemma onOneLine_of_meaning {first second : List SpelledLine}
    (hmeaning : first.map meaning = second.map meaning)
    (h : ∀ line ∈ first, OnOneLine line.content) : ∀ line ∈ second, OnOneLine line.content := by
  intro line hline
  have hmem := List.mem_map_of_mem (f := meaning) hline
  rw [← hmeaning] at hmem
  obtain ⟨other, hother, heq⟩ := List.mem_map.1 hmem
  exact (Prod.mk.inj heq).2 ▸ h other hother

end SpelledLine

/-- The source that has the given lines. -/
def spelledSource (unit : IndentUnit) (lines : List SpelledLine) : Text :=
  Text.join "\n" (lines.map (SpelledLine.text unit))

lemma rawLines_spelledSource (unit : IndentUnit) {lines : List SpelledLine} (hne : lines ≠ [])
    (h : ∀ line ∈ lines, SpelledLine.OnOneLine line.content) :
    rawLines (spelledSource unit lines)
      = lines.map fun line => dropReturns (line.text unit) := by
  have hsplit : Text.splitOn '\n' (spelledSource unit lines)
      = lines.map (SpelledLine.text unit) := by
    refine splitOn_join (by simpa using hne) fun piece hpiece => ?_
    obtain ⟨line, hline, rfl⟩ := List.mem_map.1 hpiece
    exact SpelledLine.newline_notMem_text (h line hline)
  rw [rawLines, hsplit, List.map_map]
  rfl

lemma raw_of_mem_numberLines {unit : IndentUnit} {first : Nat} {raws : List Text}
    {line : SourceLine} (h : line ∈ numberLines unit first raws) :
    line.raw ∈ raws ∧ line.depth = unit.depth line.raw := by
  induction raws generalizing first with
  | nil => cases h
  | cons raw raws ih =>
      rcases List.mem_cons.1 h with rfl | h
      · exact ⟨List.mem_cons_self, rfl⟩
      · exact ⟨List.mem_cons_of_mem _ (ih h).1, (ih h).2⟩

/-- The depths that a source is compiled by are those that a word counts. -/
lemma wordDepth_sourceLines {unit : IndentUnit} {lines : List SpelledLine}
    (h : ∀ line ∈ lines, SpelledLine.OnOneLine line.content)
    (hfits : SpelledLine.FitWords unit lines) :
    ∀ line ∈ sourceLines unit (spelledSource unit lines), unit.wordDepth line.raw = line.depth := by
  intro line hline
  obtain ⟨hraw, hdepth⟩ := raw_of_mem_numberLines hline
  rw [hdepth]
  refine unit.wordDepth_eq_depth ?_
  rcases eq_or_ne lines [] with rfl | hne
  · have hempty : line.raw = [] := List.mem_singleton.1 hraw
    rw [hempty, unit.leadingColumns_of_head? (by simp)]
    decide
  · rw [rawLines_spelledSource unit hne h] at hraw
    obtain ⟨spelled, hspelled, hraw⟩ := List.mem_map.1 hraw
    rw [← hraw, SpelledLine.leadingColumns_raw (h spelled hspelled)]
    exact hfits spelled hspelled

/-! ## What a line is taken in by -/

/-- Two lines that are read alike. -/
structure SourceLine.SameReading (first second : SourceLine) : Prop where
  number : first.number = second.number
  depth : first.depth = second.depth
  content : first.content = second.content

lemma SourceLine.SameReading.refl (line : SourceLine) : SameReading line line := ⟨rfl, rfl, rfl⟩

namespace StyleBuilder

lemma step_congr {first second : SourceLine} (h : first.SameReading second) (b : StyleBuilder) :
    b.step first = b.step second := by
  rw [step, step, h.content, h.depth, h.number]

lemma foldlM_step_congr {first second : List SourceLine}
    (h : List.Forall₂ SourceLine.SameReading first second) (b : StyleBuilder) :
    first.foldlM step b = second.foldlM step b := by
  induction h generalizing b with
  | nil => rfl
  | cons hline _ ih =>
      rw [List.foldlM_cons, List.foldlM_cons, step_congr hline]
      exact congrArg _ (funext ih)

end StyleBuilder

/-! ## Two spellings -/

section Spellings

variable {unit₁ unit₂ : IndentUnit} {first second : List SpelledLine}

lemma sameReading_numberLines (number : Nat)
    (hmeaning : first.map SpelledLine.meaning = second.map SpelledLine.meaning)
    (h : ∀ line ∈ first, SpelledLine.OnOneLine line.content) :
    List.Forall₂ SourceLine.SameReading
      (numberLines unit₁ number (first.map fun line => dropReturns (line.text unit₁)))
      (numberLines unit₂ number (second.map fun line => dropReturns (line.text unit₂))) := by
  induction first generalizing second number with
  | nil =>
      rw [List.map_eq_nil_iff.1 hmeaning.symm]
      exact .nil
  | cons line first ih =>
      cases second with
      | nil => cases hmeaning
      | cons other second =>
          obtain ⟨hsame, hrest⟩ := List.cons.inj hmeaning
          obtain ⟨hlevels, hcontent⟩ := Prod.mk.inj hsame
          have hline := h line List.mem_cons_self
          have hother : SpelledLine.OnOneLine other.content := hcontent ▸ hline
          refine .cons ⟨rfl, ?_, ?_⟩ (ih _ hrest fun l hl => h l (List.mem_cons_of_mem _ hl))
          · exact (SpelledLine.depth_raw hline).trans
              (hlevels.trans (SpelledLine.depth_raw hother).symm)
          · exact (SpelledLine.content_raw hline).trans
              ((congrArg dropReturns hcontent).trans (SpelledLine.content_raw hother).symm)

lemma sameReading_sourceLines
    (hmeaning : first.map SpelledLine.meaning = second.map SpelledLine.meaning)
    (h : ∀ line ∈ first, SpelledLine.OnOneLine line.content) :
    List.Forall₂ SourceLine.SameReading (sourceLines unit₁ (spelledSource unit₁ first))
      (sourceLines unit₂ (spelledSource unit₂ second)) := by
  have hsecond := SpelledLine.onOneLine_of_meaning hmeaning h
  rcases eq_or_ne first [] with rfl | hne
  · -- A source without lines is the empty text, which is one blank line for every unit.
    have hblank : ∀ unit : IndentUnit, unit.depth [] = 0 := fun unit =>
      unit.depth_levelsText_append [] (by simp)
    rw [List.map_eq_nil_iff.1 hmeaning.symm]
    exact .cons ⟨rfl, (hblank unit₁).trans (hblank unit₂).symm, rfl⟩ .nil
  · have hne' : second ≠ [] := by
      rintro rfl
      exact hne (List.map_eq_nil_iff.1 hmeaning)
    rw [sourceLines, sourceLines, rawLines_spelledSource unit₁ hne h,
      rawLines_spelledSource unit₂ hne' hsecond]
    exact sameReading_numberLines 1 hmeaning h

lemma parseStyles_spelled (unit₁ unit₂ : IndentUnit)
    (hmeaning : first.map SpelledLine.meaning = second.map SpelledLine.meaning)
    (h : ∀ line ∈ first, SpelledLine.OnOneLine line.content) (constants : List (Text × Text)) :
    parseStyles unit₁ constants (spelledSource unit₁ first)
      = parseStyles unit₂ constants (spelledSource unit₂ second) := by
  rw [parseStyles, parseStyles,
    StyleBuilder.foldlM_step_congr (sameReading_sourceLines hmeaning h)]

end Spellings

namespace StyleCompiler

/-- The compiler with another unit of indentation. -/
def withIndent (c : StyleCompiler) (unit : IndentUnit) : StyleCompiler :=
  { c with settings := { c.settings with indent := unit } }

lemma build_congr (c : StyleCompiler) {unit₁ unit₂ : IndentUnit} {constants : List (Text × Text)}
    {source₁ source₂ : Text}
    (h : parseStyles unit₁ constants source₁ = parseStyles unit₂ constants source₂)
    (w : StyleWorkspace) :
    (c.withIndent unit₁).build constants source₁ w
      = (c.withIndent unit₂).build constants source₂ w := by
  simp only [build, parse, withIndent, h]
  cases parseStyles unit₂ constants source₂ <;> rfl

/-- **How indentation is spelled cannot be seen** in what is compiled afresh.  Take two sources with
the same lines at the same depths, each written for a unit of its own and with every level spelled
as a tab or as spaces, so that the columns of every line fit in a word.  They are compiled to the
same answer, text or error, with the same warnings; and where output is kept, what is compiled to be
kept is the same.  Every line is read at the depth that is counted in words. -/
theorem compile_spelled (c : StyleCompiler) (unit₁ unit₂ : IndentUnit)
    (first second : List SpelledLine)
    (hmeaning : first.map SpelledLine.meaning = second.map SpelledLine.meaning)
    (h : ∀ line ∈ first, SpelledLine.OnOneLine line.content)
    (hfits₁ : SpelledLine.FitWords unit₁ first) (hfits₂ : SpelledLine.FitWords unit₂ second)
    (constants : List (Text × Text)) (w : StyleWorkspace) :
    (c.withIndent unit₁).withoutCache.compile constants (spelledSource unit₁ first) w
        = (c.withIndent unit₂).withoutCache.compile constants (spelledSource unit₂ second) w ∧
      (c.withIndent unit₁).build constants (spelledSource unit₁ first) w
        = (c.withIndent unit₂).build constants (spelledSource unit₂ second) w ∧
      (∀ line ∈ sourceLines unit₁ (spelledSource unit₁ first),
        unit₁.wordDepth line.raw = line.depth) ∧
      ∀ line ∈ sourceLines unit₂ (spelledSource unit₂ second),
        unit₂.wordDepth line.raw = line.depth := by
  have hparse := parseStyles_spelled unit₁ unit₂ hmeaning h constants
  refine ⟨?_, build_congr c hparse w, wordDepth_sourceLines h hfits₁,
    wordDepth_sourceLines (SpelledLine.onOneLine_of_meaning hmeaning h) hfits₂⟩
  have hbuild := build_congr c.withoutCache hparse w
  have hcompile : ∀ unit source, (c.withIndent unit).withoutCache.compile constants source w
      = if c.styles.has c.settings.style then
          (c.withoutCache.withIndent unit).build constants source w
        else (.error (.unknownStyle c.settings.style), w) := by
    intro unit source
    by_cases hstyle : c.styles.has c.settings.style = true
    · simp [compile, withoutCache, withIndent, hstyle]
    · simp [compile, withoutCache, withIndent, hstyle]
  rw [hcompile, hcompile, hbuild]

/-- The lines of a stylesheet, spelled for a unit of three spaces. -/
def threeSpaceLines : List SpelledLine :=
  [⟨[], "ul, ol"⟩, ⟨[.spaces], ":margin 0"⟩, ⟨[.tab], "li"⟩, ⟨[.spaces, .tab], ":font"⟩,
    ⟨[.tab, .spaces, .spaces], ":size = 4px / 2"⟩]

/-- The same lines, spelled for the tab. -/
def tabLines : List SpelledLine :=
  [⟨[], "ul, ol"⟩, ⟨[.tab], ":margin 0"⟩, ⟨[.spaces], "li"⟩, ⟨[.tab, .tab], ":font"⟩,
    ⟨[.spaces, .tab, .spaces], ":size = 4px / 2"⟩]

/-- Both are compiled to the same text, computed from one of them. -/
theorem compile_spelled_mixed :
    let c := ofSettings .standard emptyWorkspace.files
    let css : Text :=
      "ul, ol \x7b\n  margin: 0; \x7d\n  ul li, ol li \x7b\n    font-size: 2px; \x7d"
    spelledSource (.spaces 3) threeSpaceLines
        = "ul, ol\n   :margin 0\n\tli\n   \t:font\n\t      :size = 4px / 2" ∧
      spelledSource .tab tabLines
        = "ul, ol\n\t:margin 0\n    li\n\t\t:font\n    \t    :size = 4px / 2" ∧
      threeSpaceLines.map SpelledLine.meaning = tabLines.map SpelledLine.meaning ∧
      (∀ line ∈ threeSpaceLines, SpelledLine.OnOneLine line.content) ∧
      SpelledLine.FitWords (.spaces 3) threeSpaceLines ∧ SpelledLine.FitWords .tab tabLines ∧
      ((c.withIndent (.spaces 3)).withoutCache.compile []
        (spelledSource (.spaces 3) threeSpaceLines) emptyWorkspace).1 = .ok css ∧
      ((c.withIndent .tab).withoutCache.compile []
        (spelledSource .tab tabLines) emptyWorkspace).1 = .ok css := by
  intro c css
  have hmeaning : threeSpaceLines.map SpelledLine.meaning = tabLines.map SpelledLine.meaning := rfl
  have hlines : ∀ line ∈ threeSpaceLines, SpelledLine.OnOneLine line.content := by
    decide +kernel
  have hfirst : ((c.withIndent (.spaces 3)).withoutCache.compile []
      (spelledSource (.spaces 3) threeSpaceLines) emptyWorkspace).1 = .ok css := by
    decide +kernel
  have hfits₁ : SpelledLine.FitWords (.spaces 3) threeSpaceLines := by decide
  have hfits₂ : SpelledLine.FitWords .tab tabLines := by decide
  refine ⟨by decide +kernel, by decide +kernel, hmeaning, hlines, hfits₁, hfits₂, hfirst, ?_⟩
  rw [← hfirst,
    (compile_spelled c (.spaces 3) .tab _ _ hmeaning hlines hfits₁ hfits₂ [] emptyWorkspace).1]

/-- A level spelled as spaces, and then as a tab, for a compiler that has kept the output of the
first.  The answer to the first has lost the space before its brace, and the answer to the second
still has it. -/
theorem compile_spelled_kept :
    let spaced : List SpelledLine := [⟨[], ","⟩, ⟨[.spaces], ":top 0"⟩]
    let tabbed : List SpelledLine := [⟨[], ","⟩, ⟨[.tab], ":top 0"⟩]
    let first := spelledSource (.spaces 2) spaced
    let second := spelledSource (.spaces 2) tabbed
    spaced.map SpelledLine.meaning = tabbed.map SpelledLine.meaning ∧
      (keeping.compile [] first emptyWorkspace).1 = .ok " \x7b\n  top: 0; \x7d" ∧
      (keeping.compile [] first (keptWorkspace first)).1 = .ok "\x7b\n  top: 0; \x7d" ∧
      (keeping.compile [] second (keptWorkspace first)).1 = .ok " \x7b\n  top: 0; \x7d" := by
  decide +kernel

end StyleCompiler

end Offside
