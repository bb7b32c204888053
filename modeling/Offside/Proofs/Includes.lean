import Mathlib
import Offside.Proofs.Indentation
import Offside.Proofs.Runs
import Offside.Template.Source

/-!
# Static includes

The lines of a template are gone through again and again, and each time every line that includes a
file is replaced by the lines of that file, put as deep as the line.  Here this is compared with
expanding includes from the inside: a line is replaced by the lines of its file with all includes in
them expanded (`SourceReader.Expands`).

**One pass.**  For lines that are neither continued nor pushed, a pass replaces each line by its
splice and does nothing else (`resolveOnce_eq_ok_iff`).  The lines that are put in are deeper than
they were in their file, and a later pass measures them so.  Since levels add up, expanding lines
and putting them deeper can be done in either order (`Expands.indented`), and therefore a pass does
not change what lines expand to (`Expands.flatMap_splice`).

**Passes and nesting.**  A pass takes one level off the nesting of includes
(`nestsTo_flatMap_splice`).  So as many passes are needed as includes nest deep, and a cycle needs
more than any number (`nestsTo_of_cycle`).
-/

namespace Offside

/-! ## Lines that stay where they are -/

/-- Whether a line is neither continued nor pushed deeper. -/
def staysPut (t : Text) : Bool := (continued? t).isNone && (depthOverride? t).isNone

/-- Both directives at the end of a line are read from its last character that is not blank
backwards, and this does not see what stands in front of the line. -/
lemma exists_reverse_dropWhile {t : Text} (h : Text.isBlankText t = false) :
    ∃ c cs, t.reverse.dropWhile Text.isBlank = c :: cs ∧ ∀ pad : Text,
      (pad ++ t).reverse.dropWhile Text.isBlank = c :: cs ++ pad.reverse := by
  obtain ⟨d, hd, hvisible⟩ := exists_of_not_isBlankText h
  have hkept : t.reverse.dropWhile Text.isBlank ≠ [] := by
    intro hempty
    have hblank := List.dropWhile_eq_nil_iff.1 hempty d (List.mem_reverse.2 hd)
    rw [hvisible] at hblank
    cases hblank
  obtain ⟨c, cs, hcs⟩ := List.exists_cons_of_ne_nil hkept
  refine ⟨c, cs, hcs, fun pad => ?_⟩
  rw [List.reverse_append, List.dropWhile_append, hcs]
  rfl

lemma continued?_eq (t : Text) :
    continued? t
      = (Text.dropPrefix? ['|'] (t.reverse.dropWhile Text.isBlank)).map List.reverse := by
  rw [continued?, Text.dropSuffix?, Text.trimEnd, Text.dropEndWhile, List.reverse_reverse]
  rfl

lemma isNone_continued?_append {t : Text} (h : Text.isBlankText t = false) (pad : Text) :
    (continued? (pad ++ t)).isNone = (continued? t).isNone := by
  obtain ⟨c, cs, hcs, happend⟩ := exists_reverse_dropWhile h
  rw [continued?_eq, continued?_eq, happend, hcs, List.cons_append]
  rcases eq_or_ne c '|' with rfl | hc
  · rfl
  · simp [Text.dropPrefix?, Ne.symm hc]

/-- The digits of a depth override, and the question mark before them. -/
def endsInOverride (reversed : Text) : Bool :=
  !(reversed.takeWhile Text.isDigit).isEmpty &&
    (reversed.dropWhile Text.isDigit).head? == some '?'

lemma isSome_depthOverride? (t : Text) :
    (depthOverride? t).isSome = endsInOverride (t.reverse.dropWhile Text.isBlank) := by
  rw [depthOverride?, List.span_eq_takeWhile_dropWhile, endsInOverride]
  generalize (t.reverse.dropWhile Text.isBlank).takeWhile Text.isDigit = digits
  generalize (t.reverse.dropWhile Text.isBlank).dropWhile Text.isDigit = before
  cases digits with
  | nil => rfl
  | cons d digits =>
      cases before with
      | nil => rfl
      | cons c before => by_cases hc : c = '?' <;> simp [hc]

/-- A depth override does not go on past a character that is neither a digit nor a question mark. -/
lemma endsInOverride_append {reversed pad : Text}
    (hpad : ∀ c ∈ pad.head?, Text.isDigit c = false ∧ c ≠ '?') :
    endsInOverride (reversed ++ pad) = endsInOverride reversed := by
  have hnone : pad.takeWhile Text.isDigit = [] ∧ pad.dropWhile Text.isDigit = pad ∧
      (pad.head? == some '?') = false := by
    cases pad with
    | nil => exact ⟨rfl, rfl, rfl⟩
    | cons c pad =>
        obtain ⟨hdigit, hmark⟩ := hpad c rfl
        simp [hdigit, hmark]
  have hall : (reversed.takeWhile Text.isDigit).length = reversed.length ↔
      reversed.dropWhile Text.isDigit = [] := by
    have hlength := congrArg List.length
      (List.takeWhile_append_dropWhile (p := Text.isDigit) (l := reversed))
    rw [List.length_append] at hlength
    rw [← List.length_eq_zero_iff]
    omega
  rw [endsInOverride, List.takeWhile_append, List.dropWhile_append, endsInOverride, hnone.1,
    hnone.2.1, List.append_nil]
  cases hdrop : reversed.dropWhile Text.isDigit with
  | nil => simp [hnone.2.2]
  | cons c rest => simp [hall, hdrop]

lemma isNone_depthOverride?_append {t : Text} (h : Text.isBlankText t = false) {pad : Text}
    (hpad : ∀ c ∈ pad.getLast?, Text.isDigit c = false ∧ c ≠ '?') :
    (depthOverride? (pad ++ t)).isNone = (depthOverride? t).isNone := by
  obtain ⟨c, cs, hcs, happend⟩ := exists_reverse_dropWhile h
  rw [← Option.not_isSome, ← Option.not_isSome, isSome_depthOverride?, isSome_depthOverride?,
    happend, hcs, endsInOverride_append (by simpa using hpad)]

lemma staysPut_append {t : Text} (h : Text.isBlankText t = false) {pad : Text}
    (hpad : ∀ c ∈ pad.getLast?, Text.isDigit c = false ∧ c ≠ '?') :
    staysPut (pad ++ t) = staysPut t := by
  rw [staysPut, isNone_continued?_append h, isNone_depthOverride?_append h hpad, staysPut]

lemma staysPut_repeated_append {t : Text} (h : Text.isBlankText t = false) (unit : IndentUnit)
    (levels : Nat) : staysPut (unit.repeated levels ++ t) = staysPut t := by
  refine staysPut_append h fun c hc => ?_
  have hindent := IndentUnit.isIndent_of_mem_repeated (List.mem_of_getLast? hc)
  simp only [isIndent, Bool.or_eq_true, beq_iff_eq] at hindent
  rcases hindent with rfl | rfl <;> decide

lemma staysPut_nil : staysPut [] = true := rfl

/-- A line that includes a file is not blank. -/
lemma isBlankText_of_staticInclude? {t name : Text} (h : staticInclude? t = some name) :
    Text.isBlankText t = false := by
  by_contra hblank
  rw [Bool.not_eq_false] at hblank
  have hempty : Text.trimStart t = [] :=
    List.dropWhile_eq_nil_iff.2 (List.all_eq_true.1 hblank)
  rw [staticInclude?, hempty] at h
  cases h

@[simp] lemma staticInclude?_repeated_append (unit : IndentUnit) (levels : Nat) (t : Text) :
    staticInclude? (unit.repeated levels ++ t) = staticInclude? t := by
  rw [staticInclude?, unit.trimStart_repeated_append, staticInclude?]

namespace OriginLine

/-- Put a line deeper; nothing is left of a blank one. -/
def indent (unit : IndentUnit) (levels : Nat) (line : OriginLine) : OriginLine :=
  { line with
    text := if Text.isBlankText line.text then [] else unit.repeated levels ++ line.text }

variable (unit : IndentUnit) (levels : Nat) (line : OriginLine)

@[simp] lemma staticInclude?_indent :
    staticInclude? (line.indent unit levels).text = staticInclude? line.text := by
  rw [indent]
  split_ifs with hblank
  · cases hname : staticInclude? line.text with
    | none => rfl
    | some name =>
        rw [isBlankText_of_staticInclude? hname] at hblank
        cases hblank
  · exact staticInclude?_repeated_append unit levels line.text

lemma staysPut_indent (h : staysPut line.text = true) :
    staysPut (line.indent unit levels).text = true := by
  rw [indent]
  split_ifs with hblank
  · exact staysPut_nil
  · rw [← h]
    exact staysPut_repeated_append (Bool.not_eq_true _ ▸ hblank) unit levels

/-- Putting a line deeper twice. -/
lemma indent_indent {first second both : Nat}
    (hboth : unit.repeated both = unit.repeated first ++ unit.repeated second) :
    (line.indent unit second).indent unit first = line.indent unit both := by
  by_cases hblank : Text.isBlankText line.text = true
  · have hnil : Text.isBlankText [] = true := rfl
    simp [indent, hblank, hnil]
  · simp [indent, hblank, hboth]

end OriginLine

namespace SourceReader

variable {r : SourceReader}

/-! ## Expanding -/

/-- The text of the file that a name stands for, if there is one and it can be read. -/
def included? (r : SourceReader) (name : Text) : Option Text :=
  if r.files.isFile (r.includePath name) then (r.files.readText (r.includePath name)).toOption
  else none

/-- The lines of the file that a name stands for, as they are in the file. -/
def includedLines (r : SourceReader) (name : Text) : List OriginLine :=
  match r.included? name with
  | some content =>
    (fileLines content).map fun line => ⟨dropReturns line, some (r.includePath name)⟩
  | none => []

/-- The lines of a source, none of them from an included file. -/
def ownLines (source : Text) : List OriginLine := (rawLines source).map fun text => ⟨text, none⟩

/-- **What lines expand to.**  A line that includes a file is replaced by what the lines of the file
expand to, as deep as the line. -/
inductive Expands (r : SourceReader) : List OriginLine → List OriginLine → Prop where
  | nil : Expands r [] []
  | keep {line : OriginLine} {lines out : List OriginLine} :
      staticInclude? line.text = none → Expands r lines out →
      Expands r (line :: lines) (line :: out)
  | splice {line : OriginLine} {lines body out : List OriginLine} {name : Text} :
      staticInclude? line.text = some name → (r.included? name).isSome →
      Expands r (r.includedLines name) body → Expands r lines out →
      Expands r (line :: lines)
        (body.map (.indent r.settings.indent (r.settings.indent.depth line.text)) ++ out)

/-- A name is included by one of the lines, or by a line of a file that is reached from them. -/
inductive Reaches (r : SourceReader) (lines : List OriginLine) : Text → Prop where
  | here {line : OriginLine} {name : Text} :
      line ∈ lines → staticInclude? line.text = some name → Reaches r lines name
  | there {line : OriginLine} {name next : Text} :
      Reaches r lines name → line ∈ r.includedLines name →
      staticInclude? line.text = some next → Reaches r lines next

/-- Whether includes nest to a depth: a line includes a file, a line of that file another one, and
so on. -/
def nestsTo (r : SourceReader) : Nat → List OriginLine → Bool
  | 0, _ => true
  | depth + 1, lines =>
    lines.any fun line =>
      (staticInclude? line.text).any fun name => r.nestsTo depth (r.includedLines name)

lemma nestsTo_succ_iff {depth : Nat} {lines : List OriginLine} :
    r.nestsTo (depth + 1) lines = true ↔ ∃ line ∈ lines, ∃ name,
      staticInclude? line.text = some name ∧ r.nestsTo depth (r.includedLines name) = true := by
  simp only [nestsTo, List.any_eq_true, Option.any_eq_true]

lemma nestsTo_append (depth : Nat) (first second : List OriginLine) :
    r.nestsTo (depth + 1) (first ++ second)
      = (r.nestsTo (depth + 1) first || r.nestsTo (depth + 1) second) :=
  List.any_append

lemma nestsTo_of_succ {depth : Nat} {lines : List OriginLine}
    (h : r.nestsTo (depth + 1) lines = true) : r.nestsTo depth lines = true := by
  induction depth generalizing lines with
  | zero => rfl
  | succ depth ih =>
      obtain ⟨line, hline, name, hname, hnext⟩ := nestsTo_succ_iff.1 h
      exact nestsTo_succ_iff.2 ⟨line, hline, name, hname, ih hnext⟩

lemma Reaches.nestsTo {lines : List OriginLine} {name : Text} (h : r.Reaches lines name)
    {depth : Nat} (hname : r.nestsTo depth (r.includedLines name) = true) :
    r.nestsTo (depth + 1) lines = true := by
  induction h generalizing depth with
  | here hline hinclude => exact nestsTo_succ_iff.2 ⟨_, hline, _, hinclude, hname⟩
  | there _ hline hinclude ih =>
      exact nestsTo_of_succ (ih (nestsTo_succ_iff.2 ⟨_, hline, _, hinclude, hname⟩))

/-- Where a file that is reached leads back to itself, includes nest without end. -/
lemma nestsTo_of_cycle {lines : List OriginLine} {name : Text} (hreach : r.Reaches lines name)
    (hcycle : r.Reaches (r.includedLines name) name) (depth : Nat) :
    r.nestsTo depth lines = true := by
  have hname : ∀ depth, r.nestsTo depth (r.includedLines name) = true := by
    intro depth
    induction depth with
    | zero => rfl
    | succ depth ih => exact hcycle.nestsTo ih
  exact nestsTo_of_succ (hreach.nestsTo (hname depth))

/-- Everything that is reached is among names that lead only to each other. -/
lemma Reaches.mem_of_closed {lines : List OriginLine} {name : Text} (h : r.Reaches lines name)
    {names : List Text} (hlines : ∀ line ∈ lines, ∀ name ∈ staticInclude? line.text, name ∈ names)
    (hnames : ∀ name ∈ names, ∀ line ∈ r.includedLines name,
      ∀ next ∈ staticInclude? line.text, next ∈ names) : name ∈ names := by
  induction h with
  | here hline hinclude => exact hlines _ hline _ hinclude
  | there _ hline hinclude ih => exact hnames _ ih _ hline _ hinclude

namespace Expands

lemma append {first second out₁ out₂ : List OriginLine} (h₁ : r.Expands first out₁)
    (h₂ : r.Expands second out₂) : r.Expands (first ++ second) (out₁ ++ out₂) := by
  induction h₁ with
  | nil => exact h₂
  | keep hname _ ih => exact .keep hname ih
  | splice hname hfile hbody _ _ ih =>
      rw [List.append_assoc]
      exact .splice hname hfile hbody ih

/-- Expanding lines and putting them deeper can be done in either order. -/
lemma indented {lines out : List OriginLine} (h : r.Expands lines out) (levels : Nat) :
    r.Expands (lines.map (.indent r.settings.indent levels))
      (out.map (.indent r.settings.indent levels)) := by
  induction h with
  | nil => exact .nil
  | keep hname _ ih => exact .keep (by rwa [OriginLine.staticInclude?_indent]) ih
  | @splice line lines body out name hname hfile hbody _ _ ih =>
      have hline : (line.indent r.settings.indent levels).text
          = r.settings.indent.repeated levels ++ line.text := by
        rw [OriginLine.indent, isBlankText_of_staticInclude? hname]
        rfl
      -- The included lines are as deep as the line is now, which is both its levels together.
      have htwice : (body.map
            (OriginLine.indent r.settings.indent (r.settings.indent.depth line.text))).map
            (OriginLine.indent r.settings.indent levels)
          = body.map (OriginLine.indent r.settings.indent
              (r.settings.indent.depth (line.indent r.settings.indent levels).text)) := by
        rw [List.map_map, hline]
        refine List.map_congr_left fun deep _ => ?_
        exact deep.indent_indent _ (r.settings.indent.repeated_depth_repeated_append levels _)
      rw [List.map_append, htwice]
      exact .splice (by rwa [OriginLine.staticInclude?_indent]) hfile hbody ih

/-- Lines without includes expand to themselves. -/
lemma eq_of_not_nestsTo {lines out : List OriginLine} (h : r.Expands lines out)
    (hnone : r.nestsTo 1 lines = false) : out = lines := by
  induction h with
  | nil => rfl
  | keep _ _ ih =>
      rw [nestsTo, List.any_cons, Bool.or_eq_false_iff] at hnone
      rw [ih hnone.2]
  | splice hname =>
      rw [nestsTo, List.any_cons, hname] at hnone
      cases hnone

end Expands

/-! ## One pass -/

/-- What a pass puts in the place of a line. -/
def splice (r : SourceReader) (line : OriginLine) : List OriginLine :=
  match staticInclude? line.text with
  | some name =>
    (r.includedLines name).map
      (.indent r.settings.indent (r.settings.indent.depth line.text))
  | none => [line]

lemma splice_of_none {line : OriginLine} (h : staticInclude? line.text = none) :
    r.splice line = [line] := by
  rw [splice, h]

lemma splice_of_some {line : OriginLine} {name : Text} (h : staticInclude? line.text = some name) :
    r.splice line = (r.includedLines name).map
      (.indent r.settings.indent (r.settings.indent.depth line.text)) := by
  rw [splice, h]

/-- A pass does not change what lines expand to. -/
lemma Expands.flatMap_splice {lines out : List OriginLine} (h : r.Expands lines out) :
    r.Expands (lines.flatMap r.splice) out := by
  induction h with
  | nil => exact .nil
  | keep hname _ ih =>
      rw [List.flatMap_cons, splice_of_none hname]
      exact .keep hname ih
  | splice hname _ hbody _ _ ih =>
      rw [List.flatMap_cons, splice_of_some hname]
      exact (hbody.indented _).append ih

lemma nestsTo_indent (depth levels : Nat) (lines : List OriginLine) :
    r.nestsTo depth (lines.map (.indent r.settings.indent levels)) = r.nestsTo depth lines := by
  cases depth with
  | zero => rfl
  | succ depth => simp [nestsTo, List.any_map, Function.comp_def]

/-- A pass takes one level off the nesting. -/
lemma nestsTo_flatMap_splice (depth : Nat) (lines : List OriginLine) :
    r.nestsTo (depth + 1) (lines.flatMap r.splice) = r.nestsTo (depth + 2) lines := by
  induction lines with
  | nil => rfl
  | cons line lines ih =>
      rw [List.flatMap_cons, nestsTo_append, ih]
      conv_rhs => rw [nestsTo, List.any_cons]
      congr 1
      cases hname : staticInclude? line.text with
      | none => simp [splice_of_none hname, nestsTo, hname]
      | some name => rw [splice_of_some hname, nestsTo_indent, Option.any_some]

lemma Reaches.of_flatMap_splice {lines : List OriginLine} {name : Text}
    (h : r.Reaches (lines.flatMap r.splice) name) : r.Reaches lines name := by
  induction h with
  | here hline hinclude =>
      obtain ⟨line, hmem, hsplice⟩ := List.mem_flatMap.1 hline
      cases hname : staticInclude? line.text with
      | none =>
          rw [splice_of_none hname, List.mem_singleton] at hsplice
          rw [hsplice, hname] at hinclude
          cases hinclude
      | some first =>
          rw [splice_of_some hname] at hsplice
          obtain ⟨deep, hdeep, rfl⟩ := List.mem_map.1 hsplice
          rw [OriginLine.staticInclude?_indent] at hinclude
          exact .there (.here hmem hname) hdeep hinclude
  | there _ hline hinclude ih => exact .there ih hline hinclude

/-- No line that is there, and no line of a file that is reached, is continued or pushed. -/
structure Settled (r : SourceReader) (lines : List OriginLine) : Prop where
  own : ∀ line ∈ lines, staysPut line.text = true
  reached : ∀ name, r.Reaches lines name → ∀ line ∈ r.includedLines name, staysPut line.text = true

lemma Settled.flatMap_splice {lines : List OriginLine} (h : r.Settled lines) :
    r.Settled (lines.flatMap r.splice) := by
  refine ⟨fun line hline => ?_, fun name hname => h.reached name hname.of_flatMap_splice⟩
  obtain ⟨first, hfirst, hsplice⟩ := List.mem_flatMap.1 hline
  cases hname : staticInclude? first.text with
  | none =>
      rw [splice_of_none hname, List.mem_singleton] at hsplice
      rw [hsplice]
      exact h.own first hfirst
  | some name =>
      rw [splice_of_some hname] at hsplice
      obtain ⟨deep, hdeep, rfl⟩ := List.mem_map.1 hsplice
      exact deep.staysPut_indent _ _ (h.reached name (.here hfirst hname) deep hdeep)

lemma continued?_of_staysPut {t : Text} (h : staysPut t = true) : continued? t = none := by
  rw [staysPut, Bool.and_eq_true, Option.isNone_iff_eq_none] at h
  exact h.1

lemma depthOverride?_of_staysPut {t : Text} (h : staysPut t = true) : depthOverride? t = none := by
  rw [staysPut, Bool.and_eq_true, Option.isNone_iff_eq_none, Option.isNone_iff_eq_none] at h
  exact h.2

lemma joinContinuations_of_continued? {lines : List OriginLine}
    (h : ∀ line ∈ lines, continued? line.text = none) : joinContinuations lines = lines := by
  induction lines with
  | nil => rfl
  | cons line lines ih =>
      obtain ⟨hline, hlines⟩ := List.forall_mem_cons.1 h
      have hrest := ih hlines
      rw [joinContinuations] at hrest ⊢
      simp only [joinAfter, hline, hrest]

lemma joinContinuations_eq_self {lines : List OriginLine}
    (h : ∀ line ∈ lines, staysPut line.text = true) : joinContinuations lines = lines :=
  joinContinuations_of_continued? fun line hline => continued?_of_staysPut (h line hline)

lemma any_hasDirective {lines : List OriginLine} (h : ∀ line ∈ lines, staysPut line.text = true) :
    lines.any hasDirective = r.nestsTo 1 lines := by
  induction lines with
  | nil => rfl
  | cons line lines ih =>
      have hline := depthOverride?_of_staysPut (h line List.mem_cons_self)
      have hrest := ih fun next hnext => h next (List.mem_cons_of_mem _ hnext)
      rw [List.any_cons, hrest, hasDirective, hline]
      cases hname : staticInclude? line.text <;> simp [nestsTo, hname]

/-! ## One line in a pass -/

/-- The override that is in force after a line. -/
def forceAfter (unit : IndentUnit) (force : Override) (t : Text) : Override :=
  if Text.isBlankText t then force
  else
    match depthOverride? t with
    | some (_, levels) => ⟨levels, unit.depth t⟩
    | none => if unit.depth t ≤ force.depth then ⟨0, 0⟩ else force

/-- A line without its depth override. -/
def withoutOverride (t : Text) : Text := ((depthOverride? t).map Prod.fst).getD t

/-- What a pass puts in the place of a line, under an override that is in force. -/
def replaceLine (r : SourceReader) (force : Override) (line : OriginLine) :
    Except TemplateError (List OriginLine) :=
  let levels := (forceAfter r.settings.indent force line.text).levels
  if Text.isBlankText line.text then .ok [line]
  else
    match staticInclude? (withoutOverride line.text) with
    | some name => r.includeLines name (r.settings.indent.depth line.text + levels)
    | none =>
      .ok [{ line with
        text := r.settings.indent.repeated levels ++ withoutOverride line.text }]

/-- **A pass goes line by line**, and hands on the override that is in force. -/
lemma resolveOnce_cons (force : Override) (line : OriginLine) (rest : List OriginLine) :
    r.resolveOnce force (line :: rest) = do
      let here ← r.replaceLine force line
      let after ← r.resolveOnce (forceAfter r.settings.indent force line.text) rest
      return here ++ after := by
  by_cases hblank : Text.isBlankText line.text = true
  · simp only [resolveOnce, replaceLine, forceAfter, hblank, if_true]
    rfl
  · simp only [resolveOnce, replaceLine, forceAfter, withoutOverride, if_neg hblank]
    cases depthOverride? line.text with
    | none =>
        simp only [Option.map_none, Option.getD_none]
        cases staticInclude? line.text <;> rfl
    | some found =>
        simp only [Option.map_some, Option.getD_some]
        cases staticInclude? found.1 <;> rfl

lemma resolveOnce_cons_eq_ok_iff {force : Override} {line : OriginLine}
    {rest next : List OriginLine} :
    r.resolveOnce force (line :: rest) = .ok next ↔ ∃ here after,
      r.replaceLine force line = .ok here ∧
      r.resolveOnce (forceAfter r.settings.indent force line.text) rest = .ok after ∧
      next = here ++ after := by
  rw [resolveOnce_cons, bind_eq_ok_iff]
  refine exists_congr fun here => ?_
  rw [bind_eq_ok_iff]
  constructor
  · rintro ⟨hhere, after, hafter, hnext⟩
    exact ⟨after, hhere, hafter, (Except.ok.inj hnext).symm⟩
  · rintro ⟨after, hhere, hafter, rfl⟩
    exact ⟨hhere, after, hafter, rfl⟩

/-- The comments that an included file stands between in debug mode. -/
def fileMark (r : SourceReader) (words : String) (name : Text) : OriginLine :=
  ⟨dropReturns (words ++ r.includePath name), some (r.includePath name)⟩

/-- What is put in for a name: the lines of its file, between two comments in debug mode. -/
def announcedLines (r : SourceReader) (name : Text) : List OriginLine :=
  if r.settings.debug then
    r.fileMark "// Begin file " name :: r.includedLines name ++ [r.fileMark "// End file " name]
  else r.includedLines name

/-- The lines of a file that can be read, as deep as the directive. -/
lemma includeLines_eq_ok_iff {name : Text} {depth : Nat} {body : List OriginLine} :
    r.includeLines name depth = .ok body ↔ (r.included? name).isSome ∧
      body = (r.announcedLines name).map (.indent r.settings.indent depth) := by
  rw [includeLines, announcedLines, includedLines, included?]
  cases hfile : r.files.isFile (r.includePath name) with
  | false => simp
  | true =>
      cases r.files.readText (r.includePath name) with
      | error cause => simp [Except.toOption]
      | ok content =>
          have hplace : r.placeLine (r.includePath name) depth
              = fun line => OriginLine.indent r.settings.indent depth
                  ⟨dropReturns line, some (r.includePath name)⟩ := rfl
          cases r.settings.debug <;>
            simp [Except.toOption, hplace, fileMark, Function.comp_def, eq_comm]

/-! ## Passes over lines that stay where they are -/

lemma forceAfter_of_staysPut {t : Text} (h : staysPut t = true) (unit : IndentUnit) :
    forceAfter unit ⟨0, 0⟩ t = ⟨0, 0⟩ := by
  rw [forceAfter, depthOverride?_of_staysPut h]
  simp only [ite_self]

lemma withoutOverride_of_staysPut {t : Text} (h : staysPut t = true) : withoutOverride t = t := by
  rw [withoutOverride, depthOverride?_of_staysPut h, Option.map_none, Option.getD_none]

lemma replaceLine_eq_ok_iff (hdebug : r.settings.debug = false) {line : OriginLine}
    (hline : staysPut line.text = true) {here : List OriginLine} :
    r.replaceLine ⟨0, 0⟩ line = .ok here ↔
      (∀ name ∈ staticInclude? line.text, (r.included? name).isSome) ∧ here = r.splice line := by
  rw [replaceLine, forceAfter_of_staysPut hline, withoutOverride_of_staysPut hline]
  cases hname : staticInclude? line.text with
  | none =>
      simp only [splice_of_none hname, IndentUnit.repeated_zero, List.nil_append, ite_self,
        Except.ok.injEq, Option.mem_def, reduceCtorEq, false_implies, implies_true, true_and]
      exact eq_comm
  | some name =>
      rw [isBlankText_of_staticInclude? hname, splice_of_some hname]
      simp [includeLines_eq_ok_iff, announcedLines, hdebug]

/-- **A pass replaces each line by its splice**, if the files are there. -/
lemma resolveOnce_eq_ok_iff (hdebug : r.settings.debug = false) {lines : List OriginLine}
    (h : ∀ line ∈ lines, staysPut line.text = true) {next : List OriginLine} :
    r.resolveOnce ⟨0, 0⟩ lines = .ok next ↔
      (∀ line ∈ lines, ∀ name ∈ staticInclude? line.text, (r.included? name).isSome) ∧
        next = lines.flatMap r.splice := by
  induction lines generalizing next with
  | nil =>
      rw [resolveOnce, Except.ok.injEq, List.flatMap_nil, eq_comm]
      exact (and_iff_right fun _ hline => absurd hline List.not_mem_nil).symm
  | cons line lines ih =>
      obtain ⟨hline, hrest⟩ := List.forall_mem_cons.1 h
      rw [resolveOnce_cons_eq_ok_iff, forceAfter_of_staysPut hline, List.forall_mem_cons,
        List.flatMap_cons]
      simp only [replaceLine_eq_ok_iff hdebug hline, ih hrest]
      constructor
      · rintro ⟨here, after, ⟨hfound, rfl⟩, ⟨hothers, rfl⟩, rfl⟩
        exact ⟨⟨hfound, hothers⟩, rfl⟩
      · rintro ⟨⟨hfound, hothers⟩, rfl⟩
        exact ⟨_, _, ⟨hfound, rfl⟩, ⟨hothers, rfl⟩, rfl⟩

/-- Lines that expand include only files that can be read. -/
lemma Expands.isSome_included? {lines out : List OriginLine} (h : r.Expands lines out) :
    ∀ line ∈ lines, ∀ name ∈ staticInclude? line.text, (r.included? name).isSome := by
  induction h with
  | nil => simp
  | keep hname _ ih => exact List.forall_mem_cons.2 ⟨by simp [hname], ih⟩
  | splice hname hfile _ _ _ ih => exact List.forall_mem_cons.2 ⟨by simpa [hname] using hfile, ih⟩

/-- With as many passes as includes nest deep, lines are resolved to what they expand to. -/
lemma resolve_of_expands (hdebug : r.settings.debug = false) {passes : Nat}
    {lines out : List OriginLine} (h : r.Settled lines)
    (hnests : r.nestsTo (passes + 1) lines = false) (hexpands : r.Expands lines out) :
    r.resolve passes lines = .ok out := by
  induction passes generalizing lines with
  | zero =>
      rw [resolve, any_hasDirective (r := r) h.own, hnests, hexpands.eq_of_not_nestsTo hnests]
      rfl
  | succ passes ih =>
      rw [resolve, any_hasDirective (r := r) h.own]
      cases hone : r.nestsTo 1 lines with
      | false =>
          rw [hexpands.eq_of_not_nestsTo hone]
          rfl
      | true =>
          have hpass := (resolveOnce_eq_ok_iff hdebug h.own).2 ⟨hexpands.isSome_included?, rfl⟩
          have hnext := h.flatMap_splice
          rw [← nestsTo_flatMap_splice] at hnests
          simpa [hpass, bind, Except.bind, joinContinuations_eq_self hnext.own]
            using ih hnext hnests hexpands.flatMap_splice

/-- With fewer passes than includes nest deep, lines are not resolved. -/
lemma resolve_ne_ok (hdebug : r.settings.debug = false) {passes : Nat} {lines : List OriginLine}
    (h : r.Settled lines) (hnests : r.nestsTo (passes + 1) lines = true) (out : List OriginLine) :
    r.resolve passes lines ≠ .ok out := by
  induction passes generalizing lines with
  | zero =>
      rw [resolve, any_hasDirective (r := r) h.own, hnests]
      simp
  | succ passes ih =>
      have hone : r.nestsTo 1 lines = true := by
        obtain ⟨line, hline, name, hname, -⟩ := nestsTo_succ_iff.1 hnests
        exact nestsTo_succ_iff.2 ⟨line, hline, name, hname, rfl⟩
      rw [resolve, any_hasDirective (r := r) h.own, hone]
      intro hok
      obtain ⟨next, hpass, hok⟩ := bind_eq_ok_iff.1 hok
      obtain ⟨-, rfl⟩ := (resolveOnce_eq_ok_iff hdebug h.own).1 hpass
      have hnext := h.flatMap_splice
      rw [joinContinuations_eq_self hnext.own] at hok
      rw [← nestsTo_flatMap_splice] at hnests
      exact ih hnext hnests hok

/-! ## The result -/

lemma Reaches.mono {first second : List OriginLine} (hsubset : first ⊆ second) {name : Text}
    (h : r.Reaches first name) : r.Reaches second name := by
  induction h with
  | here hline hinclude => exact .here (hsubset hline) hinclude
  | there _ hline hinclude ih => exact .there ih hline hinclude

lemma Reaches.trans {lines : List OriginLine} {name next : Text} (h : r.Reaches lines name)
    (hnext : r.Reaches (r.includedLines name) next) : r.Reaches lines next := by
  induction hnext with
  | here hline hinclude => exact .there h hline hinclude
  | there _ hline hinclude ih => exact .there ih hline hinclude

/-- Lines expand if every file that is reached can be read and includes do not nest without end. -/
lemma exists_expands {depth : Nat} {lines : List OriginLine}
    (hfound : ∀ name, r.Reaches lines name → (r.included? name).isSome)
    (hnests : r.nestsTo depth lines = false) : ∃ out, r.Expands lines out := by
  induction depth generalizing lines with
  | zero => cases hnests
  | succ depth ih =>
      induction lines with
      | nil => exact ⟨[], .nil⟩
      | cons line lines ihLines =>
          rw [nestsTo, List.any_cons, Bool.or_eq_false_iff] at hnests
          obtain ⟨out, hout⟩ := ihLines
            (fun name hname => hfound name (hname.mono (List.subset_cons_self line lines))) hnests.2
          cases hname : staticInclude? line.text with
          | none => exact ⟨line :: out, .keep hname hout⟩
          | some name =>
              have hreach : r.Reaches (line :: lines) name := .here List.mem_cons_self hname
              have hdeep := hnests.1
              rw [hname, Option.any_some] at hdeep
              obtain ⟨body, hbody⟩ := ih (fun next hnext => hfound next (hreach.trans hnext)) hdeep
              exact ⟨_, .splice hname (hfound name hreach) hbody hout⟩

/-- **Passes resolve includes to their expansion.**  Take a source in which no line is continued or
pushed, and neither is a line of a file that is reached.  If these files can be read and includes
nest at most as deep as there are passes, the source has an expansion, and its lines are resolved to
that.  If they nest deeper, as they do where a file that is reached leads back to itself, the lines
are not resolved. -/
theorem lines_eq_ok_iff_expands (r : SourceReader) (hdebug : r.settings.debug = false)
    (source : Text) (hsettled : r.Settled (ownLines source)) :
    ((∀ name, r.Reaches (ownLines source) name → (r.included? name).isSome) →
      r.nestsTo (r.settings.maxPasses + 1) (ownLines source) = false →
      (∃ out, r.Expands (ownLines source) out) ∧
        ∀ out, r.lines source = .ok out ↔ r.Expands (ownLines source) out) ∧
    (r.nestsTo (r.settings.maxPasses + 1) (ownLines source) = true →
      ∀ out, r.lines source ≠ .ok out) ∧
    ∀ name, r.Reaches (ownLines source) name → r.Reaches (r.includedLines name) name →
      ∀ out, r.lines source ≠ .ok out := by
  have hlines : r.lines source = r.resolve r.settings.maxPasses (ownLines source) := by
    rw [lines]
    exact congrArg _ (joinContinuations_eq_self hsettled.own)
  rw [hlines]
  refine ⟨fun hfound hnests => ?_, resolve_ne_ok hdebug hsettled, fun name hreach hcycle => ?_⟩
  · have hresolve : ∀ {out}, r.Expands (ownLines source) out →
        r.resolve r.settings.maxPasses (ownLines source) = .ok out :=
      resolve_of_expands hdebug hsettled hnests
    obtain ⟨out, hout⟩ := exists_expands hfound hnests
    refine ⟨⟨out, hout⟩, fun other => ⟨fun hother => ?_, hresolve⟩⟩
    rw [hresolve hout] at hother
    exact Except.ok.inj hother ▸ hout
  · exact resolve_ne_ok hdebug hsettled (nestsTo_of_cycle hreach hcycle _)

/-- A reader of files that stand in the root directory. -/
def ofFiles (settings : TemplateSettings) (files : List (String × String)) : SourceReader where
  settings := settings
  root := "/"
  files :=
    ⟨files.map fun (name, text) => ([name.toList], .file (.text text.toList) 0), [], "/tmp", 0⟩

/-- Two files that nest, with levels written as tabs, spaces and half a level. -/
def nestedFiles : SourceReader :=
  ofFiles { TemplateSettings.standard with indent := .spaces 2, maxPasses := 2 }
    [("outer.haml", "%ul\n\n\t!! inner\r\n\n"), ("inner.haml", "%li a\n   %b")]

/-- A file that includes itself. -/
def loopingFiles : SourceReader := ofFiles .standard [("loop.haml", "%p\n\t!! loop")]

/-- Lines are settled if all of them are, and all in files that lead only to each other. -/
lemma settled_of_closed {lines : List OriginLine} (names : List Text)
    (hlines : ∀ line ∈ lines, staysPut line.text = true ∧
      ∀ name ∈ staticInclude? line.text, name ∈ names)
    (hnames : ∀ name ∈ names, ∀ line ∈ r.includedLines name, staysPut line.text = true ∧
      ∀ next ∈ staticInclude? line.text, next ∈ names) : r.Settled lines := by
  refine ⟨fun line hline => (hlines line hline).1, fun name hname line hline => ?_⟩
  have hmem := hname.mem_of_closed (fun line hline => (hlines line hline).2)
    fun name hname line hline => (hnames name hname line hline).2
  exact (hnames name hmem line hline).1

theorem lines_eq_ok_iff_expands_nestedFiles :
    let source := "%div\r\n   !! outer\n  \n%p".toList
    (nestedFiles.Settled (ownLines source) ∧
      nestedFiles.nestsTo 2 (ownLines source) = true ∧
      nestedFiles.nestsTo 3 (ownLines source) = false ∧
      nestedFiles.Expands (ownLines source)
        [⟨"%div".toList, none⟩, ⟨"    %ul".toList, some "/outer.haml".toList⟩,
          ⟨[], some "/outer.haml".toList⟩, ⟨"      %li a".toList, some "/inner.haml".toList⟩,
          ⟨"         %b".toList, some "/inner.haml".toList⟩, ⟨"  ".toList, none⟩,
          ⟨"%p".toList, none⟩]) ∧
    (loopingFiles.Settled (ownLines "!! loop".toList) ∧
      loopingFiles.Reaches (ownLines "!! loop".toList) "loop".toList ∧
      loopingFiles.Reaches (loopingFiles.includedLines "loop".toList) "loop".toList ∧
      ∀ out, loopingFiles.lines "!! loop".toList ≠ .ok out) := by
  intro source
  constructor
  · have hsettled : nestedFiles.Settled (ownLines source) :=
      settled_of_closed ["outer".toList, "inner".toList] (by decide +kernel)
        (by decide +kernel)
    have hfound : ∀ name, nestedFiles.Reaches (ownLines source) name →
        (nestedFiles.included? name).isSome := by
      intro name hname
      have hmem : name ∈ ["outer".toList, "inner".toList] :=
        hname.mem_of_closed (by decide +kernel) (by decide +kernel)
      have hall : ∀ name ∈ ["outer".toList, "inner".toList],
          (nestedFiles.included? name).isSome := by decide +kernel
      exact hall name hmem
    have hnests : nestedFiles.nestsTo 3 (ownLines source) = false := by decide +kernel
    have hresult := (lines_eq_ok_iff_expands nestedFiles rfl source hsettled).1 hfound hnests
    exact ⟨hsettled, by decide +kernel, hnests, (hresult.2 _).1 (by decide +kernel)⟩
  · have hreach : loopingFiles.Reaches (ownLines "!! loop".toList) "loop".toList :=
      .here List.mem_cons_self (by decide +kernel)
    have hcycle : loopingFiles.Reaches (loopingFiles.includedLines "loop".toList) "loop".toList :=
      .here (List.mem_of_getElem? (i := 1) rfl) (by decide +kernel)
    have hsettled : loopingFiles.Settled (ownLines "!! loop".toList) :=
      settled_of_closed ["loop".toList] (by decide +kernel) (by decide +kernel)
    exact ⟨hsettled, hreach, hcycle,
      (lines_eq_ok_iff_expands loopingFiles rfl _ hsettled).2.2 _ hreach hcycle⟩

end SourceReader

end Offside
