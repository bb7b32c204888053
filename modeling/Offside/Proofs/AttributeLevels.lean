import Mathlib
import Offside.Proofs.AttributePlacement

/-!
# The rule that an attribute is written under

An attribute that is written one level below a rule is meant for this rule.  But rules and
attributes are not measured alike.  A rule that is written more than one level below the rule before
it is put less deep than it is written, and an attribute is set on the rule that is open at the
level it is written at.

**Which rule is open.**  A rule stays open at its own depth as long as the rules after it are
written deeper than that (`openPath_of_foldlM`).  So an attribute right below a rule finds this rule
at its level exactly if the rule is as deep as it is written.  Otherwise it finds a rule below this
one, or none (`placed_on_rule_iff`).

**Lines and their traces.**  Every rule line leaves one node, and every attribute line one
placement, both under the number of the line (`LinesRead`).
-/

namespace Offside

/-! ## Numbers of lines -/

lemma number_of_getElem? {unit : IndentUnit} {first : Nat} {raw : List Text} {i : Nat}
    {line : SourceLine} (h : (numberLines unit first raw)[i]? = some line) :
    line.number = first + i := by
  induction raw generalizing first i with
  | nil => cases h
  | cons text raw ih =>
      cases i with
      | zero =>
          cases h
          rfl
      | succ i =>
          have hnumber := ih h
          omega

/-- No two lines of a source have the same number. -/
lemma pairwise_number (unit : IndentUnit) (source : Text) :
    (sourceLines unit source).Pairwise fun line later => line.number < later.number := by
  rw [List.pairwise_iff_getElem]
  intro i j hi hj hij
  have hfirst := number_of_getElem? (List.getElem?_eq_getElem hi)
  have hsecond := number_of_getElem? (List.getElem?_eq_getElem hj)
  omega

lemma eq_of_number_eq {lines : List SourceLine}
    (hlines : lines.Pairwise fun line later => line.number < later.number) {i j : Nat}
    {line other : SourceLine} (hi : lines[i]? = some line) (hj : lines[j]? = some other)
    (hnumber : line.number = other.number) : i = j := by
  obtain ⟨hilt, rfl⟩ := List.getElem?_eq_some_iff.1 hi
  obtain ⟨hjlt, rfl⟩ := List.getElem?_eq_some_iff.1 hj
  rw [List.pairwise_iff_getElem] at hlines
  rcases lt_trichotomy i j with hlt | heq | hgt
  · exact absurd hnumber (hlines i j hilt hjlt hlt).ne
  · exact heq
  · exact absurd hnumber (hlines j i hjlt hilt hgt).ne'

/-- Of a rule that is open, the open rules further down the path are below it. -/
lemma OutlineBuilder.Sound.open_at_level {α : Type} {b : OutlineBuilder α} (h : b.Sound)
    {own level id : Nat} (hopen : b.openPath[own]? = some id) (hlevel : own ≤ level) :
    (b.openPath[level]? = some id ↔ b.outline.depth id = level) ∧
      ∀ other : Nat, b.openPath[level]? = some other →
        other < b.outline.size ∧ (other = id ∨ b.outline.Below id other) := by
  have hown := h.open_depth own id hopen
  refine ⟨⟨h.open_depth level id, fun hdepth => ?_⟩, fun other hother => ?_⟩
  · rw [← hdepth, hown]
    exact hopen
  · have hsize := h.open_lt level other hother
    refine ⟨hsize, ?_⟩
    rcases lt_trichotomy id other with hlt | heq | hgt
    · refine Or.inr ⟨hlt, fun j hj hjother => ?_⟩
      rw [hown]
      exact h.open_below own id hopen j hj (hjother.trans_lt hsize)
    · exact Or.inl heq.symm
    · have hdeeper := h.open_below level other hother id hgt (h.open_lt own id hopen)
      omega

namespace StyleReading

variable {c : Calculator} {lines : List SourceLine} {d d' : StyleReading} {line : SourceLine}

/-! ## What the lines say -/

/-- The constants that are known after a line. -/
def constantsAfter (c : Calculator) (line : SourceLine) : Calculator :=
  match StyleLine.ofText line.content with
  | .constant name value => c.define name value
  | _ => c

/-- The group that is open after a line. -/
def groupAfter (group : Option AttributeGroup) (line : SourceLine) : Option AttributeGroup :=
  match StyleLine.ofText line.content with
  | .group name => some ⟨name, line.depth⟩
  | .literal _ _ => groupReaching group line.depth
  | .computed _ _ => groupReaching group line.depth
  | .rule _ => none
  | _ => group

lemma step_after (h : d.step line = .ok d') :
    d'.calculator = constantsAfter d.calculator line ∧ d'.group = groupAfter d.group line := by
  unfold step at h
  unfold constantsAfter groupAfter
  cases hkind : StyleLine.ofText line.content with
  | blank | comment | constant | group | literal | rule =>
      rw [hkind] at h
      cases h
      exact ⟨rfl, rfl⟩
  | computed name expression =>
      rw [hkind] at h
      simp only at h
      cases hvalue : d.calculator.calculate expression with
      | error cause =>
          rw [hvalue] at h
          cases h
      | ok value =>
          rw [hvalue] at h
          cases h
          exact ⟨rfl, rfl⟩

/-- What a reading has kept of the lines it has read. -/
structure LinesRead (c : Calculator) (lines : List SourceLine) (d : StyleReading) : Prop where
  recorded : d.Recorded
  calculator : d.calculator = lines.foldl constantsAfter c
  group : d.group = lines.foldl groupAfter none
  size : d.rules.outline.size = (lines.filter isRuleLine).length
  rules : ∀ k : Nat, (d.rules.outline.get? k).map StyleRule.line
    = (lines.filter isRuleLine)[k]?.map SourceLine.number
  placements : d.placements.map Placement.line
    = (lines.filter isAttributeLine).map SourceLine.number

lemma linesRead_start (c : Calculator) : LinesRead c [] (start c) :=
  ⟨recorded_start c, rfl, rfl, rfl, fun _ => rfl, rfl⟩

/-- The lines of rules do not change with their attributes. -/
lemma map_line_get?_apply (p : Placement) (rules : OutlineBuilder StyleRule) (k : Nat) :
    ((p.apply rules).outline.get? k).map StyleRule.line
      = (rules.outline.get? k).map StyleRule.line := by
  rw [Placement.get?_apply, Option.map_map]
  congr 1
  funext rule
  rw [Function.comp_apply]
  split_ifs <;> rfl

lemma LinesRead.step (h : LinesRead c lines d) (hstep : d.step line = .ok d') :
    LinesRead c (lines ++ [line]) d' := by
  obtain ⟨hcalculator, hgroup⟩ := step_after hstep
  have hconstants : d'.calculator = (lines ++ [line]).foldl constantsAfter c := by
    rw [hcalculator, h.calculator, List.foldl_concat]
  have hgroups : d'.group = (lines ++ [line]).foldl groupAfter none := by
    rw [hgroup, h.group, List.foldl_concat]
  rcases step_cases hstep with
    ⟨name, value, -, hattribute, hrule, rfl⟩ | ⟨selector, hattribute, hrule, rfl⟩ |
      ⟨hattribute, hrule, _, _, rfl⟩
  · have hrules : (lines ++ [line]).filter isRuleLine = lines.filter isRuleLine := by
      simp [hrule]
    refine ⟨h.recorded.step hstep, hconstants, hgroups, ?_, fun k => ?_, ?_⟩
    · rw [hrules, ← h.size]
      exact Placement.size_apply _
    · rw [hrules, ← h.rules]
      exact map_line_get?_apply _ _ k
    · simp [set, placement, hattribute, h.placements]
  · have hrules : (lines ++ [line]).filter isRuleLine = lines.filter isRuleLine ++ [line] := by
      simp [hrule]
    refine ⟨h.recorded.step hstep, hconstants, hgroups, ?_, fun k => ?_, ?_⟩
    · rw [hrules, List.length_append, ← h.size]
      exact Outline.size_append _ _
    · rw [hrules, OutlineBuilder.outline_push, Outline.get?_append, h.size]
      rcases lt_trichotomy k (lines.filter isRuleLine).length with hlt | heq | hgt
      · rw [if_neg hlt.ne, h.rules, List.getElem?_append_left hlt]
      · simp [heq, StyleRule.ofSelector]
      · rw [if_neg hgt.ne', h.rules, List.getElem?_eq_none hgt.le,
          List.getElem?_eq_none (by simpa using hgt)]
    · simp [hattribute, h.placements]
  · have hrules : (lines ++ [line]).filter isRuleLine = lines.filter isRuleLine := by
      simp [hrule]
    refine ⟨h.recorded.step hstep, hconstants, hgroups, ?_, ?_, ?_⟩
    · rw [hrules]
      exact h.size
    · rw [hrules]
      exact h.rules
    · simp [hattribute, h.placements]

lemma linesRead_of_foldlM (h : lines.foldlM StyleReading.step (start c) = .ok d) :
    LinesRead c lines d :=
  foldlM_induction (linesRead_start c) (fun _ _ _ _ hread hstep => hread.step hstep) h

/-- A rule line has one node. -/
lemma LinesRead.node_iff {before after : List SourceLine} {rule : SourceLine}
    (h : LinesRead c (before ++ rule :: after) d)
    (hpairs : (before ++ rule :: after).Pairwise fun line later => line.number < later.number)
    (hrule : isRuleLine rule = true) (k : Nat) :
    (d.rules.outline.get? k).map StyleRule.line = some rule.number
      ↔ k = (before.filter isRuleLine).length := by
  have hself : ((before ++ rule :: after).filter isRuleLine)[(before.filter isRuleLine).length]?
      = some rule := by
    simp [hrule]
  rw [h.rules]
  constructor
  · intro hk
    obtain ⟨other, hother, hnumber⟩ := Option.map_eq_some_iff.1 hk
    exact eq_of_number_eq (hpairs.filter _) hother hself hnumber
  · rintro rfl
    rw [hself, Option.map_some]

/-- An attribute line has one placement. -/
lemma LinesRead.placement_iff (h : LinesRead c lines d)
    (hpairs : lines.Pairwise fun line later => line.number < later.number) {p : Placement}
    (hp : p ∈ d.placements) (q : Placement) : q ∈ d.placements ∧ q.line = p.line ↔ q = p := by
  have hnodup : (d.placements.map Placement.line).Nodup := by
    rw [h.placements]
    exact List.pairwise_map.2 ((hpairs.filter _).imp fun hlt => hlt.ne)
  constructor
  · rintro ⟨hq, hline⟩
    exact List.inj_on_of_nodup_map hnodup hq hp hline
  · rintro rfl
    exact ⟨hp, rfl⟩

/-! ## What later lines leave alone -/

/-- Later lines add rules and placements, and put no rule elsewhere. -/
structure Extends (d d' : StyleReading) : Prop where
  size_le : d.rules.outline.size ≤ d'.rules.outline.size
  depth : ∀ i < d.rules.outline.size, d'.rules.outline.depth i = d.rules.outline.depth i
  placements : d.placements ⊆ d'.placements

lemma extends_step (h : d.Recorded) (hstep : d.step line = .ok d') : Extends d d' := by
  rcases step_cases hstep with
    ⟨name, value, -, -, -, rfl⟩ | ⟨selector, -, -, rfl⟩ | ⟨-, -, _, _, rfl⟩
  · refine ⟨(Placement.size_apply _).ge, fun i _ => Placement.depth_apply _ i, ?_⟩
    exact List.subset_append_left _ _
  · refine ⟨?_, fun i hi => ?_, List.Subset.refl _⟩
    · rw [OutlineBuilder.outline_push, Outline.size_append]
      exact Nat.le_succ _
    · rw [h.sound.depth_push, if_neg hi.ne]
  · exact ⟨le_rfl, fun _ _ => rfl, List.Subset.refl _⟩

lemma extends_of_foldlM (h : d.Recorded) (hlines : lines.foldlM StyleReading.step d = .ok d') :
    Extends d d' := by
  refine (foldlM_induction (P := fun _ t => t.Recorded ∧ Extends d t)
    ⟨h, le_rfl, fun _ _ => rfl, List.Subset.refl _⟩ ?_ hlines).2
  rintro _ line t t' ⟨hrecorded, hextends⟩ hstep
  have hnext := extends_step hrecorded hstep
  refine ⟨hrecorded.step hstep, hextends.size_le.trans hnext.size_le, fun i hi => ?_,
    List.Subset.trans hextends.placements hnext.placements⟩
  rw [hnext.depth i (hi.trans_le hextends.size_le), hextends.depth i hi]

lemma Extends.below (h : Extends d d') {id other : Nat} (hother : other < d.rules.outline.size)
    (hbelow : d.rules.outline.Below id other) : d'.rules.outline.Below id other := by
  refine ⟨hbelow.1, fun j hj hjother => ?_⟩
  rw [h.depth id (hbelow.1.trans hother), h.depth j (hjother.trans_lt hother)]
  exact hbelow.2 j hj hjother

/-- A rule stays open at its depth as long as the rules after it are written deeper. -/
lemma openPath_of_foldlM {level id : Nat} (hopen : d.rules.openPath[level]? = some id)
    (hdeeper : ∀ other ∈ lines, isRuleLine other = true → level < other.depth)
    (hlines : lines.foldlM StyleReading.step d = .ok d') :
    d'.rules.openPath[level]? = some id := by
  refine foldlM_induction (P := fun as t =>
    (∀ other ∈ as, isRuleLine other = true → level < other.depth) →
      t.rules.openPath[level]? = some id) (fun _ => hopen) ?_ hlines hdeeper
  intro as line t t' ih hstep hall
  have hbefore := ih fun other hother => hall other (List.mem_append_left _ hother)
  rcases step_cases hstep with
    ⟨name, value, -, -, -, rfl⟩ | ⟨selector, -, hrule, rfl⟩ | ⟨-, -, _, _, rfl⟩
  · simpa [set] using hbefore
  · have hdepth := hall line (List.mem_append_right _ List.mem_cons_self) hrule
    have hlength : level < t.rules.openPath.length := (List.getElem?_eq_some_iff.1 hbefore).1
    have hclamped : level < t.rules.clampedDepth line.depth := lt_min hdepth hlength
    rw [OutlineBuilder.getElem?_openPath_push, if_pos hclamped]
    exact hbefore
  · exact hbefore

/-- Outside of groups, an attribute is placed on the rule that is open one level above it. -/
lemma placement_of_no_group {level : Nat} (hgroup : groupReaching d.group (level + 1) = none)
    (name value : Text) (number : Nat) :
    d.placement name value (level + 1) number
      = ⟨number, d.rules.openPath[level]?, name, value⟩ := by
  unfold placement
  rw [hgroup]
  rfl

/-- The trace of a rule line, while the rules after it are written deeper. -/
lemma exists_open_rule {before between : List SourceLine} {rule : SourceLine}
    (hrule : isRuleLine rule = true)
    (hdeeper : ∀ other ∈ between, isRuleLine other = true → rule.depth < other.depth)
    (h : (before ++ rule :: between).foldlM StyleReading.step (start c) = .ok d) :
    ∃ own ≤ rule.depth, d.rules.openPath[own]? = some (before.filter isRuleLine).length := by
  obtain ⟨first, hfirst, h⟩ := foldlM_append_eq_ok_iff.1 h
  obtain ⟨opened, hopened, hbetween⟩ := foldlM_cons_eq_ok_iff.1 h
  have hread := linesRead_of_foldlM hfirst
  have hle : first.rules.clampedDepth rule.depth ≤ rule.depth := min_le_left _ _
  refine ⟨first.rules.clampedDepth rule.depth, hle, ?_⟩
  refine openPath_of_foldlM ?_ (fun other hother hrule => ?_) hbetween
  · rcases step_cases hopened with
      ⟨_, _, -, -, hno, -⟩ | ⟨selector, -, -, rfl⟩ | ⟨-, hno, -⟩
    · simp [hrule] at hno
    · rw [OutlineBuilder.getElem?_openPath_push, if_neg (lt_irrefl _), if_pos rfl, hread.size]
    · simp [hrule] at hno
  · exact hle.trans_lt (hdeeper other hother hrule)

/-- An attribute line in no group leaves a placement on the rule that is open one level above. -/
lemma exists_placement {after : List SourceLine} {level : Nat} (hread : LinesRead c lines d)
    (hattribute : isAttributeLine line = true) (hdepth : line.depth = level + 1)
    (hgroup : groupReaching (lines.foldl groupAfter none) line.depth = none)
    (h : (line :: after).foldlM StyleReading.step d = .ok d') :
    ∃ name value, given? (lines.foldl constantsAfter c) line = some (name, value) ∧
      ⟨line.number, d.rules.openPath[level]?, name, value⟩ ∈ d'.placements := by
  obtain ⟨next, hstep, hafter⟩ := foldlM_cons_eq_ok_iff.1 h
  have hkept := (extends_of_foldlM (hread.recorded.step hstep) hafter).placements
  rw [← hread.group, hdepth] at hgroup
  rcases step_cases hstep with ⟨name, value, hgiven, -, -, rfl⟩ | ⟨_, hno, -⟩ | ⟨hno, -⟩
  · refine ⟨name, value, ?_, hkept ?_⟩
    · rw [← hread.calculator]
      exact hgiven
    · rw [StyleReading.set, hdepth, placement_of_no_group hgroup]
      exact List.mem_append_right _ List.mem_cons_self
  · simp [hattribute] at hno
  · simp [hattribute] at hno

end StyleReading

open StyleReading in
/-- **An attribute belongs to the rule it is written under, if that rule is as deep as it is
written.**  Take an attribute line in no group that is written one level below a rule line, where
all rule lines between the two are written as deep as the attribute or deeper.  The rule line has
one node and the attribute line one placement.  The attribute is placed on the node if the depth of
the node is the written one; otherwise it is placed on a rule below the node, or on none. -/
theorem placed_on_rule_iff {unit : IndentUnit} {constants : List (Text × Text)} {source : Text}
    {parse : StyleParse} (hparse : parseStyles unit constants source = .ok parse)
    {before between after : List SourceLine} {rule line : SourceLine}
    (hlines : sourceLines unit source = before ++ rule :: between ++ line :: after)
    (hrule : isRuleLine rule = true) (hattribute : isAttributeLine line = true)
    (hgroup : groupReaching ((before ++ rule :: between).foldl groupAfter none) line.depth = none)
    (hdepth : line.depth = rule.depth + 1)
    (hnearest : ∀ other ∈ between, isRuleLine other = true → line.depth ≤ other.depth) :
    ∃ (reading : StyleReading) (id : NodeId) (p : Placement),
      readStyles unit constants source = .ok reading ∧
      reading.rules.outline = parse.outline ∧
      (∀ k node, parse.outline.get? k = some node →
        node.attributes = setAllIn (reading.givenTo k) []) ∧
      (∀ k, (parse.outline.get? k).map StyleRule.line = some rule.number ↔ k = id) ∧
      (∀ q, q ∈ reading.placements ∧ q.line = line.number ↔ q = p) ∧
      given? ((before ++ rule :: between).foldl constantsAfter (.ofList constants)) line
        = some (p.name, p.value) ∧
      (p.target = some id ↔ parse.outline.depth id = rule.depth) ∧
      ∀ other, p.target = some other → other = id ∨ parse.outline.Below id other := by
  have hsame := map_outline_parseStyles unit constants source
  have hpairs := pairwise_number unit source
  rw [hlines] at hpairs
  rw [hparse] at hsame
  cases hreading : readStyles unit constants source with
  | error fault =>
      rw [hreading] at hsame
      cases hsame
  | ok reading =>
      rw [hreading] at hsame
      rw [readStyles, hlines] at hreading
      have hall := linesRead_of_foldlM hreading
      obtain ⟨d, hd, hrest⟩ := foldlM_append_eq_ok_iff.1 hreading
      have hread := linesRead_of_foldlM hd
      have hlater := extends_of_foldlM hread.recorded hrest
      obtain ⟨name, value, hgiven, hmem⟩ := exists_placement hread hattribute hdepth hgroup hrest
      -- The rule is still open where the attribute is read.
      have hdeeper : ∀ other ∈ between, isRuleLine other = true → rule.depth < other.depth := by
        intro other hother hisrule
        have hle := hnearest other hother hisrule
        omega
      obtain ⟨own, hown, hopen⟩ := exists_open_rule hrule hdeeper hd
      have hsize := hread.recorded.sound.open_lt own _ hopen
      obtain ⟨hself, hothers⟩ := hread.recorded.sound.open_at_level hopen hown
      rw [show parse.outline = reading.rules.outline from Except.ok.inj hsame]
      refine ⟨reading, (before.filter isRuleLine).length, _, rfl, rfl, hall.recorded.attributes, ?_,
        hall.placement_iff hpairs hmem, hgiven, ?_, fun other hother => ?_⟩
      · rw [List.append_assoc, List.cons_append] at hall hpairs
        exact hall.node_iff hpairs hrule
      · rw [hlater.depth _ hsize]
        exact hself
      · obtain ⟨hlt, hbelow⟩ := hothers other hother
        exact hbelow.imp_right fun hbelow => hlater.below hlt hbelow

/-- Three rules, each one level below the one before. -/
def evenSheet : Text := "a\n  b\n    c\n    :top 0".toList

/-- The second rule is written two levels below the first. -/
def jumpSheet : Text := "a\n    b\n      c\n      :top 0".toList

theorem placed_on_rule_iff_sheets :
    (∃ reading p, readStyles (.spaces 2) [] evenSheet = .ok reading ∧
      (∀ q, q ∈ reading.placements ∧ q.line = 4 ↔ q = p) ∧ p.target = some 1) ∧
    ∃ reading p, readStyles (.spaces 2) [] jumpSheet = .ok reading ∧
      (∀ q, q ∈ reading.placements ∧ q.line = 4 ↔ q = p) ∧ p.target ≠ some 1 := by
  constructor
  · have hlines : sourceLines (.spaces 2) evenSheet
        = [⟨1, "a".toList, 0⟩] ++ ⟨2, "  b".toList, 1⟩ :: [⟨3, "    c".toList, 2⟩] ++
          ⟨4, "    :top 0".toList, 2⟩ :: [] := by
      decide +kernel
    have hnode : (parseStyles (.spaces 2) [] evenSheet).map
        (fun parse => ((parse.outline.get? 1).map StyleRule.line, parse.outline.depth 1))
          = .ok (some 2, 1) := by
      decide +kernel
    cases hparse : parseStyles (.spaces 2) [] evenSheet with
    | error fault =>
        rw [hparse] at hnode
        cases hnode
    | ok parse =>
        rw [hparse] at hnode
        obtain ⟨hline, hdepth⟩ := Prod.mk.inj (Except.ok.inj hnode)
        obtain ⟨reading, id, p, hreading, -, -, hid, hp, -, htarget, -⟩ :=
          placed_on_rule_iff hparse hlines (by decide +kernel) (by decide +kernel)
            (by decide +kernel) rfl (by decide +kernel)
        rw [← (hid 1).1 hline] at htarget
        exact ⟨reading, p, hreading, hp, htarget.2 hdepth⟩
  · have hlines : sourceLines (.spaces 2) jumpSheet
        = [⟨1, "a".toList, 0⟩] ++ ⟨2, "    b".toList, 2⟩ :: [⟨3, "      c".toList, 3⟩] ++
          ⟨4, "      :top 0".toList, 3⟩ :: [] := by
      decide +kernel
    have hnode : (parseStyles (.spaces 2) [] jumpSheet).map
        (fun parse => ((parse.outline.get? 1).map StyleRule.line, parse.outline.depth 1))
          = .ok (some 2, 1) := by
      decide +kernel
    cases hparse : parseStyles (.spaces 2) [] jumpSheet with
    | error fault =>
        rw [hparse] at hnode
        cases hnode
    | ok parse =>
        rw [hparse] at hnode
        obtain ⟨hline, hdepth⟩ := Prod.mk.inj (Except.ok.inj hnode)
        obtain ⟨reading, id, p, hreading, -, -, hid, hp, -, htarget, -⟩ :=
          placed_on_rule_iff hparse hlines (by decide +kernel) (by decide +kernel)
            (by decide +kernel) rfl (by decide +kernel)
        rw [← (hid 1).1 hline, hdepth] at htarget
        exact ⟨reading, p, hreading, hp, fun hone => absurd (htarget.1 hone) (by decide)⟩

end Offside
