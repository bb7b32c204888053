import Mathlib
import Offside.Proofs.OutlineShape
import Offside.Proofs.Runs
import Offside.Stylesheet.Builder

/-!
# Where attributes are placed

Attribute lines are collected before they are set on their rule.  This file shows that nobody can
tell: a stylesheet is read as if every attribute line set its attribute at once.

**Reading without collecting.**  `StyleReading` is the reader that does so.  It keeps a record of
its placements, one for each attribute line: the rule that was open at the level of the line, if
there was one, and the attribute that it was given.

**What is pending is not lost.**  A builder with pending attributes stands for the reading in which
they are set already (`StyleBuilder.Follows`).  Nothing but a rule line changes which rules are
open, and a rule line sets what is pending first; so the rule that the attributes are set on is the
one that was open when they were written.  That they have been merged in between makes no
difference, because merging keeps the places of names just as setting does
(`setAllIn_setAttributeIn`).

**The attributes of a rule.**  They are those of the placements on it, each name in the place where
it came first and with the value that came last (`parseStyles_eq_readStyles`).
-/

namespace Offside

/-! ## Lists of attributes -/

/-- Give names their values one after the other. -/
def setAllIn (given attributes : List (Text × Text)) : List (Text × Text) :=
  given.foldl (fun attributes entry => setAttributeIn entry.1 entry.2 attributes) attributes

lemma setAllIn_cons (entry : Text × Text) (given attributes : List (Text × Text)) :
    setAllIn (entry :: given) attributes
      = setAllIn given (setAttributeIn entry.1 entry.2 attributes) := rfl

lemma setAllIn_concat (given attributes : List (Text × Text)) (entry : Text × Text) :
    setAllIn (given ++ [entry]) attributes
      = setAttributeIn entry.1 entry.2 (setAllIn given attributes) :=
  List.foldl_concat ..

lemma StyleRule.setAttributes_eq (r : StyleRule) (given : List (Text × Text)) :
    r.setAttributes given = { r with attributes := setAllIn given r.attributes } := by
  induction given generalizing r with
  | nil => rfl
  | cons entry given ih => exact ih (r.setAttribute entry.1 entry.2)

/-- A name that is there already keeps its place, and a new one goes to the end. -/
lemma map_fst_setAttributeIn (name value : Text) (attributes : List (Text × Text)) :
    (setAttributeIn name value attributes).map Prod.fst
      = if name ∈ attributes.map Prod.fst then attributes.map Prod.fst
        else attributes.map Prod.fst ++ [name] := by
  induction attributes with
  | nil => rfl
  | cons entry attributes ih =>
      obtain ⟨known, old⟩ := entry
      by_cases hknown : known = name
      · simp [setAttributeIn, hknown]
      · have hother : name ≠ known := Ne.symm hknown
        simp only [setAttributeIn, beq_iff_eq, hknown, if_false, List.map_cons, ih, List.mem_cons,
          hother, false_or]
        split_ifs <;> rfl

lemma setAttributeIn_ne_nil (name value : Text) (attributes : List (Text × Text)) :
    setAttributeIn name value attributes ≠ [] := by
  cases attributes with
  | nil => exact List.cons_ne_nil _ _
  | cons entry attributes =>
      rw [setAttributeIn]
      split_ifs <;> exact List.cons_ne_nil _ _

lemma lookup_entry (other : Text) (entry : Text × Text) (attributes : List (Text × Text)) :
    (entry :: attributes).lookup other
      = if other = entry.1 then some entry.2 else attributes.lookup other := by
  obtain ⟨known, old⟩ := entry
  by_cases hother : other = known
  · simp [hother]
  · simp [List.lookup_cons, beq_false_of_ne hother, hother]

lemma lookup_setAttributeIn (name value other : Text) (attributes : List (Text × Text)) :
    (setAttributeIn name value attributes).lookup other
      = if other = name then some value else attributes.lookup other := by
  induction attributes with
  | nil => exact lookup_entry other (name, value) []
  | cons entry attributes ih =>
      by_cases hknown : entry.1 = name
      · simp only [setAttributeIn, hknown, beq_self_eq_true, if_true, lookup_entry]
        split_ifs <;> rfl
      · simp only [setAttributeIn, beq_iff_eq, hknown, if_false, lookup_entry, ih]
        split_ifs with hother hname
        · exact absurd (hother.symm.trans hname) hknown
        all_goals rfl

/-- The earlier of two values for one name is lost. -/
lemma setAttributeIn_setAttributeIn (name first second : Text) (attributes : List (Text × Text)) :
    setAttributeIn name second (setAttributeIn name first attributes)
      = setAttributeIn name second attributes := by
  induction attributes with
  | nil => simp [setAttributeIn]
  | cons entry attributes ih =>
      by_cases hknown : entry.1 = name <;> simp [setAttributeIn, hknown, ih]

/-- A name that has its place can be given its value before or after another name is. -/
lemma setAttributeIn_comm {name : Text} {attributes : List (Text × Text)}
    (hplace : name ∈ attributes.map Prod.fst) {other : Text} (hother : other ≠ name)
    (value given : Text) :
    setAttributeIn name value (setAttributeIn other given attributes)
      = setAttributeIn other given (setAttributeIn name value attributes) := by
  induction attributes with
  | nil => cases hplace
  | cons entry attributes ih =>
      by_cases hknown : entry.1 = name
      · simp [setAttributeIn, hknown, hother.symm]
      · have hrest : name ∈ attributes.map Prod.fst := by
          simpa [Ne.symm hknown] using hplace
        by_cases hsame : entry.1 = other <;> simp [setAttributeIn, hknown, hsame, hother, ih hrest]

lemma setAttributeIn_setAllIn {name : Text} {given attributes : List (Text × Text)}
    (hnew : name ∉ given.map Prod.fst) (hplace : name ∈ attributes.map Prod.fst) (value : Text) :
    setAttributeIn name value (setAllIn given attributes)
      = setAllIn given (setAttributeIn name value attributes) := by
  induction given generalizing attributes with
  | nil => rfl
  | cons entry given ih =>
      simp only [List.map_cons, List.mem_cons, not_or] at hnew
      have hstill : name ∈ (setAttributeIn entry.1 entry.2 attributes).map Prod.fst := by
        rw [map_fst_setAttributeIn]
        split_ifs
        · exact hplace
        · exact List.mem_append_left _ hplace
      rw [setAllIn_cons, setAllIn_cons, ih hnew.2 hstill,
        setAttributeIn_comm hplace (Ne.symm hnew.1)]

/-- **Merging first makes no difference.**  Attributes can be merged among themselves before they
are set. -/
lemma setAllIn_setAttributeIn {pending : List (Text × Text)}
    (hnodup : (pending.map Prod.fst).Nodup) (name value : Text) (attributes : List (Text × Text)) :
    setAllIn (setAttributeIn name value pending) attributes
      = setAttributeIn name value (setAllIn pending attributes) := by
  induction pending generalizing attributes with
  | nil => rfl
  | cons entry pending ih =>
      obtain ⟨known, old⟩ := entry
      rw [List.map_cons, List.nodup_cons] at hnodup
      by_cases hknown : known = name
      · -- The merged value takes the place of the old one, which is lost when both are set.
        subst hknown
        have hplace : known ∈ (setAttributeIn known old attributes).map Prod.fst := by
          rw [map_fst_setAttributeIn]
          split_ifs with hmem
          · exact hmem
          · exact List.mem_append_right _ List.mem_cons_self
        rw [setAllIn_cons, setAttributeIn_setAllIn hnodup.1 hplace, setAttributeIn_setAttributeIn]
        simp [setAttributeIn, setAllIn_cons]
      · simp only [setAttributeIn, beq_iff_eq, hknown, if_false, setAllIn_cons]
        exact ih hnodup.2 _

lemma nodup_setAttributeIn {attributes : List (Text × Text)}
    (h : (attributes.map Prod.fst).Nodup) (name value : Text) :
    ((setAttributeIn name value attributes).map Prod.fst).Nodup := by
  rw [map_fst_setAttributeIn]
  split_ifs with hmem
  · exact h
  · exact List.nodup_append_comm.2 (List.nodup_cons.2 ⟨hmem, h⟩)

/-- Names stand in the order in which they came first. -/
lemma map_fst_setAllIn (given : List (Text × Text)) :
    (setAllIn given []).map Prod.fst = (given.map Prod.fst).eraseDups := by
  induction given using List.reverseRecOn with
  | nil => rfl
  | append_singleton given entry ih =>
      rw [setAllIn_concat, map_fst_setAttributeIn, ih, List.map_append, List.eraseDups_append]
      by_cases hmem : entry.1 ∈ given.map Prod.fst
      · simp [List.removeAll, List.mem_eraseDups, List.mem_map.1 hmem]
      · simp [List.removeAll, List.mem_eraseDups, hmem, List.eraseDups_cons]

/-- Every name has the value that came last. -/
lemma lookup_setAllIn (given : List (Text × Text)) (name : Text) :
    (setAllIn given []).lookup name = given.reverse.lookup name := by
  induction given using List.reverseRecOn with
  | nil => rfl
  | append_singleton given entry ih =>
      rw [setAllIn_concat, lookup_setAttributeIn, ih, List.reverse_concat, lookup_entry]

lemma nodup_setAllIn (given : List (Text × Text)) : ((setAllIn given []).map Prod.fst).Nodup := by
  induction given using List.reverseRecOn with
  | nil => exact List.nodup_nil
  | append_singleton given entry ih =>
      rw [setAllIn_concat]
      exact nodup_setAttributeIn ih entry.1 entry.2

/-! ## Changing what a node holds -/

namespace Outline

variable {α : Type} (t : Outline α) (id : Nat) (f : α → α)

lemma getElem?_update (i : Nat) :
    (t.update id f).nodes[i]?
      = t.nodes[i]?.map fun node => if id = i then { node with data := f node.data } else node := by
  rw [update, modify, List.getElem?_modify]
  cases t.nodes[i]? with
  | none => rfl
  | some node => by_cases hid : id = i <;> simp [hid]

@[simp] lemma size_update : (t.update id f).size = t.size := by
  simp [update, modify, size]

@[simp] lemma parent?_update (i : Nat) : (t.update id f).parent? i = t.parent? i := by
  rw [parent?, getElem?_update, parent?]
  cases t.nodes[i]? with
  | none => rfl
  | some node => by_cases hid : id = i <;> simp [hid]

@[simp] lemma depth_update (i : Nat) : (t.update id f).depth i = t.depth i := by
  rw [depth, getElem?_update, depth]
  cases t.nodes[i]? with
  | none => rfl
  | some node => by_cases hid : id = i <;> simp [hid]

lemma get?_update (i : Nat) :
    (t.update id f).get? i = (t.get? i).map fun data => if id = i then f data else data := by
  rw [get?, getElem?_update, get?]
  cases t.nodes[i]? with
  | none => rfl
  | some node => by_cases hid : id = i <;> simp [hid]

/-- Two changes of one node are one change. -/
lemma update_update (g : α → α) : (t.update id f).update id g = t.update id (g ∘ f) := by
  rw [update, modify, update, modify, update, modify, List.modify_modify_eq]
  rfl

end Outline

/-! ## Reading without collecting -/

/-- Give attributes to the rule that is open at a level, if there is one. -/
def setAtLevel (rules : OutlineBuilder StyleRule) (level : Nat) (given : List (Text × Text)) :
    OutlineBuilder StyleRule :=
  match rules.openAt? level with
  | some id => rules.update id fun rule => rule.setAttributes given
  | none => rules

@[simp] lemma openAt?_setAtLevel (rules : OutlineBuilder StyleRule) (level other : Nat)
    (given : List (Text × Text)) :
    (setAtLevel rules level given).openAt? other = rules.openAt? other := by
  unfold setAtLevel
  split <;> rfl

@[simp] lemma setAtLevel_nil (rules : OutlineBuilder StyleRule) (level : Nat) :
    setAtLevel rules level [] = rules := by
  unfold setAtLevel
  split
  · exact congrArg (fun nodes => (⟨⟨nodes, _⟩, _⟩ : OutlineBuilder StyleRule)) (List.modify_id _ _)
  · rfl

/-- One attribute more can be set afterwards or merged before. -/
lemma setAtLevel_setAtLevel (rules : OutlineBuilder StyleRule) (level : Nat)
    {pending : List (Text × Text)} (hnodup : (pending.map Prod.fst).Nodup) (name value : Text) :
    setAtLevel (setAtLevel rules level pending) level [(name, value)]
      = setAtLevel rules level (setAttributeIn name value pending) := by
  cases hopen : rules.openAt? level with
  | none => simp [setAtLevel, hopen]
  | some id =>
      have hmerged : ∀ rule : StyleRule,
          (rule.setAttributes pending).setAttributes [(name, value)]
            = rule.setAttributes (setAttributeIn name value pending) := by
        intro rule
        simp only [StyleRule.setAttributes_eq, setAllIn_setAttributeIn hnodup]
        rfl
      rw [setAtLevel, openAt?_setAtLevel, setAtLevel, setAtLevel, hopen]
      simp only [OutlineBuilder.update, Outline.update_update, Function.comp_def, hmerged]

/-- What an attribute line does: it gives a rule an attribute, if there is a rule at its level. -/
structure Placement where
  line : Nat
  target : Option NodeId
  name : Text
  value : Text
  deriving Repr, DecidableEq

/-- Give the rule its attribute. -/
def Placement.apply (p : Placement) (rules : OutlineBuilder StyleRule) :
    OutlineBuilder StyleRule :=
  match p.target with
  | some id => rules.update id fun rule => rule.setAttribute p.name p.value
  | none => rules

/-- The group that an attribute at this depth is in, of the group that was open before. -/
def groupReaching (group : Option AttributeGroup) (depth : Nat) : Option AttributeGroup :=
  group.filter fun group => group.depth + 1 = depth

/-- A stylesheet that is read line by line, with nothing pending between the lines. -/
structure StyleReading where
  calculator : Calculator
  rules : OutlineBuilder StyleRule
  group : Option AttributeGroup
  /-- What the attribute lines have done, in their order. -/
  placements : List Placement

namespace StyleReading

/-- Before the first line. -/
def start (calculator : Calculator) : StyleReading := ⟨calculator, .empty, none, []⟩

/-- The placement of an attribute that is written at a depth: on the rule that is open one level
above it, or above the group it is in. -/
def placement (d : StyleReading) (name value : Text) (depth line : Nat) : Placement :=
  let (name, below) := StyleBuilder.nameIn (groupReaching d.group depth) name
  ⟨line, if depth < below then none else d.rules.openAt? (depth - below), name, value⟩

/-- Set an attribute at once. -/
def set (d : StyleReading) (name value : Text) (depth line : Nat) : StyleReading :=
  let p := d.placement name value depth line
  { d with
    rules := p.apply d.rules
    group := groupReaching d.group depth
    placements := d.placements ++ [p] }

/-- Take in one line. -/
def step (d : StyleReading) (line : SourceLine) : Except StyleFault StyleReading :=
  match StyleLine.ofText line.content with
  | .blank => .ok d
  | .comment => .ok d
  | .constant name value => .ok { d with calculator := d.calculator.define name value }
  | .group name => .ok { d with group := some ⟨name, line.depth⟩ }
  | .computed name expression =>
    match d.calculator.calculate expression with
    | .ok value => .ok (d.set name value line.depth line.number)
    | .error cause => .error ⟨line.number, cause⟩
  | .literal name value => .ok (d.set name value line.depth line.number)
  | .rule selector =>
    .ok { d with
      rules := d.rules.push line.depth (.ofSelector selector line.number)
      group := none }

/-- What has been given to a rule, in the order of the lines. -/
def givenTo (d : StyleReading) (id : NodeId) : List (Text × Text) :=
  (d.placements.filter fun p => p.target == some id).map fun p => (p.name, p.value)

end StyleReading

/-- Read a stylesheet without collecting attributes. -/
def readStyles (unit : IndentUnit) (constants : List (Text × Text)) (source : Text) :
    Except StyleFault StyleReading :=
  (sourceLines unit source).foldlM StyleReading.step (.start (.ofList constants))

/-! ## What is pending is not lost -/

namespace StyleBuilder

variable {b : StyleBuilder} {d : StyleReading}

/-- The rules when what is pending is set. -/
def settledRules (b : StyleBuilder) : OutlineBuilder StyleRule :=
  match b.pendingLevel with
  | some level => setAtLevel b.rules level b.pending
  | none => b.rules

/-- A builder stands for the reading in which its pending attributes are set already. -/
structure Follows (b : StyleBuilder) (d : StyleReading) : Prop where
  calculator : b.calculator = d.calculator
  group : b.group = d.group
  rules : b.settledRules = d.rules
  idle : b.pending = [] ↔ b.pendingLevel = none
  nodup : (b.pending.map Prod.fst).Nodup

lemma follows_start (c : Calculator) : Follows (.start c) (.start c) :=
  ⟨rfl, rfl, rfl, ⟨fun _ => rfl, fun _ => rfl⟩, List.nodup_nil⟩

/-- Setting what is pending changes nothing that can be told. -/
lemma Follows.flush (h : Follows b d) :
    Follows b.flush d ∧ b.flush.pending = [] ∧ b.flush.pendingLevel = none := by
  by_cases hpending : b.pending = []
  · have hsame : b.flush = b := by simp [StyleBuilder.flush, hpending]
    rw [hsame]
    exact ⟨h, hpending, h.idle.1 hpending⟩
  · have hrules := h.rules
    have hfull : b.pending.isEmpty = false := by simpa using hpending
    have hidle : ([] : List (Text × Text)) = [] ↔ (none : Option Nat) = none := by simp
    unfold settledRules setAtLevel at hrules
    simp only [StyleBuilder.flush, hfull, Bool.false_eq_true, if_false]
    cases hlevel : b.pendingLevel with
    | none =>
        rw [hlevel] at hrules
        exact ⟨⟨h.calculator, h.group, hrules, hidle, List.nodup_nil⟩, rfl, rfl⟩
    | some level =>
        simp only [hlevel] at hrules
        simp only [Option.bind_some]
        cases hopen : b.rules.openAt? level with
        | none =>
            rw [hopen] at hrules
            exact ⟨⟨h.calculator, h.group, hrules, hidle, List.nodup_nil⟩, rfl, rfl⟩
        | some id =>
            rw [hopen] at hrules
            exact ⟨⟨h.calculator, h.group, hrules, hidle, List.nodup_nil⟩, rfl, rfl⟩

/-- Before an attribute of a level is collected, nothing is pending for another level. -/
lemma Follows.flush_other (h : Follows b d) (level : Nat) :
    Follows (if b.pendingLevel.any (· != level) then b.flush else b) d ∧
      ∀ other ∈ (if b.pendingLevel.any (· != level) then b.flush else b).pendingLevel,
        other = level := by
  split_ifs with hother
  · refine ⟨h.flush.1, fun other hlevel => ?_⟩
    rw [h.flush.2.2] at hlevel
    cases hlevel
  · refine ⟨h, fun other hlevel => ?_⟩
    rw [hlevel] at hother
    simpa using hother

/-- An attribute for the level that others are pending for is merged with them. -/
lemma Follows.merge (h : Follows b d) {level : Nat}
    (hlevel : ∀ other ∈ b.pendingLevel, other = level) (name value : Text) :
    Follows { b with pendingLevel := some level, pending := setAttributeIn name value b.pending }
      { d with rules := setAtLevel d.rules level [(name, value)] } := by
  have hrules : d.rules = setAtLevel b.rules level b.pending := by
    rw [← h.rules, settledRules]
    cases hpending : b.pendingLevel with
    | none => rw [h.idle.2 hpending, setAtLevel_nil]
    | some other => rw [hlevel other hpending]
  refine ⟨h.calculator, h.group, ?_, ?_, nodup_setAttributeIn h.nodup name value⟩
  · rw [hrules, setAtLevel_setAtLevel _ _ h.nodup]
    rfl
  · simp [setAttributeIn_ne_nil]

lemma Follows.collect (h : Follows b d) (name value : Text) (depth line : Nat) :
    Follows (b.collect name value depth line) (d.set name value depth line) := by
  have hgroup : b.groupAt depth = groupReaching d.group depth := by
    rw [groupAt, h.group, groupReaching]
  simp only [StyleBuilder.collect, StyleReading.set, StyleReading.placement, hgroup]
  generalize nameIn (groupReaching d.group depth) name = named
  by_cases houtside : depth < named.2
  · simp only [houtside, if_true]
    exact ⟨h.calculator, rfl, h.rules, h.idle, h.nodup⟩
  · simp only [houtside, if_false]
    have hthere : Follows { b with group := groupReaching d.group depth }
        { d with group := groupReaching d.group depth } :=
      ⟨h.calculator, rfl, h.rules, h.idle, h.nodup⟩
    obtain ⟨hready, hlevel⟩ := hthere.flush_other (depth - named.2)
    have hmerged := hready.merge hlevel named.1 value
    exact ⟨hmerged.calculator, hmerged.group, hmerged.rules, hmerged.idle, hmerged.nodup⟩

/-- One line keeps the builder and the reading together: both take it in, or both fail alike. -/
lemma Follows.step (h : Follows b d) (line : SourceLine) :
    (∃ b' d', b.step line = .ok b' ∧ d.step line = .ok d' ∧ Follows b' d') ∨
      ∃ fault, b.step line = .error fault ∧ d.step line = .error fault := by
  unfold StyleBuilder.step StyleReading.step
  cases StyleLine.ofText line.content with
  | blank | comment => exact Or.inl ⟨b, d, rfl, rfl, h⟩
  | constant name value =>
      refine Or.inl ⟨_, _, rfl, rfl, ?_, h.group, h.rules, h.idle, h.nodup⟩
      rw [h.calculator]
  | group name => exact Or.inl ⟨_, _, rfl, rfl, h.calculator, rfl, h.rules, h.idle, h.nodup⟩
  | computed name expression =>
      simp only [h.calculator]
      cases d.calculator.calculate expression with
      | error cause => exact Or.inr ⟨_, rfl, rfl⟩
      | ok value => exact Or.inl ⟨_, _, rfl, rfl, h.collect name value line.depth line.number⟩
  | literal name value =>
      exact Or.inl ⟨_, _, rfl, rfl, h.collect name value line.depth line.number⟩
  | rule selector =>
      -- What is pending is set before the rule changes which rules are open.
      have hthere : Follows { b with group := none } { d with group := none } :=
        ⟨h.calculator, rfl, h.rules, h.idle, h.nodup⟩
      obtain ⟨hset, hnil, hlevel⟩ := hthere.flush
      have hrules := hset.rules
      rw [settledRules, hlevel] at hrules
      refine Or.inl ⟨_, _, rfl, rfl, hset.calculator, hset.group, ?_, hset.idle, hset.nodup⟩
      simp only [settledRules, hlevel, hrules]

lemma Follows.foldlM (h : Follows b d) (lines : List SourceLine) :
    (∃ b' d', lines.foldlM StyleBuilder.step b = .ok b' ∧
        lines.foldlM StyleReading.step d = .ok d' ∧ Follows b' d') ∨
      ∃ fault, lines.foldlM StyleBuilder.step b = .error fault ∧
        lines.foldlM StyleReading.step d = .error fault := by
  induction lines generalizing b d with
  | nil => exact Or.inl ⟨b, d, rfl, rfl, h⟩
  | cons line lines ih =>
      rw [List.foldlM_cons, List.foldlM_cons]
      rcases h.step line with ⟨b', d', hb, hd, hnext⟩ | ⟨fault, hb, hd⟩
      · rw [hb, hd]
        exact ih hnext
      · rw [hb, hd]
        exact Or.inr ⟨fault, rfl, rfl⟩

end StyleBuilder

/-- A stylesheet is read as if every attribute line set its attribute at once. -/
lemma map_outline_parseStyles (unit : IndentUnit) (constants : List (Text × Text)) (source : Text) :
    (parseStyles unit constants source).map StyleParse.outline
      = (readStyles unit constants source).map fun d => d.rules.outline := by
  rw [parseStyles, readStyles]
  rcases (StyleBuilder.follows_start (.ofList constants)).foldlM (sourceLines unit source) with
    ⟨b, d, hb, hd, hfollows⟩ | ⟨fault, hb, hd⟩
  · obtain ⟨hset, -, hlevel⟩ := hfollows.flush
    have hrules := hset.rules
    rw [StyleBuilder.settledRules, hlevel] at hrules
    rw [hb, hd]
    exact congrArg (fun rules : OutlineBuilder StyleRule => Except.ok rules.outline) hrules
  · rw [hb, hd]
    rfl

/-! ## The attributes of a rule -/

lemma OutlineBuilder.Sound.update {α : Type} {b : OutlineBuilder α} (h : b.Sound) (id : Nat)
    (f : α → α) : (b.update id f).Sound := by
  have hshaped := h.shaped
  refine ⟨⟨?_, ?_, ?_, ?_⟩, ?_, ?_, ?_, ?_⟩ <;>
    simp only [OutlineBuilder.update, Outline.size_update, Outline.parent?_update,
      Outline.depth_update]
  · exact hshaped.depth_root
  · exact hshaped.depth_child
  · exact hshaped.parent_lt
  · exact hshaped.between
  · exact h.open_lt
  · exact h.open_depth
  · exact h.open_below
  · exact h.open_length

namespace Placement

variable (p : Placement) {rules : OutlineBuilder StyleRule}

@[simp] lemma openPath_apply : (p.apply rules).openPath = rules.openPath := by
  unfold apply
  split <;> rfl

@[simp] lemma size_apply : (p.apply rules).outline.size = rules.outline.size := by
  unfold apply
  split
  · exact Outline.size_update ..
  · rfl

@[simp] lemma depth_apply (i : Nat) :
    (p.apply rules).outline.depth i = rules.outline.depth i := by
  unfold apply
  split
  · exact Outline.depth_update ..
  · rfl

lemma get?_apply (i : Nat) :
    (p.apply rules).outline.get? i
      = (rules.outline.get? i).map fun rule =>
          if p.target = some i then rule.setAttribute p.name p.value else rule := by
  unfold apply
  cases htarget : p.target with
  | none => simp
  | some id => simp [OutlineBuilder.update, Outline.get?_update]

lemma sound_apply (h : rules.Sound) : (p.apply rules).Sound := by
  unfold apply
  split
  · exact h.update _ _
  · exact h

end Placement

namespace StyleReading

variable {d d' : StyleReading} {line : SourceLine}

/-- The name and the value that an attribute line gives. -/
def given? (c : Calculator) (line : SourceLine) : Option (Text × Text) :=
  match StyleLine.ofText line.content with
  | .literal name value => some (name, value)
  | .computed name expression => (c.calculate expression).toOption.map fun value => (name, value)
  | _ => none

/-- Whether a line gives an attribute. -/
def isAttributeLine (line : SourceLine) : Bool :=
  match StyleLine.ofText line.content with
  | .literal _ _ => true
  | .computed _ _ => true
  | _ => false

/-- Whether a line is a rule. -/
def isRuleLine (line : SourceLine) : Bool :=
  match StyleLine.ofText line.content with
  | .rule _ => true
  | _ => false

/-- What a line can do: set an attribute, add a rule, or change neither. -/
lemma step_cases (h : d.step line = .ok d') :
    (∃ name value, given? d.calculator line = some (name, value) ∧
        isAttributeLine line = true ∧ isRuleLine line = false ∧
        d' = d.set name value line.depth line.number) ∨
      (∃ selector, isAttributeLine line = false ∧ isRuleLine line = true ∧ d' = { d with
        rules := d.rules.push line.depth (.ofSelector selector line.number), group := none }) ∨
      (isAttributeLine line = false ∧ isRuleLine line = false ∧
        ∃ calculator group, d' = { d with calculator := calculator, group := group }) := by
  unfold step at h
  unfold given? isAttributeLine isRuleLine
  cases hkind : StyleLine.ofText line.content with
  | blank | comment | constant | group =>
      rw [hkind] at h
      cases h
      exact Or.inr (Or.inr ⟨rfl, rfl, _, _, rfl⟩)
  | computed name expression =>
      rw [hkind] at h
      simp only at h
      cases hvalue : d.calculator.calculate expression with
      | error cause =>
          rw [hvalue] at h
          cases h
      | ok value =>
          rw [hvalue] at h
          cases h
          exact Or.inl ⟨name, value, by simp [hvalue, Except.toOption], rfl, rfl, rfl⟩
  | literal name value =>
      rw [hkind] at h
      cases h
      exact Or.inl ⟨name, value, rfl, rfl, rfl, rfl⟩
  | rule selector =>
      rw [hkind] at h
      cases h
      exact Or.inr (Or.inl ⟨selector, rfl, rfl, rfl⟩)

lemma givenTo_set (name value : Text) (depth number : Nat) (id : NodeId) :
    (d.set name value depth number).givenTo id
      = d.givenTo id ++
          let p := d.placement name value depth number
          if p.target = some id then [(p.name, p.value)] else [] := by
  simp only [givenTo, set, List.filter_append, List.map_append]
  by_cases htarget : (d.placement name value depth number).target = some id <;> simp [htarget]

lemma target_placement {name value : Text} {depth number : Nat} {id : NodeId}
    (h : (d.placement name value depth number).target = some id) :
    ∃ level : Nat, d.rules.openPath[level]? = some id := by
  unfold placement at h
  simp only at h
  split_ifs at h
  exact ⟨_, h⟩

/-- The rules of a reading hold exactly what the placements have given to them. -/
structure Recorded (d : StyleReading) : Prop where
  sound : d.rules.Sound
  target_lt : ∀ p ∈ d.placements, ∀ id ∈ p.target, id < d.rules.outline.size
  attributes : ∀ id rule, d.rules.outline.get? id = some rule →
    rule.attributes = setAllIn (d.givenTo id) []

lemma recorded_start (c : Calculator) : (start c).Recorded :=
  ⟨OutlineBuilder.sound_empty, fun _ hp => absurd hp List.not_mem_nil,
    fun _ _ h => by cases h⟩

lemma Recorded.set (h : d.Recorded) (name value : Text) (depth number : Nat) :
    (d.set name value depth number).Recorded := by
  refine ⟨Placement.sound_apply _ h.sound, fun p hp id hid => ?_, fun id rule hrule => ?_⟩
  · simp only [StyleReading.set, Placement.size_apply]
    rcases List.mem_append.1 hp with hp | hp
    · exact h.target_lt p hp id hid
    · rw [List.mem_singleton.1 hp] at hid
      obtain ⟨level, hlevel⟩ := target_placement hid
      exact h.sound.open_lt level id hlevel
  · rw [StyleReading.set, Placement.get?_apply, Option.map_eq_some_iff] at hrule
    obtain ⟨before, hbefore, rfl⟩ := hrule
    have hattributes := h.attributes id before hbefore
    rw [givenTo_set]
    by_cases htarget : (d.placement name value depth number).target = some id
    · simp only [htarget, if_true, setAllIn_concat, ← hattributes]
      rfl
    · simp only [htarget, if_false, List.append_nil, ← hattributes]

lemma Recorded.push (h : d.Recorded) (depth : Nat) (selector : Text) (number : Nat)
    (group : Option AttributeGroup) :
    { d with
      rules := d.rules.push depth (.ofSelector selector number), group := group }.Recorded := by
  refine ⟨h.sound.push depth _, fun p hp id hid => ?_, fun id rule hrule => ?_⟩
  · simp only [OutlineBuilder.outline_push, Outline.size_append]
    exact (h.target_lt p hp id hid).trans (Nat.lt_succ_self _)
  · rw [OutlineBuilder.outline_push, Outline.get?_append] at hrule
    split_ifs at hrule with hnew
    · -- Nothing has been given to a rule before it is there.
      cases hrule
      have hnone : d.givenTo id = [] := by
        rw [givenTo, List.map_eq_nil_iff, List.filter_eq_nil_iff]
        intro p hp htarget
        exact (h.target_lt p hp id (by simpa using htarget)).ne hnew
      change [] = setAllIn (d.givenTo id) []
      rw [hnone]
      rfl
    · exact h.attributes id rule hrule

lemma Recorded.step (h : d.Recorded) (hstep : d.step line = .ok d') : d'.Recorded := by
  rcases step_cases hstep with
    ⟨name, value, -, -, -, rfl⟩ | ⟨selector, -, -, rfl⟩ | ⟨-, -, _, _, rfl⟩
  · exact h.set name value line.depth line.number
  · exact h.push line.depth selector line.number none
  · exact ⟨h.sound, h.target_lt, h.attributes⟩

end StyleReading

/-- **Collecting attributes cannot be told from setting them at once.**  Both ways of reading a
stylesheet give the same outline or the same fault.  So the attributes of a rule have different
names, in the order in which attribute lines for this rule have named them first, and each has the
value that such a line has given it last. -/
theorem parseStyles_eq_readStyles (unit : IndentUnit) (constants : List (Text × Text))
    (source : Text) :
    (parseStyles unit constants source).map StyleParse.outline
        = (readStyles unit constants source).map (fun d => d.rules.outline) ∧
      ∀ d, readStyles unit constants source = .ok d → ∀ id rule,
        d.rules.outline.get? id = some rule →
          (rule.attributes.map Prod.fst).Nodup ∧
          rule.attributes.map Prod.fst = ((d.givenTo id).map Prod.fst).eraseDups ∧
          ∀ name, rule.attributes.lookup name = (d.givenTo id).reverse.lookup name := by
  refine ⟨map_outline_parseStyles unit constants source, fun d hd id rule hrule => ?_⟩
  have hrecorded : d.Recorded :=
    foldlM_induction (P := fun _ d => d.Recorded) (StyleReading.recorded_start (.ofList constants))
      (fun _ _ _ _ h hstep => h.step hstep) hd
  rw [hrecorded.attributes id rule hrule]
  exact ⟨nodup_setAllIn _, map_fst_setAllIn _, lookup_setAllIn _⟩

/-- Attributes of two rules, written in turns and some of them twice. -/
def nestedSheet : Text :=
  ("ul\n  :margin 0\n  li\n    :color red\n    :font\n      :size 2em\n    :color blue\n"
    ++ "  :top 0\n  :margin 1px").toList

theorem parseStyles_eq_readStyles_nestedSheet :
    ∃ d rule, readStyles (.spaces 2) [] nestedSheet = .ok d ∧
      d.rules.outline.get? 1 = some rule ∧
      d.givenTo 1 = [("color".toList, "red".toList), ("font-size".toList, "2em".toList),
        ("color".toList, "blue".toList)] ∧
      (rule.attributes.map Prod.fst).Nodup ∧
      rule.attributes.map Prod.fst = ["color".toList, "font-size".toList] ∧
      rule.attributes.lookup "color".toList = some "blue".toList := by
  have hread : (readStyles (.spaces 2) [] nestedSheet).map
      (fun d => ((d.rules.outline.get? 1).isSome, d.givenTo 1))
        = .ok (true, [("color".toList, "red".toList), ("font-size".toList, "2em".toList),
            ("color".toList, "blue".toList)]) := by
    decide +kernel
  cases hd : readStyles (.spaces 2) [] nestedSheet with
  | error fault =>
      rw [hd] at hread
      cases hread
  | ok d =>
      rw [hd] at hread
      obtain ⟨hrule, hgiven⟩ := Prod.mk.inj (Except.ok.inj hread)
      obtain ⟨rule, hrule⟩ := Option.isSome_iff_exists.1 hrule
      obtain ⟨hnodup, hnames, hvalues⟩ :=
        (parseStyles_eq_readStyles (.spaces 2) [] nestedSheet).2 d hd 1 rule hrule
      refine ⟨d, rule, rfl, hrule, hgiven, hnodup, ?_, ?_⟩
      · rw [hnames, hgiven]
        decide +kernel
      · rw [hvalues, hgiven]
        decide +kernel

end Offside
