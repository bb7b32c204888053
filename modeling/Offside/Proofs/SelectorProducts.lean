import Mathlib
import Offside.Proofs.AttributePlacement
import Offside.Proofs.Text
import Offside.Stylesheet.Rule

/-!
# Selectors as products

The selectors of a rule are put together level by level: every fragment of the rule goes behind
every selector of the rule above it.  Here they are described all at once, by the ways to choose one
fragment on each level from the root down to the rule.

**The path.**  However an outline has been grown, the rules above a rule are those on the one path
that leads from a root down to it (`Outline.PathTo`).

**The product.**  Choosing on one more level at the end makes the new choice the one that counts
most in the order (`sections_concat`), and this is the step by which selectors are put together
(`combineFragments_reverse`).  A choice is a list of indices, and the choices come in the
lexicographic order of these lists read from the rule up (`pairwise_sections_range`).
-/

namespace Offside

namespace Outline

variable {α : Type} {t : Outline α}

/-! ## The path to a node -/

/-- The outlines there are: nodes are added under nodes that are there already, what they hold is
changed, and children are detached. -/
inductive Grown : Outline α → Prop where
  | empty : Grown empty
  | append {t : Outline α} {parent : Option NodeId} {data : α} :
      Grown t → (∀ p ∈ parent, p < t.size) → Grown (t.append parent data)
  | update {t : Outline α} {id : NodeId} {f : α → α} : Grown t → Grown (t.update id f)
  | clearChildren {t : Outline α} {id : NodeId} : Grown t → Grown (t.clearChildren id)

/-- The nodes on the way from a root down to a node, both included. -/
inductive PathTo (t : Outline α) : List NodeId → NodeId → Prop where
  | root {id : NodeId} : id < t.size → t.parent? id = none → PathTo t [id] id
  | child {path : List NodeId} {p id : NodeId} :
      PathTo t path p → t.parent? id = some p → PathTo t (path ++ [id]) id

lemma Grown.parent_lt (h : t.Grown) : ∀ i p : Nat, t.parent? i = some p → p < i := by
  induction h with
  | empty => exact fun i p hp => by cases hp
  | @append t parent data _ hparent ih =>
      intro i p hp
      rw [parent?_append] at hp
      split_ifs at hp with hi
      · rw [hi]
        exact hparent p hp
      · exact ih i p hp
  | update _ ih => simpa using ih
  | @clearChildren t id _ ih =>
      intro i p hp
      rw [(sameShape_clearChildren t id).parent] at hp
      exact ih i p hp

lemma Grown.ancestors_eq (h : t.Grown) (i : Nat) :
    t.ancestors i = (t.parent? i).elim [] fun p => p :: t.ancestors p := by
  have hstep := ancestorsWithin_eq_ancestors h.parent_lt (Nat.le_succ i)
  rw [← hstep, ancestorsWithin]
  cases hp : t.parent? i with
  | none => rfl
  | some p =>
      have hlt := h.parent_lt i p hp
      simp only [ancestorsWithin_eq_ancestors h.parent_lt hlt.le, Option.elim_some]

/-- Every node is reached from a root, and its ancestors are the path read upwards. -/
lemma Grown.exists_pathTo (h : t.Grown) {id : Nat} (hid : id < t.size) :
    ∃ path, t.PathTo path id ∧ id :: t.ancestors id = path.reverse := by
  induction id using Nat.strong_induction_on with
  | _ id ih =>
      rw [h.ancestors_eq]
      cases hp : t.parent? id with
      | none => exact ⟨[id], .root hid hp, rfl⟩
      | some p =>
          have hlt := h.parent_lt id p hp
          obtain ⟨path, hpath, hreverse⟩ := ih p hlt (hlt.trans hid)
          refine ⟨path ++ [id], hpath.child hp, ?_⟩
          rw [Option.elim_some, hreverse, List.reverse_append]
          rfl

/-- Every node on a path holds something. -/
lemma PathTo.exists_data {path : List NodeId} {id : NodeId} (h : t.PathTo path id) :
    ∃ held : List α, path.map t.get? = held.map some := by
  have hget : ∀ {i : Nat}, i < t.size → ∃ data, t.get? i = some data := fun hi =>
    ⟨_, by rw [get?, List.getElem?_eq_getElem hi, Option.map_some]⟩
  induction h with
  | root hid _ =>
      obtain ⟨data, hdata⟩ := hget hid
      exact ⟨[data], by simp [hdata]⟩
  | child _ hp ih =>
      obtain ⟨held, hheld⟩ := ih
      obtain ⟨data, hdata⟩ := hget (lt_size_of_parent? hp)
      exact ⟨held ++ [data], by simp [hheld, hdata]⟩

end Outline

/-! ## Choices -/

section Sections

variable {β : Type}

/-- A choice on one more level counts more than all choices before. -/
lemma sections_concat (levels : List (List β)) (last : List β) :
    (levels ++ [last]).sections
      = last.flatMap fun item => levels.sections.map fun choice => choice ++ [item] := by
  induction levels with
  | nil => simp [List.sections, ← List.map_eq_flatMap]
  | cons level levels ih =>
      rw [List.cons_append, List.sections, ih, List.flatMap_assoc, List.sections]
      simp [List.flatMap_map, List.map_flatMap, Function.comp_def]

lemma length_sections (levels : List (List β)) :
    levels.sections.length = (levels.map List.length).prod := by
  induction levels with
  | nil => rfl
  | cons level levels ih =>
      simp [List.sections, List.length_flatMap, ih, Nat.mul_comm]

/-- The item at each index of a choice. -/
def pickAll (default : β) (choice : List Nat) (levels : List (List β)) : List β :=
  List.zipWith (fun index level => level.getD index default) choice levels

/-- Choosing items is choosing their indices. -/
lemma sections_eq_map_pickAll (default : β) (levels : List (List β)) :
    levels.sections = ((levels.map fun level => List.range level.length).sections).map fun choice =>
      pickAll default choice levels := by
  induction levels with
  | nil => rfl
  | cons level levels ih =>
      have hlevel : level
          = (List.range level.length).map fun index => level.getD index default := by
        refine List.ext_getElem (by simp) fun i hi _ => ?_
        simp [hi]
      rw [List.sections, ih, List.map_cons, List.sections, List.flatMap_map, List.map_flatMap]
      conv_lhs => rw [hlevel]
      simp [pickAll, Function.comp_def]

end Sections

/-- Choices of indices come in lexicographic order, the last index counting most. -/
lemma pairwise_sections_range (sizes : List Nat) :
    (sizes.map List.range).sections.Pairwise fun a b => a.reverse < b.reverse := by
  induction sizes using List.reverseRecOn with
  | nil => exact List.pairwise_singleton _ _
  | append_singleton sizes size ih =>
      rw [List.map_append, List.map_singleton, sections_concat, List.pairwise_flatMap]
      constructor
      · intro index _
        rw [List.pairwise_map]
        refine ih.imp fun hlt => ?_
        simpa [List.cons_lt_cons_iff] using hlt
      · refine List.pairwise_lt_range.imp fun hlt => ?_
        simp only [List.mem_map]
        rintro _ ⟨a, -, rfl⟩ _ ⟨b, -, rfl⟩
        simp [List.cons_lt_cons_iff, hlt]

/-! ## Selectors -/

/-- The selectors on a path of levels, the root first: one for each way to choose a fragment on
every level. -/
lemma combineFragments_reverse {levels : List (List Text)} (hne : levels ≠ []) :
    combineFragments levels.reverse = levels.sections.map (Text.join " ") := by
  induction levels using List.reverseRecOn with
  | nil => exact absurd rfl hne
  | append_singleton levels last ih =>
      rw [List.reverse_append, List.reverse_singleton, List.singleton_append, sections_concat,
        List.map_flatMap]
      cases hrest : levels.reverse with
      | nil =>
          rw [List.reverse_eq_nil_iff.1 hrest]
          simp [combineFragments, List.sections, Text.join]
      | cons next above =>
          have hlevels : levels ≠ [] := fun hnil => by simp [hnil] at hrest
          rw [combineFragments, ← hrest, ih hlevels]
          · refine List.flatMap_congr fun fragment _ => ?_
            rw [List.map_map, List.map_map]
            refine List.map_congr_left fun choice hchoice => ?_
            have hchoice : choice ≠ [] := by
              rintro rfl
              exact hlevels (List.length_eq_zero_iff.1 (List.mem_sections_length hchoice).symm)
            exact (join_append_singleton " " hchoice fragment).symm
          · simp

/-- Texts that are chosen on levels, the first level being the outermost: one text for each choice
of an item on every level, with single spaces between the items.  They come in lexicographic order
of the indices chosen, where the index on the last level counts most and that on the first least. -/
structure OrderedProduct (levels : List (List Text)) (texts : List Text) : Prop where
  length : texts.length = (levels.map List.length).prod
  chosen : ∃ choices : List (List Nat),
    (∀ choice, choice ∈ choices ↔
      List.Forall₂ (fun index (level : List Text) => index < level.length) choice levels) ∧
    (choices.Pairwise fun a b => a.reverse < b.reverse) ∧
    texts = choices.map fun choice => Text.join " " (pickAll [] choice levels)

lemma orderedProduct_sections (levels : List (List Text)) :
    OrderedProduct levels (levels.sections.map (Text.join " ")) where
  length := by rw [List.length_map, length_sections]
  chosen := by
    refine ⟨((levels.map List.length).map List.range).sections, fun choice => ?_,
      pairwise_sections_range _, ?_⟩
    · simp only [List.mem_sections, List.map_map, List.forall₂_map_right_iff, Function.comp_apply,
        List.mem_range]
    · rw [sections_eq_map_pickAll [] levels, List.map_map, List.map_map]
      rfl

/-- **Selectors are the ordered product along the path.**  Every rule of a stylesheet stands at the
end of a path of rules from a root, and its selectors are the ordered product of the fragments of
these rules, from the root down. -/
theorem selectors_eq_product {t : StyleOutline} (ht : t.Grown) {id : NodeId} (hid : id < t.size) :
    ∃ (path : List NodeId) (rules : List StyleRule),
      t.PathTo path id ∧ path.map t.get? = rules.map some ∧
      OrderedProduct (rules.map StyleRule.fragments) (selectors t id) := by
  obtain ⟨path, hpath, hupwards⟩ := ht.exists_pathTo hid
  obtain ⟨rules, hrules⟩ := hpath.exists_data
  have hlevels : (id :: t.ancestors id).map (fun node =>
      ((t.get? node).map StyleRule.fragments).getD [])
        = (rules.map StyleRule.fragments).reverse := by
    have hheld := congrArg (List.map fun held : Option StyleRule =>
      (held.map StyleRule.fragments).getD []) hrules
    simp only [List.map_map, Function.comp_def, Option.map_some, Option.getD_some] at hheld
    rw [hupwards, List.map_reverse, hheld]
  have hne : rules.map StyleRule.fragments ≠ [] := by
    intro hnil
    rw [hnil] at hlevels
    cases hlevels
  refine ⟨path, rules, hpath, hrules, ?_⟩
  rw [selectors, hlevels, combineFragments_reverse hne]
  exact orderedProduct_sections _

/-- Rules below each other, with a blank fragment and one that is there twice, and a rule below one
that has no fragments. -/
def crossedRules : StyleOutline :=
  ((((Outline.empty.append none (.ofSelector "ul, ,ol".toList 1)).append (some 0)
    (.ofSelector "li".toList 2)).append (some 1) (.ofSelector "a,b , a".toList 3)).append (some 0)
    (.ofSelector " , ".toList 4)).append (some 3) (.ofSelector "i".toList 5)

theorem selectors_eq_product_crossedRules :
    crossedRules.Grown ∧
    (∃ (path : List NodeId) (rules : List StyleRule),
      crossedRules.PathTo path 2 ∧ path.map crossedRules.get? = rules.map some ∧
      OrderedProduct (rules.map StyleRule.fragments)
        ["ul li a".toList, "ol li a".toList, "ul li b".toList, "ol li b".toList,
          "ul li a".toList, "ol li a".toList]) ∧
    ∃ (path : List NodeId) (rules : List StyleRule),
      crossedRules.PathTo path 4 ∧ path.map crossedRules.get? = rules.map some ∧
      OrderedProduct (rules.map StyleRule.fragments) [] := by
  have hgrown : crossedRules.Grown :=
    ((((Outline.Grown.empty.append (by simp)).append (by decide)).append (by decide)).append
      (by decide)).append (by decide)
  exact ⟨hgrown, selectors_eq_product hgrown (show 2 < crossedRules.size by decide),
    selectors_eq_product hgrown (show 4 < crossedRules.size by decide)⟩

end Offside
