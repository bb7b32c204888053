import Mathlib
import Offside.Outline.Builder

/-!
# The shape of an outline

An outline is built by adding lines at their depths, and children can be detached from a node at any
time in between.  This file says what the outline looks like after any sequence of such edits.

**Shape.**  Parents and depths do not depend on what has been detached.  The parent of a node comes
before it, one level higher, and nothing that stands between the two is less deep than the node
(`Outline.Shaped`).  So the nodes below a node are those that follow it and are deeper, up to the
first that is not: `Outline.Below` says this in terms of depths alone, and
`Shaped.mem_ancestors_iff` that it is the same as having the node among the ancestors.

**The open path.**  The builder keeps only the path of open nodes.  What ties the path to the whole
outline is that every node after the open one at depth `k` is deeper than `k`
(`OutlineBuilder.Sound`).  One edit preserves it (`Sound.edit`), hence every run of edits does.

**The result.**  `Outline.readsDepths_ofDepths` describes the outline of a list of lines in terms of
the depths they are written at.
-/

namespace Offside

/-! ## Edits -/

/-- A change of an outline that is being built. -/
inductive OutlineEdit (α : Type) where
  /-- Add a node that is written at a depth. -/
  | push (depth : Nat) (data : α)
  /-- Detach the children of a node. -/
  | clear (id : NodeId)
  deriving Repr, DecidableEq

/-- The node that an edit adds, with the depth it is written at. -/
def OutlineEdit.pushed? {α : Type} : OutlineEdit α → Option (Nat × α)
  | push depth data => some (depth, data)
  | clear _ => none

namespace OutlineBuilder

variable {α : Type}

/-- Make an edit. -/
def edit (b : OutlineBuilder α) : OutlineEdit α → OutlineBuilder α
  | .push depth data => b.push depth data
  | .clear id => { b with outline := b.outline.clearChildren id }

/-- Make edits one after the other, beginning with nothing. -/
def ofEdits (edits : List (OutlineEdit α)) : OutlineBuilder α := edits.foldl edit empty

lemma ofEdits_concat (edits : List (OutlineEdit α)) (e : OutlineEdit α) :
    ofEdits (edits ++ [e]) = (ofEdits edits).edit e := by
  simp [ofEdits, List.foldl_append]

end OutlineBuilder

namespace Outline

variable {α : Type} {t : Outline α}

/-! ## Look-ups after a change -/

/-- Nodes that differ in their children only are the same to all other look-ups. -/
lemma lookups_of_children {t' : Outline α} {i : Nat} {f : OutlineNode α → List NodeId}
    (h : t'.nodes[i]? = t.nodes[i]?.map fun node => { node with children := f node }) :
    t'.get? i = t.get? i ∧ t'.parent? i = t.parent? i ∧ t'.depth i = t.depth i := by
  simp only [get?, parent?, depth, h]
  cases t.nodes[i]? with
  | none => exact ⟨rfl, rfl, rfl⟩
  | some node => exact ⟨rfl, rfl, rfl⟩

lemma lt_size_of_getElem? {i : Nat} {node : OutlineNode α} (h : t.nodes[i]? = some node) :
    i < t.size :=
  (List.getElem?_eq_some_iff.1 h).1

lemma lt_size_of_parent? {i p : Nat} (h : t.parent? i = some p) : i < t.size := by
  obtain ⟨node, hnode, -⟩ := Option.bind_eq_some_iff.1 h
  exact lt_size_of_getElem? hnode

lemma size_append (parent : Option NodeId) (data : α) :
    (t.append parent data).size = t.size + 1 := by
  cases parent <;> simp [append, modify, size]

lemma roots_append (parent : Option NodeId) (data : α) :
    (t.append parent data).roots = if parent = none then t.roots ++ [t.size] else t.roots := by
  cases parent <;> rfl

section Append

variable (parent : Option NodeId) (data : α)

/-- The new node. -/
lemma getElem?_append_self :
    (t.append parent data).nodes[t.size]?
      = some ⟨data, parent, [], parent.elim 0 fun p => t.depth p + 1⟩ := by
  cases parent <;> simp [append, modify, size]

/-- The other nodes: only the parent of the new one has changed. -/
lemma getElem?_append_of_ne {i : Nat} (hi : i ≠ t.size) :
    (t.append parent data).nodes[i]?
      = t.nodes[i]?.map fun node => { node with
          children := if parent = some i then node.children ++ [t.size] else node.children } := by
  have hlast : ∀ nodes : List (OutlineNode α), nodes.length = t.size → ∀ node,
      (nodes ++ [node])[i]? = nodes[i]? := by
    intro nodes hlength node
    rcases Nat.lt_or_gt_of_ne hi with hlt | hgt
    · exact List.getElem?_append_left (hlength ▸ hlt)
    · rw [List.getElem?_eq_none (by simp; omega), List.getElem?_eq_none (by omega)]
  cases parent with
  | none =>
      rw [append, hlast _ rfl]
      simp
  | some p =>
      rw [append, hlast _ (by simp [modify, size]), modify, List.getElem?_modify]
      cases t.nodes[i]? with
      | none => rfl
      | some node => by_cases hp : p = i <;> simp [hp]

lemma get?_append (i : Nat) :
    (t.append parent data).get? i = if i = t.size then some data else t.get? i := by
  split_ifs with hi
  · rw [hi, get?, getElem?_append_self, Option.map_some]
  · exact (lookups_of_children (getElem?_append_of_ne parent data hi)).1

lemma parent?_append (i : Nat) :
    (t.append parent data).parent? i = if i = t.size then parent else t.parent? i := by
  split_ifs with hi
  · rw [hi, parent?, getElem?_append_self, Option.bind_some]
  · exact (lookups_of_children (getElem?_append_of_ne parent data hi)).2.1

lemma depth_append (i : Nat) :
    (t.append parent data).depth i
      = if i = t.size then parent.elim 0 fun p => t.depth p + 1 else t.depth i := by
  split_ifs with hi
  · rw [hi, depth, getElem?_append_self, Option.map_some, Option.getD_some]
  · exact (lookups_of_children (getElem?_append_of_ne parent data hi)).2.2

lemma children_append {parent : Option NodeId} (hparent : ∀ p ∈ parent, p < t.size) (i : Nat) :
    (t.append parent data).children i
      = if parent = some i then t.children i ++ [t.size] else t.children i := by
  rcases eq_or_ne i t.size with rfl | hi
  · have hnone : t.nodes[t.size]? = none := List.getElem?_eq_none le_rfl
    have hself : parent ≠ some t.size := fun h => (hparent _ h).false
    rw [if_neg hself, children, children, getElem?_append_self, hnone]
    rfl
  · rw [children, children, getElem?_append_of_ne parent data hi]
    cases hnode : t.nodes[i]? with
    | none =>
        rw [if_neg]
        · rfl
        · intro hchild
          exact absurd (hparent i hchild) (not_lt.2 (List.getElem?_eq_none_iff.1 hnode))
    | some node => split_ifs <;> rfl

end Append

section Clear

variable (id : Nat)

lemma getElem?_clearChildren (i : Nat) :
    (t.clearChildren id).nodes[i]?
      = t.nodes[i]?.map fun node => { node with
          children := if id = i then [] else node.children } := by
  rw [clearChildren, modify, List.getElem?_modify]
  cases t.nodes[i]? with
  | none => rfl
  | some node => by_cases hid : id = i <;> simp [hid]

lemma children_clearChildren (i : Nat) :
    (t.clearChildren id).children i = if id = i then [] else t.children i := by
  rw [children, getElem?_clearChildren, children]
  cases t.nodes[i]? <;> split_ifs <;> rfl

end Clear

/-- Two outlines differ at most in which children are detached. -/
structure SameShape (t t' : Outline α) : Prop where
  size : t'.size = t.size
  roots : t'.roots = t.roots
  get : ∀ i, t'.get? i = t.get? i
  parent : ∀ i, t'.parent? i = t.parent? i
  depth : ∀ i, t'.depth i = t.depth i

lemma sameShape_clearChildren (t : Outline α) (id : Nat) : SameShape t (t.clearChildren id) where
  size := by simp [clearChildren, modify, Outline.size]
  roots := rfl
  get i := (lookups_of_children (getElem?_clearChildren id i)).1
  parent i := (lookups_of_children (getElem?_clearChildren id i)).2.1
  depth i := (lookups_of_children (getElem?_clearChildren id i)).2.2

lemma sameShape_foldl_clearChildren (t : Outline α) (ids : List Nat) :
    SameShape t (ids.foldl clearChildren t) := by
  induction ids generalizing t with
  | nil => exact ⟨rfl, rfl, fun _ => rfl, fun _ => rfl, fun _ => rfl⟩
  | cons id ids ih =>
      have hfirst := sameShape_clearChildren t id
      have hrest := ih (t.clearChildren id)
      exact ⟨hrest.size.trans hfirst.size, hrest.roots.trans hfirst.roots,
        fun i => (hrest.get i).trans (hfirst.get i),
        fun i => (hrest.parent i).trans (hfirst.parent i),
        fun i => (hrest.depth i).trans (hfirst.depth i)⟩

lemma children_foldl_clearChildren (t : Outline α) (ids : List Nat) (i : Nat) :
    (ids.foldl clearChildren t).children i = if i ∈ ids then [] else t.children i := by
  induction ids generalizing t with
  | nil => rfl
  | cons id ids ih =>
      rw [List.foldl_cons, ih, children_clearChildren]
      by_cases hid : id = i
      · simp [hid]
      · simp [hid, Ne.symm hid]

/-! ## Shape -/

/-- Every node stands where its depth says: its parent is the nearest node before it that is less
deep, and one level higher. -/
structure Shaped (t : Outline α) : Prop where
  depth_root : ∀ i, t.parent? i = none → t.depth i = 0
  depth_child : ∀ i p, t.parent? i = some p → t.depth i = t.depth p + 1
  parent_lt : ∀ i p : Nat, t.parent? i = some p → p < i
  between : ∀ i p j : Nat, t.parent? i = some p → p < j → j < i → t.depth i ≤ t.depth j

lemma SameShape.shaped {t' : Outline α} (h : SameShape t t') (ht : t.Shaped) : t'.Shaped := by
  refine ⟨?_, ?_, ?_, ?_⟩ <;> simp only [h.parent, h.depth]
  · exact ht.depth_root
  · exact ht.depth_child
  · exact ht.parent_lt
  · exact ht.between

/-- A node follows another and is deeper, and so is everything between them. -/
def Below (t : Outline α) (a i : Nat) : Prop :=
  a < i ∧ ∀ j, a < j → j ≤ i → t.depth a < t.depth j

lemma Below.trans {a b c : Nat} (hab : t.Below a b) (hbc : t.Below b c) : t.Below a c := by
  refine ⟨hab.1.trans hbc.1, fun j haj hjc => ?_⟩
  rcases le_or_gt j b with hjb | hbj
  · exact hab.2 j haj hjb
  · exact (hab.2 b hab.1 le_rfl).trans (hbc.2 j hbj hjc)

/-- What is below a node ends before the next node that is not deeper. -/
lemma Below.lt_of_depth_le {a i b : Nat} (h : t.Below a i) (hab : a < b)
    (hdepth : t.depth b ≤ t.depth a) : i < b := by
  by_contra hbi
  have hdeeper := h.2 b hab (not_lt.1 hbi)
  omega

/-- Of two nodes that a third one is below, the later one is below the earlier one. -/
lemma Below.of_lt {a b i : Nat} (ha : t.Below a i) (hb : t.Below b i) (hab : a < b) :
    t.Below a b :=
  ⟨hab, fun j haj hjb => ha.2 j haj (hjb.trans hb.1.le)⟩

lemma ancestorsWithin_eq_ancestors (h : ∀ i p : Nat, t.parent? i = some p → p < i)
    {steps i : Nat} (hi : i ≤ steps) : t.ancestorsWithin steps i = t.ancestors i := by
  -- The bound on the steps is never reached, because every step leads to a smaller number.
  have hall : ∀ i s₁ s₂ : Nat, i ≤ s₁ → i ≤ s₂ →
      t.ancestorsWithin s₁ i = t.ancestorsWithin s₂ i := by
    intro i
    induction i using Nat.strong_induction_on with
    | _ i ih =>
        have hstep : ∀ s, i ≤ s → t.ancestorsWithin s i
            = (t.parent? i).elim [] fun p => p :: t.ancestorsWithin p p := by
          intro s hs
          cases s with
          | zero =>
              cases hp : t.parent? i with
              | none => rfl
              | some p =>
                  have hlt := h i p hp
                  omega
          | succ s =>
              rw [ancestorsWithin]
              cases hp : t.parent? i with
              | none => rfl
              | some p =>
                  have hlt := h i p hp
                  simp only [ih p hlt s p (by omega) le_rfl, Option.elim_some]
        intro s₁ s₂ h₁ h₂
        rw [hstep s₁ h₁, hstep s₂ h₂]
  exact hall i steps i hi le_rfl

lemma SameShape.ancestors {t' : Outline α} (h : SameShape t t') (i : Nat) :
    t'.ancestors i = t.ancestors i := by
  have hwithin : ∀ steps i, t'.ancestorsWithin steps i = t.ancestorsWithin steps i := by
    intro steps
    induction steps with
    | zero => exact fun _ => rfl
    | succ steps ih =>
        intro i
        simp only [ancestorsWithin, h.parent, ih]
  exact hwithin i i

namespace Shaped

/-- The ancestors of a node are its parent and the ancestors of that. -/
lemma ancestors_eq (h : t.Shaped) (i : Nat) :
    t.ancestors i
      = match t.parent? i with
        | some p => p :: t.ancestors p
        | none => [] := by
  cases i with
  | zero =>
      cases hp : t.parent? 0 with
      | none => rfl
      | some p => exact absurd (h.parent_lt 0 p hp) (Nat.not_lt_zero p)
  | succ i =>
      rw [ancestors, ancestorsWithin]
      cases hp : t.parent? (i + 1) with
      | none => rfl
      | some p =>
          have hlt := h.parent_lt _ p hp
          simp only [ancestorsWithin_eq_ancestors h.parent_lt (Nat.lt_succ_iff.1 hlt)]

lemma ancestors_root (h : t.Shaped) {i : Nat} (hi : t.parent? i = none) :
    t.ancestors i = [] := by
  rw [h.ancestors_eq, hi]

lemma ancestors_child (h : t.Shaped) {i p : Nat} (hi : t.parent? i = some p) :
    t.ancestors i = p :: t.ancestors p := by
  rw [h.ancestors_eq, hi]

lemma below_parent (h : t.Shaped) {i p : Nat} (hi : t.parent? i = some p) : t.Below p i := by
  have hdepth := h.depth_child i p hi
  refine ⟨h.parent_lt i p hi, fun j hpj hji => ?_⟩
  rcases hji.lt_or_eq with hlt | rfl
  · have hbetween := h.between i p j hi hpj hlt
    omega
  · omega

/-- **Ancestors are told by depths.**  A node is among the ancestors of another exactly if the other
is below it. -/
lemma mem_ancestors_iff (h : t.Shaped) (a i : Nat) : a ∈ t.ancestors i ↔ t.Below a i := by
  induction i using Nat.strong_induction_on with
  | _ i ih =>
      cases hp : t.parent? i with
      | none =>
          rw [h.ancestors_root hp]
          have hroot := h.depth_root i hp
          refine ⟨fun hmem => absurd hmem List.not_mem_nil, fun hbelow => ?_⟩
          have hdeeper := hbelow.2 i hbelow.1 le_rfl
          omega
      | some p =>
          have hlt := h.parent_lt i p hp
          have hdepth := h.depth_child i p hp
          rw [h.ancestors_child hp, List.mem_cons, ih p hlt]
          constructor
          · rintro (rfl | hbelow)
            · exact h.below_parent hp
            · exact hbelow.trans (h.below_parent hp)
          · intro hbelow
            rcases lt_trichotomy a p with hap | rfl | hpa
            · exact Or.inr ⟨hap, fun j haj hjp => hbelow.2 j haj (hjp.trans hlt.le)⟩
            · exact Or.inl rfl
            · -- A node between the parent and `i` is too deep to have `i` below it.
              have hbetween := h.between i p a hp hpa hbelow.1
              have hdeeper := hbelow.2 i hbelow.1 le_rfl
              omega

/-- The ancestors of a node are the parents of it and of its ancestors. -/
lemma mem_ancestors_iff_parent (h : t.Shaped) (a i : Nat) :
    a ∈ t.ancestors i ↔ ∃ n ∈ i :: t.ancestors i, t.parent? n = some a := by
  induction i using Nat.strong_induction_on with
  | _ i ih =>
      cases hp : t.parent? i with
      | none => simp [h.ancestors_root hp, hp]
      | some p =>
          rw [h.ancestors_child hp, List.mem_cons, ih p (h.parent_lt i p hp)]
          simp [hp, eq_comm]

end Shaped

end Outline

/-! ## The open path -/

namespace OutlineBuilder

variable {α : Type} {b : OutlineBuilder α}

/-- An outline that is being built is shaped, and its open path leads to the last node: the open
node at a depth has that depth, and every node after it is deeper. -/
structure Sound (b : OutlineBuilder α) : Prop where
  shaped : b.outline.Shaped
  open_lt : ∀ k id : Nat, b.openPath[k]? = some id → id < b.outline.size
  open_depth : ∀ k id : Nat, b.openPath[k]? = some id → b.outline.depth id = k
  open_below : ∀ k id : Nat, b.openPath[k]? = some id →
    ∀ j : Nat, id < j → j < b.outline.size → k < b.outline.depth j
  open_length : b.openPath.length
    = if b.outline.size = 0 then 0 else b.outline.depth (b.outline.size - 1) + 1

lemma sound_empty : (empty : OutlineBuilder α).Sound where
  shaped := by
    have hparents : ∀ i p, (Outline.empty : Outline α).parent? i ≠ some p := fun i p h => by cases h
    exact ⟨fun _ _ => rfl, fun i p h => absurd h (hparents i p),
      fun i p h => absurd h (hparents i p), fun i p _ h => absurd h (hparents i p)⟩
  open_lt _ _ h := by cases h
  open_depth _ _ h := by cases h
  open_below _ _ h := by cases h
  open_length := rfl

/-- The depth of the next node in the outline, if it is written at `depth`. -/
def clampedDepth (b : OutlineBuilder α) (depth : Nat) : Nat := min depth b.openPath.length

/-- The node that the next one goes under, if it is written at `depth`. -/
def nextParent? (b : OutlineBuilder α) (depth : Nat) : Option NodeId :=
  (b.openPath.take depth).getLast?

lemma getLast?_take (path : List NodeId) (depth : Nat) :
    (path.take depth).getLast?
      = match min depth path.length with
        | 0 => none
        | k + 1 => path[k]? := by
  rw [List.getLast?_eq_getElem?, List.length_take]
  cases hk : min depth path.length with
  | zero =>
      have hnil : path.take depth = [] := List.length_eq_zero_iff.1 (by rw [List.length_take, hk])
      simp [hnil]
  | succ k => exact List.getElem?_take_of_lt (by omega)

/-- The parent of the next node is the open node one level higher. -/
lemma nextParent?_eq (b : OutlineBuilder α) (depth : Nat) :
    b.nextParent? depth
      = match b.clampedDepth depth with
        | 0 => none
        | k + 1 => b.openPath[k]? :=
  getLast?_take b.openPath depth

lemma Sound.nextParent?_lt (h : b.Sound) (depth : Nat) :
    ∀ p ∈ b.nextParent? depth, p < b.outline.size := by
  intro p hp
  rw [nextParent?_eq] at hp
  cases hk : b.clampedDepth depth with
  | zero =>
      rw [hk] at hp
      cases hp
  | succ k =>
      rw [hk] at hp
      exact h.open_lt k p hp

/-- The open node one level higher is there. -/
lemma exists_nextParent? {depth k : Nat} (hk : b.clampedDepth depth = k + 1) :
    ∃ p, b.nextParent? depth = some p ∧ b.openPath[k]? = some p := by
  have hlt : k < b.openPath.length := by
    have hle : b.clampedDepth depth ≤ b.openPath.length := min_le_right _ _
    omega
  refine ⟨b.openPath[k], ?_, List.getElem?_eq_getElem hlt⟩
  rw [nextParent?_eq, hk]
  exact List.getElem?_eq_getElem hlt

lemma outline_push (depth : Nat) (data : α) :
    (b.push depth data).outline = b.outline.append (b.nextParent? depth) data := rfl

lemma Sound.depth_push (h : b.Sound) (depth : Nat) (data : α) (i : Nat) :
    (b.push depth data).outline.depth i
      = if i = b.outline.size then b.clampedDepth depth else b.outline.depth i := by
  rw [outline_push, Outline.depth_append]
  congr 1
  cases hk : b.clampedDepth depth with
  | zero => rw [nextParent?_eq, hk, Option.elim_none]
  | succ k =>
      obtain ⟨p, hparent, hopen⟩ := exists_nextParent? hk
      rw [hparent, Option.elim_some, h.open_depth k p hopen]

lemma getElem?_openPath_push (depth : Nat) (data : α) (k : Nat) :
    (b.push depth data).openPath[k]?
      = if k < b.clampedDepth depth then b.openPath[k]?
        else if k = b.clampedDepth depth then some b.outline.size else none := by
  have hlength : (b.openPath.take depth).length = b.clampedDepth depth := List.length_take
  rw [push, List.getElem?_append, hlength]
  split_ifs with hlt heq
  · exact List.getElem?_take_of_lt (by rw [clampedDepth] at hlt; omega)
  · simp [heq]
  · exact List.getElem?_eq_none (by simp; omega)

lemma Sound.shaped_push (h : b.Sound) (depth : Nat) (data : α) :
    (b.push depth data).outline.Shaped := by
  have hparents : ∀ i : Nat, (b.push depth data).outline.parent? i
      = if i = b.outline.size then b.nextParent? depth else b.outline.parent? i :=
    Outline.parent?_append _ data
  -- The parent of the new node is the open node one level higher.
  have hnew : ∀ p, b.nextParent? depth = some p →
      ∃ k, b.clampedDepth depth = k + 1 ∧ b.openPath[k]? = some p := by
    intro p hp
    cases hk : b.clampedDepth depth with
    | zero =>
        rw [nextParent?_eq, hk] at hp
        cases hp
    | succ k =>
        rw [nextParent?_eq, hk] at hp
        exact ⟨k, rfl, hp⟩
  refine ⟨fun i hi => ?_, fun i p hi => ?_, fun i p hi => ?_, fun i p j hi hpj hji => ?_⟩
  · rw [hparents] at hi
    rw [h.depth_push]
    split_ifs at hi ⊢ with hsize
    · cases hk : b.clampedDepth depth with
      | zero => rfl
      | succ k =>
          obtain ⟨p, hparent, -⟩ := exists_nextParent? hk
          rw [hparent] at hi
          cases hi
    · exact h.shaped.depth_root i hi
  · rw [hparents] at hi
    split_ifs at hi with hsize
    · obtain ⟨k, hk, hopen⟩ := hnew p hi
      have hp := h.open_lt k p hopen
      rw [h.depth_push, if_pos hsize, h.depth_push, if_neg hp.ne, hk, h.open_depth k p hopen]
    · have hp := (h.shaped.parent_lt i p hi).trans (Outline.lt_size_of_parent? hi)
      rw [h.depth_push, if_neg hsize, h.depth_push, if_neg hp.ne]
      exact h.shaped.depth_child i p hi
  · rw [hparents] at hi
    split_ifs at hi with hsize
    · rw [hsize]
      exact h.nextParent?_lt depth p hi
    · exact h.shaped.parent_lt i p hi
  · rw [hparents] at hi
    split_ifs at hi with hsize
    · obtain ⟨k, hk, hopen⟩ := hnew p hi
      have hdeeper := h.open_below k p hopen j hpj (hsize ▸ hji)
      rw [h.depth_push, if_pos hsize, h.depth_push, if_neg (by omega), hk]
      omega
    · have hi' := Outline.lt_size_of_parent? hi
      rw [h.depth_push, if_neg hsize, h.depth_push, if_neg (by omega)]
      exact h.shaped.between i p j hi hpj hji

/-- Adding a node keeps the path and the outline tied together. -/
lemma Sound.push (h : b.Sound) (depth : Nat) (data : α) : (b.push depth data).Sound := by
  have hsize : (b.push depth data).outline.size = b.outline.size + 1 := Outline.size_append _ data
  refine ⟨h.shaped_push depth data, fun k id hid => ?_, fun k id hid => ?_,
    fun k id hid j hidj hj => ?_, ?_⟩
  · rw [getElem?_openPath_push] at hid
    rw [hsize]
    split_ifs at hid with hlt heq
    · exact (h.open_lt k id hid).trans (Nat.lt_succ_self _)
    · cases hid
      exact Nat.lt_succ_self _
  · rw [getElem?_openPath_push] at hid
    rw [h.depth_push]
    split_ifs at hid with hlt heq
    · rw [if_neg (h.open_lt k id hid).ne]
      exact h.open_depth k id hid
    · cases hid
      rw [if_pos rfl, heq]
  · rw [getElem?_openPath_push] at hid
    rw [hsize] at hj
    rw [h.depth_push]
    split_ifs at hid with hlt heq
    · split_ifs with hnew
      · exact hlt
      · exact h.open_below k id hid j hidj (by omega)
    · cases hid
      omega
  · have hlength : (b.push depth data).openPath.length = b.clampedDepth depth + 1 := by
      rw [OutlineBuilder.push, List.length_append, List.length_take, List.length_singleton]
      rfl
    rw [hlength, hsize, if_neg (Nat.succ_ne_zero _), Nat.add_sub_cancel, h.depth_push, if_pos rfl]

/-- Detaching children keeps the path and the outline tied together. -/
lemma Sound.clear (h : b.Sound) (id : Nat) : (b.edit (.clear id)).Sound := by
  have hsame := b.outline.sameShape_clearChildren id
  refine ⟨hsame.shaped h.shaped, ?_, ?_, ?_, ?_⟩ <;> simp only [edit, hsame.size, hsame.depth]
  · exact h.open_lt
  · exact h.open_depth
  · exact h.open_below
  · exact h.open_length

lemma Sound.edit (h : b.Sound) : ∀ e : OutlineEdit α, (b.edit e).Sound
  | .push depth data => h.push depth data
  | .clear id => h.clear id

lemma sound_ofEdits (edits : List (OutlineEdit α)) : (ofEdits edits).Sound := by
  induction edits using List.reverseRecOn with
  | nil => exact sound_empty
  | append_singleton edits e ih =>
      rw [ofEdits_concat]
      exact ih.edit e

/-! ## Nodes and the lines they were added for -/

/-- The lines that edits add, with the depths they are written at. -/
def pushed (edits : List (OutlineEdit α)) : List (Nat × α) := edits.filterMap OutlineEdit.pushed?

lemma pushed_push (edits : List (OutlineEdit α)) (depth : Nat) (data : α) :
    pushed (edits ++ [.push depth data]) = pushed edits ++ [(depth, data)] := by
  simp [pushed, OutlineEdit.pushed?]

lemma pushed_clear (edits : List (OutlineEdit α)) (id : Nat) :
    pushed (edits ++ [.clear id]) = pushed edits := by
  simp [pushed, OutlineEdit.pushed?]

lemma size_ofEdits (edits : List (OutlineEdit α)) :
    (ofEdits edits).outline.size = (pushed edits).length := by
  induction edits using List.reverseRecOn with
  | nil => rfl
  | append_singleton edits e ih =>
      rw [ofEdits_concat]
      cases e with
      | push depth data =>
          rw [pushed_push, List.length_append, List.length_singleton, ← ih]
          exact Outline.size_append _ data
      | clear id =>
          rw [pushed_clear, ← ih]
          exact (Outline.sameShape_clearChildren _ id).size

lemma get?_ofEdits (edits : List (OutlineEdit α)) (i : Nat) :
    (ofEdits edits).outline.get? i = (pushed edits)[i]?.map Prod.snd := by
  induction edits using List.reverseRecOn with
  | nil => rfl
  | append_singleton edits e ih =>
      have hsize := size_ofEdits edits
      rw [ofEdits_concat]
      cases e with
      | push depth data =>
          rw [edit, outline_push, Outline.get?_append,
            pushed_push, ih, hsize, List.getElem?_append]
          split_ifs with hnew hlt hlt
          · omega
          · simp [hnew]
          · rfl
          · rw [List.getElem?_eq_none (not_lt.1 hlt), List.getElem?_eq_none (by simp; omega)]
      | clear id =>
          rw [pushed_clear, ← ih]
          exact (Outline.sameShape_clearChildren _ id).get i

/-- A node is as deep as it is written, and at most one level deeper than the node before it. -/
lemma depth_ofEdits (edits : List (OutlineEdit α)) {i : Nat} {line : Nat × α}
    (hi : (pushed edits)[i]? = some line) :
    (ofEdits edits).outline.depth i
      = min line.1 (if i = 0 then 0 else (ofEdits edits).outline.depth (i - 1) + 1) := by
  induction edits using List.reverseRecOn with
  | nil => cases hi
  | append_singleton edits e ih =>
      have hsound := sound_ofEdits edits
      have hsize := size_ofEdits edits
      rw [ofEdits_concat]
      cases e with
      | push depth data =>
          rw [pushed_push, List.getElem?_append] at hi
          rw [edit, hsound.depth_push, hsound.depth_push]
          split_ifs at hi with hlt
          · rw [if_neg (show i ≠ (ofEdits edits).outline.size by omega),
              if_neg (show i - 1 ≠ (ofEdits edits).outline.size by omega)]
            exact ih hi
          · -- The new node: the open path is as long as the last node is deep.
            have hnew : i = (pushed edits).length := by
              have hsome := (List.getElem?_eq_some_iff.1 hi).1
              rw [List.length_singleton] at hsome
              omega
            rw [hnew, Nat.sub_self] at hi
            cases hi
            rw [if_pos (by omega), clampedDepth, hsound.open_length, hsize, ← hnew]
            split_ifs with hzero hself
            · rfl
            · omega
            · rfl
      | clear id =>
          have hsame := (ofEdits edits).outline.sameShape_clearChildren id
          rw [pushed_clear] at hi
          simpa only [edit, hsame.depth] using ih hi

/-- Picking from one number more adds at most that number. -/
lemma filter_range_succ {n : Nat} {p q : Nat → Bool} (h : ∀ i < n, p i = q i) :
    (List.range (n + 1)).filter p = (List.range n).filter q ++ if p n then [n] else [] := by
  rw [List.range_succ, List.filter_append, List.filter_cons, List.filter_nil,
    List.filter_congr fun i hi => h i (List.mem_range.1 hi)]

/-- The nodes without a parent, in the order of adding. -/
lemma roots_ofEdits (edits : List (OutlineEdit α)) :
    (ofEdits edits).outline.roots
      = (List.range (ofEdits edits).outline.size).filter
          fun i => (ofEdits edits).outline.parent? i = none := by
  induction edits using List.reverseRecOn with
  | nil => rfl
  | append_singleton edits e ih =>
      rw [ofEdits_concat]
      cases e with
      | push depth data =>
          have hparents := Outline.parent?_append (t := (ofEdits edits).outline)
            ((ofEdits edits).nextParent? depth) data
          rw [edit, outline_push, Outline.size_append, Outline.roots_append, ih,
            filter_range_succ fun i hi => by rw [hparents, if_neg hi.ne]]
          simp only [hparents, if_true, decide_eq_true_eq]
          split_ifs with hroot <;> simp_all
      | clear id =>
          have hsame := (ofEdits edits).outline.sameShape_clearChildren id
          simpa only [edit, hsame.size, hsame.parent, hsame.roots] using ih

/-! ## Detached children -/

/-- Whether the children of `p` were detached at a time when `n` was there. -/
def ClearedAfter (edits : List (OutlineEdit α)) (p n : Nat) : Prop :=
  ∃ earlier later, edits = earlier ++ .clear p :: later ∧ n < (pushed earlier).length

lemma clearedAfter_push (edits : List (OutlineEdit α)) (depth : Nat) (data : α) (p n : Nat) :
    ClearedAfter (edits ++ [.push depth data]) p n ↔ ClearedAfter edits p n := by
  constructor
  · rintro ⟨earlier, later, hedits, hn⟩
    rcases List.eq_nil_or_concat later with rfl | ⟨later, e, rfl⟩
    · cases (List.append_inj' hedits rfl).2
    · refine ⟨earlier, later, ?_, hn⟩
      rw [List.concat_eq_append, ← List.cons_append, ← List.append_assoc] at hedits
      exact (List.append_inj' hedits rfl).1
  · rintro ⟨earlier, later, rfl, hn⟩
    exact ⟨earlier, later ++ [.push depth data], by simp, hn⟩

lemma clearedAfter_clear (edits : List (OutlineEdit α)) (id p n : Nat) :
    ClearedAfter (edits ++ [.clear id]) p n
      ↔ ClearedAfter edits p n ∨ (id = p ∧ n < (pushed edits).length) := by
  constructor
  · rintro ⟨earlier, later, hedits, hn⟩
    rcases List.eq_nil_or_concat later with rfl | ⟨later, e, rfl⟩
    · obtain ⟨rfl, hlast⟩ := List.append_inj' hedits rfl
      cases hlast
      exact Or.inr ⟨rfl, hn⟩
    · refine Or.inl ⟨earlier, later, ?_, hn⟩
      rw [List.concat_eq_append, ← List.cons_append, ← List.append_assoc] at hedits
      exact (List.append_inj' hedits rfl).1
  · rintro (⟨earlier, later, rfl, hn⟩ | ⟨rfl, hn⟩)
    · exact ⟨earlier, later ++ [.clear id], by simp, hn⟩
    · exact ⟨edits, [], rfl, hn⟩

open Classical in
/-- The children of a node are those that were added under it and have not been detached since, in
the order of adding. -/
lemma children_ofEdits (edits : List (OutlineEdit α)) (p : Nat) :
    (ofEdits edits).outline.children p
      = (List.range (ofEdits edits).outline.size).filter
          fun i => (ofEdits edits).outline.parent? i = some p ∧ ¬ ClearedAfter edits p i := by
  induction edits using List.reverseRecOn with
  | nil => rfl
  | append_singleton edits e ih =>
      have hsize := size_ofEdits edits
      rw [ofEdits_concat]
      cases e with
      | push depth data =>
          have hlt := (sound_ofEdits edits).nextParent?_lt depth
          have hparents := Outline.parent?_append (t := (ofEdits edits).outline)
            ((ofEdits edits).nextParent? depth) data
          have hfresh : ¬ ClearedAfter edits p (ofEdits edits).outline.size := by
            rintro ⟨earlier, later, rfl, hn⟩
            rw [hsize] at hn
            simp [pushed] at hn
          rw [edit, outline_push, Outline.size_append, Outline.children_append data hlt, ih,
            filter_range_succ fun i hi => by rw [hparents, if_neg hi.ne, clearedAfter_push]]
          simp only [hparents, if_true, decide_eq_true_eq, clearedAfter_push]
          split_ifs with hchild <;> simp_all
      | clear id =>
          have hsame := (ofEdits edits).outline.sameShape_clearChildren id
          simp only [edit, hsame.size, hsame.parent, Outline.children_clearChildren,
            clearedAfter_clear, ih]
          split_ifs with hid
          · -- Everything that is there now is detached.
            symm
            rw [List.filter_eq_nil_iff]
            intro i hi
            have hlt := List.mem_range.1 hi
            rw [hsize] at hlt
            simp [hid, hlt]
          · simp [hid]

end OutlineBuilder

/-! ## The outline of a list of lines -/

namespace Outline

variable {α : Type}

open OutlineBuilder

lemma ofDepths_eq (lines : List (Nat × α)) :
    ofDepths lines = (ofEdits (lines.map fun line => .push line.1 line.2)).outline := by
  rw [ofDepths, ofEdits, List.foldl_map]
  rfl

lemma pushed_lines (lines : List (Nat × α)) :
    pushed (lines.map fun line => .push line.1 line.2) = lines := by
  rw [pushed, List.filterMap_map]
  exact List.filterMap_some

lemma not_clearedAfter_lines (lines : List (Nat × α)) (p n : Nat) :
    ¬ ClearedAfter (lines.map fun line => OutlineEdit.push line.1 line.2) p n := by
  rintro ⟨earlier, later, hedits, -⟩
  have hmem : OutlineEdit.clear p ∈ lines.map fun line => OutlineEdit.push line.1 line.2 := by
    rw [hedits]
    simp
  obtain ⟨line, -, hline⟩ := List.mem_map.1 hmem
  cases hline

section OfDepths

variable (lines : List (Nat × α))

@[simp] lemma size_ofDepths : (ofDepths lines).size = lines.length := by
  rw [ofDepths_eq, size_ofEdits, pushed_lines]

lemma get?_ofDepths (i : Nat) : (ofDepths lines).get? i = lines[i]?.map Prod.snd := by
  rw [ofDepths_eq, get?_ofEdits, pushed_lines]

lemma shaped_ofDepths : (ofDepths lines).Shaped := by
  rw [ofDepths_eq]
  exact (sound_ofEdits _).shaped

lemma depth_ofDepths {i : Nat} {line : Nat × α} (hi : lines[i]? = some line) :
    (ofDepths lines).depth i
      = min line.1 (if i = 0 then 0 else (ofDepths lines).depth (i - 1) + 1) := by
  rw [ofDepths_eq]
  exact depth_ofEdits _ (by rw [pushed_lines, hi])

/-- Lines that are written deeper than the line that they follow are below it. -/
lemma below_ofDepths {b i : Nat} {block : Nat × α} (hb : lines[b]? = some block) (hbi : b < i)
    (hdeeper : ∀ j, b < j → j ≤ i → ∃ line, lines[j]? = some line ∧ block.1 < line.1) :
    (ofDepths lines).Below b i := by
  have hown : (ofDepths lines).depth b ≤ block.1 := by
    rw [depth_ofDepths lines hb]
    exact min_le_left _ _
  refine ⟨hbi, fun j hbj => ?_⟩
  -- The depth of a line is as written, or one more than that of the line before.
  induction j, hbj using Nat.le_induction with
  | base =>
      intro hji
      obtain ⟨line, hline, hdeep⟩ := hdeeper (b + 1) (Nat.lt_succ_self b) hji
      rw [depth_ofDepths lines hline, if_neg (Nat.succ_ne_zero b), Nat.add_sub_cancel]
      omega
  | succ j hbj ih =>
      intro hji
      have hbefore := ih (by omega)
      obtain ⟨line, hline, hdeep⟩ := hdeeper (j + 1) (by omega) hji
      rw [depth_ofDepths lines hline, if_neg (Nat.succ_ne_zero j), Nat.add_sub_cancel]
      omega

lemma children_ofDepths (p : Nat) :
    (ofDepths lines).children p
      = (List.range lines.length).filter fun i => (ofDepths lines).parent? i = some p := by
  rw [← size_ofDepths, ofDepths_eq, children_ofEdits]
  refine List.filter_congr fun i _ => ?_
  simp [not_clearedAfter_lines]

lemma roots_ofDepths :
    (ofDepths lines).roots
      = (List.range lines.length).filter fun i => (ofDepths lines).parent? i = none := by
  rw [← size_ofDepths, ofDepths_eq, roots_ofEdits]

end OfDepths

/-- A node of a shaped outline is a root exactly if its depth is zero. -/
lemma Shaped.parent?_eq_none_iff {t : Outline α} (h : t.Shaped) (i : Nat) :
    t.parent? i = none ↔ t.depth i = 0 := by
  refine ⟨h.depth_root i, fun hdepth => ?_⟩
  cases hp : t.parent? i with
  | none => rfl
  | some p =>
      have hchild := h.depth_child i p hp
      omega

/-- The parent of a node is the last node before it that is one level higher. -/
lemma Shaped.parent?_eq_some_iff {t : Outline α} (h : t.Shaped) (i p : Nat) :
    t.parent? i = some p ↔ IsGreatest {j | j < i ∧ t.depth j + 1 = t.depth i} p := by
  constructor
  · intro hp
    have hdepth := h.depth_child i p hp
    refine ⟨⟨h.parent_lt i p hp, hdepth.symm⟩, fun j hj => ?_⟩
    by_contra hpj
    have hbetween := h.between i p j hp (not_le.1 hpj) hj.1
    have hlevel := hj.2
    omega
  · rintro ⟨⟨hlt, hlevel⟩, hgreatest⟩
    cases hq : t.parent? i with
    | none =>
        have hroot := h.depth_root i hq
        omega
    | some q =>
        have hqlt := h.parent_lt i q hq
        have hqdepth := h.depth_child i q hq
        have hqp : q ≤ p := hgreatest ⟨hqlt, hqdepth.symm⟩
        rcases hqp.lt_or_eq with hlt' | rfl
        · have hbetween := h.between i q p hq hlt' hlt
          omega
        · rfl

/-- What the outline of lines is like, told from the depths that the lines are written at. -/
structure ReadsDepths (lines : List (Nat × α)) (t : Outline α) : Prop where
  /-- There is one node for each line, and it holds what the line holds. -/
  size : t.size = lines.length
  data : ∀ i, t.get? i = lines[i]?.map Prod.snd
  /-- Depths are as written, except that none is more than one level deeper than the one before. -/
  depth_first : t.depth 0 = 0
  depth_next : ∀ i depth data, lines[i + 1]? = some (depth, data) →
    t.depth (i + 1) = min depth (t.depth i + 1)
  /-- The parent is the last node before that is one level higher; at depth zero there is none. -/
  parent_none : ∀ i < lines.length, t.parent? i = none ↔ t.depth i = 0
  parent_some : ∀ i < lines.length, ∀ p,
    t.parent? i = some p ↔ IsGreatest {j | j < i ∧ t.depth j + 1 = t.depth i} p
  between : ∀ i p j, t.parent? i = some p → p < j → j < i → t.depth i ≤ t.depth j
  /-- Children and roots are listed in the order of the lines. -/
  children : ∀ p, t.children p = (List.range lines.length).filter fun i => t.parent? i = some p
  roots : t.roots = (List.range lines.length).filter fun i => t.depth i = 0

/-- **The outline of lines can be told from their depths.** -/
theorem readsDepths_ofDepths (lines : List (Nat × α)) : ReadsDepths lines (ofDepths lines) where
  size := size_ofDepths lines
  data := get?_ofDepths lines
  depth_first := by
    have hshaped := shaped_ofDepths lines
    refine hshaped.depth_root 0 ?_
    cases hp : (ofDepths lines).parent? 0 with
    | none => rfl
    | some p => exact absurd (hshaped.parent_lt 0 p hp) (Nat.not_lt_zero p)
  depth_next i depth data hline := by
    rw [depth_ofDepths lines hline, if_neg (Nat.succ_ne_zero i), Nat.add_sub_cancel]
  parent_none i _ := (shaped_ofDepths lines).parent?_eq_none_iff i
  parent_some i _ p := (shaped_ofDepths lines).parent?_eq_some_iff i p
  between := (shaped_ofDepths lines).between
  children := children_ofDepths lines
  roots := by
    rw [roots_ofDepths]
    refine List.filter_congr fun i _ => ?_
    simp [(shaped_ofDepths lines).parent?_eq_none_iff]

/-- A line that jumps goes under the line before it, and a line less deep than it closes the
jump. -/
example :
    (ofDepths [(2, 'a'), (3, 'b'), (7, 'c'), (2, 'd'), (1, 'e'), (0, 'f')]).nodes
      = [⟨'a', none, [1, 4], 0⟩, ⟨'b', some 0, [2, 3], 1⟩, ⟨'c', some 1, [], 2⟩,
          ⟨'d', some 1, [], 2⟩, ⟨'e', some 0, [], 1⟩, ⟨'f', none, [], 0⟩] := by
  decide

end Outline

end Offside
