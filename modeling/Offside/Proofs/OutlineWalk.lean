import Mathlib
import Offside.Proofs.OutlineShape

/-!
# Walking through an outline

`Outline.preorder` lists the nodes that are reached from the roots.  Here the list is compared with
a walk that keeps a stack, and with the order in which the nodes were added.

**The walk.**  The node on top of the stack is visited, and its children take its place.
`Outline.Walk` relates a stack to the nodes that are visited until the stack is empty, so a walk in
this relation is one that ends.  From the roots it visits `Outline.preorder`
(`Linked.walk_preorder`): a child has a larger number than its parent, so the levels that `trees`
goes down to are enough.

**The order.**  What is lower on the stack has a larger number and is not deeper.  A walk keeps the
stack so, and therefore goes through the numbers upwards (`Walk.pairwise_lt`).

**Detached nodes.**  A node is visited if it and all its ancestors are among the children of their
parents (`Linked.mem_preorder_iff`).  For an outline that was built by edits this is a matter of
what was detached when (`OutlineBuilder.preorder_ofEdits`).
-/

namespace Offside

namespace Outline

variable {α : Type} {t : Outline α}

/-! ## Children and roots -/

/-- The children of a node were added under it, and are listed in the order of adding, as far as
they have not been detached.  No root is ever detached. -/
structure Linked (t : Outline α) : Prop where
  shaped : t.Shaped
  children_sublist : ∀ p,
    (t.children p).Sublist ((List.range t.size).filter fun i => t.parent? i = some p)
  roots_eq : t.roots = (List.range t.size).filter fun i => t.parent? i = none

namespace Linked

lemma parent?_of_mem_children (h : t.Linked) {c p : Nat} (hc : c ∈ t.children p) :
    t.parent? c = some p := by
  simpa using (List.mem_filter.1 ((h.children_sublist p).subset hc)).2

lemma lt_size_of_mem_children (h : t.Linked) {c p : Nat} (hc : c ∈ t.children p) : c < t.size :=
  lt_size_of_parent? (h.parent?_of_mem_children hc)

lemma below_of_mem_children (h : t.Linked) {c p : Nat} (hc : c ∈ t.children p) : t.Below p c :=
  h.shaped.below_parent (h.parent?_of_mem_children hc)

lemma depth_of_mem_children (h : t.Linked) {c p : Nat} (hc : c ∈ t.children p) :
    t.depth c = t.depth p + 1 :=
  h.shaped.depth_child c p (h.parent?_of_mem_children hc)

lemma pairwise_children (h : t.Linked) (p : Nat) : (t.children p).Pairwise (· < ·) :=
  (List.pairwise_lt_range.filter _).sublist (h.children_sublist p)

lemma mem_roots_iff (h : t.Linked) (i : Nat) : i ∈ t.roots ↔ i < t.size ∧ t.parent? i = none := by
  simp [h.roots_eq]

end Linked

/-! ## The walk with a stack -/

/-- The walk that begins with a stack, its top first, comes to an end and visits these nodes. -/
inductive Walk (t : Outline α) : List NodeId → List NodeId → Prop where
  | done : Walk t [] []
  | visit {id : NodeId} {stack visited : List NodeId} : Walk t (t.children id ++ stack) visited →
      Walk t (id :: stack) (id :: visited)

/-- What is on top of the stack is walked through before the rest. -/
lemma Walk.append {above rest first second : List NodeId} (hfirst : t.Walk above first)
    (hsecond : t.Walk rest second) : t.Walk (above ++ rest) (first ++ second) := by
  induction hfirst with
  | done => exact hsecond
  | visit _ ih =>
      rw [List.append_assoc] at ih
      exact .visit ih

/-- Trees are walked through as far as they are as deep as the numbers left allow. -/
lemma Linked.walk_treesWithin (h : t.Linked) (levels : Nat) (ids : List NodeId)
    (hids : ∀ id ∈ ids, id < t.size ∧ t.size ≤ id + levels) :
    t.Walk ids (OutlineTree.preorderAll (t.treesWithin levels ids)) := by
  induction levels generalizing ids with
  | zero =>
      cases ids with
      | nil => exact .done
      | cons id ids =>
          have hid := hids id List.mem_cons_self
          exact absurd hid.1 (not_lt.2 hid.2)
  | succ levels ih =>
      induction ids with
      | nil => exact .done
      | cons id ids ihIds =>
          obtain ⟨hlt, hlevels⟩ := hids id List.mem_cons_self
          have hnode : t.nodes[id]? = some t.nodes[id] := List.getElem?_eq_getElem hlt
          have hchildren : t.children id = t.nodes[id].children := by
            rw [children, hnode, Option.map_some, Option.getD_some]
          have hbelow := ih (t.children id) fun c hc => by
            have hc' := (h.below_of_mem_children hc).1
            exact ⟨h.lt_size_of_mem_children hc, by omega⟩
          have hrest := ihIds fun other hother => hids other (List.mem_cons_of_mem _ hother)
          rw [treesWithin] at hrest ⊢
          rw [List.filterMap_cons, hnode, Option.map_some, ← hchildren]
          exact .visit (hbelow.append hrest)

/-- **The walk ends**, and visits the nodes in the order of the trees. -/
lemma Linked.walk_preorder (h : t.Linked) : t.Walk t.roots t.preorder :=
  h.walk_treesWithin t.size t.roots fun id hid =>
    ⟨((h.mem_roots_iff id).1 hid).1, Nat.le_add_left _ _⟩

/-! ## What is visited -/

/-- A node is reached from another by going from parents to their children. -/
abbrev Reaches (t : Outline α) : NodeId → NodeId → Prop :=
  Relation.ReflTransGen fun p c => c ∈ t.children p

lemma Walk.mem_iff {stack visited : List NodeId} (h : t.Walk stack visited) (i : NodeId) :
    i ∈ visited ↔ ∃ id ∈ stack, t.Reaches id i := by
  induction h with
  | done => simp
  | @visit id stack visited _ ih =>
      rw [List.mem_cons, ih]
      constructor
      · rintro (rfl | ⟨next, hnext, hreach⟩)
        · exact ⟨i, List.mem_cons_self, .refl⟩
        · rcases List.mem_append.1 hnext with hchild | hstack
          · exact ⟨id, List.mem_cons_self, .head hchild hreach⟩
          · exact ⟨next, List.mem_cons_of_mem _ hstack, hreach⟩
      · rintro ⟨start, hstart, hreach⟩
        rcases List.mem_cons.1 hstart with rfl | hstack
        · rcases Relation.ReflTransGen.cases_head hreach with rfl | ⟨c, hchild, hreach⟩
          · exact Or.inl rfl
          · exact Or.inr ⟨c, List.mem_append_left _ hchild, hreach⟩
        · exact Or.inr ⟨start, List.mem_append_right _ hstack, hreach⟩

lemma Linked.below_of_reaches (h : t.Linked) {a i : Nat} (hreach : t.Reaches a i) :
    i = a ∨ t.Below a i := by
  induction hreach with
  | refl => exact Or.inl rfl
  | tail _ hchild ih =>
      have hlast := h.below_of_mem_children hchild
      rcases ih with rfl | hbelow
      · exact Or.inr hlast
      · exact Or.inr (hbelow.trans hlast)

/-- A node is among the children of its parent, if it has one. -/
def Attached (t : Outline α) (n : NodeId) : Prop := ∀ p, t.parent? n = some p → n ∈ t.children p

/-- A node is reached from the roots exactly if nothing on the way up from it is detached. -/
lemma Linked.reaches_iff (h : t.Linked) (i : Nat) :
    (∃ root ∈ t.roots, t.Reaches root i)
      ↔ i < t.size ∧ ∀ n ∈ i :: t.ancestors i, t.Attached n := by
  constructor
  · rintro ⟨root, hroot, hreach⟩
    obtain ⟨hlt, hparent⟩ := (h.mem_roots_iff root).1 hroot
    induction hreach with
    | refl =>
        refine ⟨hlt, fun n hn p hp => ?_⟩
        rw [h.shaped.ancestors_root hparent, List.mem_singleton] at hn
        rw [hn, hparent] at hp
        cases hp
    | @tail up c _ hchild ih =>
        have hup := h.parent?_of_mem_children hchild
        refine ⟨h.lt_size_of_mem_children hchild, fun n hn => ?_⟩
        rw [h.shaped.ancestors_child hup] at hn
        rcases List.mem_cons.1 hn with rfl | hn
        · intro p hp
          rw [hup] at hp
          exact Option.some.inj hp ▸ hchild
        · exact ih.2 n hn
  · rintro ⟨hlt, hattached⟩
    -- Going up from a node ends at a root, and every step can be gone down again.
    induction i using Nat.strong_induction_on with
    | _ i ih =>
        cases hp : t.parent? i with
        | none => exact ⟨i, (h.mem_roots_iff i).2 ⟨hlt, hp⟩, .refl⟩
        | some p =>
            have hup := h.shaped.parent_lt i p hp
            rw [h.shaped.ancestors_child hp] at hattached
            obtain ⟨root, hroot, hreach⟩ := ih p hup (hup.trans hlt) fun n hn =>
              hattached n (List.mem_cons_of_mem _ hn)
            exact ⟨root, hroot, hreach.tail (hattached i List.mem_cons_self p hp)⟩

lemma Linked.mem_preorder_iff (h : t.Linked) (i : Nat) :
    i ∈ t.preorder ↔ i < t.size ∧ ∀ n ∈ i :: t.ancestors i, t.Attached n :=
  (h.walk_preorder.mem_iff i).trans (h.reaches_iff i)

/-! ## The order of the walk -/

/-- What is lower on a stack has a larger number and is not deeper. -/
def Stacked (t : Outline α) (stack : List Nat) : Prop :=
  stack.Pairwise fun a b => a < b ∧ t.depth b ≤ t.depth a

/-- Putting the children in the place of the node on top keeps the stack in order. -/
lemma Linked.stacked_visit (h : t.Linked) {id : Nat} {stack : List Nat}
    (hstack : t.Stacked (id :: stack)) : t.Stacked (t.children id ++ stack) := by
  obtain ⟨htop, hrest⟩ := List.pairwise_cons.1 hstack
  refine List.pairwise_append.2 ⟨?_, hrest, fun c hc b hb => ?_⟩
  · refine (h.pairwise_children id).imp_of_mem fun hc hd hlt => ⟨hlt, ?_⟩
    rw [h.depth_of_mem_children hc, h.depth_of_mem_children hd]
  · obtain ⟨hlt, hdepth⟩ := htop b hb
    have hc' := h.depth_of_mem_children hc
    exact ⟨(h.below_of_mem_children hc).lt_of_depth_le hlt hdepth, by omega⟩

/-- The numbers of the nodes that a walk visits go up. -/
lemma Walk.pairwise_lt (h : t.Linked) {stack visited : List Nat} (hwalk : t.Walk stack visited)
    (hstack : t.Stacked stack) : visited.Pairwise (· < ·) := by
  induction hwalk with
  | done => exact .nil
  | @visit id stack visited hwalk ih =>
      have hnext := h.stacked_visit hstack
      refine List.pairwise_cons.2 ⟨fun i hi => ?_, ih hnext⟩
      obtain ⟨start, hstart, hreach⟩ := (hwalk.mem_iff i).1 hi
      have hle : start ≤ i := by
        rcases h.below_of_reaches hreach with rfl | hbelow
        · exact le_rfl
        · exact hbelow.1.le
      rcases List.mem_append.1 hstart with hchild | hlower
      · exact (h.below_of_mem_children hchild).1.trans_le hle
      · exact ((List.pairwise_cons.1 hstack).1 start hlower).1.trans_le hle

lemma Linked.stacked_roots (h : t.Linked) : t.Stacked t.roots := by
  have hpairwise : t.roots.Pairwise (· < ·) := by
    rw [h.roots_eq]
    exact List.pairwise_lt_range.filter _
  refine hpairwise.imp_of_mem fun _ hb hlt => ⟨hlt, ?_⟩
  rw [h.shaped.depth_root _ ((h.mem_roots_iff _).1 hb).2]
  exact Nat.zero_le _

lemma Linked.pairwise_preorder (h : t.Linked) : t.preorder.Pairwise (· < ·) :=
  h.walk_preorder.pairwise_lt h h.stacked_roots

/-- Where nothing is detached, the walk goes through all nodes in the order of adding. -/
lemma Linked.preorder_eq_range (h : t.Linked) (hattached : ∀ n, t.Attached n) :
    t.preorder = List.range t.size := by
  have hmem : ∀ i, i ∈ t.preorder ↔ i ∈ List.range t.size := by
    intro i
    rw [h.mem_preorder_iff, List.mem_range]
    exact and_iff_left fun n _ => hattached n
  exact h.pairwise_preorder.eq_of_mem_iff List.pairwise_lt_range hmem

lemma Linked.foldl_clearChildren (h : t.Linked) (ids : List Nat) :
    (ids.foldl clearChildren t).Linked := by
  have hsame := t.sameShape_foldl_clearChildren ids
  refine ⟨hsame.shaped h.shaped, fun p => ?_, ?_⟩
  · simp only [children_foldl_clearChildren, hsame.size, hsame.parent]
    split_ifs
    · exact List.nil_sublist _
    · exact h.children_sublist p
  · simp only [hsame.roots, hsame.size, hsame.parent, h.roots_eq]

/-- Where everything was attached, what is reached after detaching the children of some nodes is
what has none of them above it. -/
lemma Linked.mem_preorder_foldl_clearChildren (h : t.Linked) (hattached : ∀ n, t.Attached n)
    (ids : List Nat) (i : Nat) :
    i ∈ (ids.foldl clearChildren t).preorder ↔ i < t.size ∧ ∀ a ∈ t.ancestors i, a ∉ ids := by
  have hsame := t.sameShape_foldl_clearChildren ids
  have hlinked := h.foldl_clearChildren ids
  have hkept : ∀ n, (ids.foldl clearChildren t).Attached n ↔ ∀ p ∈ t.parent? n, p ∉ ids := by
    intro n
    simp only [Attached, hsame.parent, children_foldl_clearChildren, Option.mem_def]
    refine forall₂_congr fun p hp => ?_
    split_ifs with hmem
    · simp [hmem]
    · simp [hmem, hattached n p hp]
  rw [hlinked.mem_preorder_iff, hsame.size, hsame.ancestors]
  refine and_congr_right fun _ => ?_
  simp only [hkept]
  -- The parents of a node and its ancestors are its ancestors.
  constructor
  · intro hall a ha
    obtain ⟨n, hn, hp⟩ := (h.shaped.mem_ancestors_iff_parent a i).1 ha
    exact hall n hn a hp
  · intro hall n hn p hp
    exact hall p ((h.shaped.mem_ancestors_iff_parent p i).2 ⟨n, hn, hp⟩)

lemma linked_ofDepths (lines : List (Nat × α)) : (ofDepths lines).Linked where
  shaped := shaped_ofDepths lines
  children_sublist p := by rw [children_ofDepths, size_ofDepths]
  roots_eq := by rw [roots_ofDepths, size_ofDepths]

lemma attached_ofDepths (lines : List (Nat × α)) (n : Nat) : (ofDepths lines).Attached n := by
  intro p hp
  have hn := lt_size_of_parent? hp
  rw [size_ofDepths] at hn
  rw [children_ofDepths, List.mem_filter]
  exact ⟨List.mem_range.2 hn, by simpa using hp⟩

end Outline

/-! ## Outlines built by edits -/

namespace OutlineBuilder

variable {α : Type}

lemma linked_ofEdits (edits : List (OutlineEdit α)) : (ofEdits edits).outline.Linked where
  shaped := (sound_ofEdits edits).shaped
  children_sublist p := by
    classical
    rw [children_ofEdits]
    refine List.monotone_filter_right _ fun i hi => ?_
    simp only [decide_eq_true_eq] at hi ⊢
    exact hi.1
  roots_eq := roots_ofEdits edits

/-- A node is attached exactly if the children of its parent have not been detached since it was
added. -/
lemma attached_ofEdits (edits : List (OutlineEdit α)) (n : NodeId) :
    (ofEdits edits).outline.Attached n
      ↔ ∀ p, (ofEdits edits).outline.parent? n = some p → ¬ ClearedAfter edits p n := by
  classical
  refine forall_congr' fun p => ?_
  constructor
  · intro hattached hp
    have hmem := hattached hp
    rw [children_ofEdits, List.mem_filter, decide_eq_true_eq] at hmem
    exact hmem.2.2
  · intro hkept hp
    rw [children_ofEdits, List.mem_filter, decide_eq_true_eq]
    exact ⟨List.mem_range.2 (Outline.lt_size_of_parent? hp), hp, hkept hp⟩

lemma mem_preorder_ofEdits_iff (edits : List (OutlineEdit α)) (i : NodeId) :
    i ∈ (ofEdits edits).outline.preorder
      ↔ i < (ofEdits edits).outline.size ∧
        ∀ n ∈ i :: (ofEdits edits).outline.ancestors i,
          ∀ p, (ofEdits edits).outline.parent? n = some p → ¬ ClearedAfter edits p n := by
  rw [(linked_ofEdits edits).mem_preorder_iff]
  refine and_congr_right fun _ => forall₂_congr fun n _ => attached_ofEdits edits n

/-- **The walk goes through the nodes in the order of adding.**  However nodes are added and
children detached, the walk with a stack ends, goes through the numbers upwards, and visits exactly
the nodes for which nothing on the way up was detached after it had been added. -/
theorem preorder_ofEdits (edits : List (OutlineEdit α)) :
    let t := (ofEdits edits).outline
    t.Walk t.roots t.preorder ∧
      t.preorder.Pairwise (· < ·) ∧
      (∀ i, i ∈ t.preorder ↔ i < t.size ∧
        ∀ n ∈ i :: t.ancestors i, ∀ p, t.parent? n = some p → ¬ ClearedAfter edits p n) ∧
      ((∀ id, OutlineEdit.clear id ∉ edits) → t.preorder = List.range (pushed edits).length) := by
  have hlinked := linked_ofEdits edits
  refine ⟨hlinked.walk_preorder, hlinked.pairwise_preorder, mem_preorder_ofEdits_iff edits, ?_⟩
  intro hnone
  rw [← size_ofEdits]
  refine hlinked.preorder_eq_range fun n => (attached_ofEdits edits n).2 fun p _ => ?_
  rintro ⟨earlier, later, rfl, -⟩
  exact hnone p (by simp)

/-- A node is added below one that has been detached, and another one beside it: only the other one
is reached.  If nothing is detached, all nodes are. -/
theorem preorder_ofEdits_below_detached :
    let pushes : List (OutlineEdit Char) := [.push 0 'a', .push 1 'b', .push 2 'c', .push 1 'd']
    let edits : List (OutlineEdit Char) :=
      [.push 0 'a', .push 1 'b', .clear 0, .push 2 'c', .push 1 'd']
    ((∀ id, OutlineEdit.clear id ∉ pushes) ∧ (ofEdits pushes).outline.preorder = List.range 4) ∧
      (ClearedAfter edits 0 1 ∧ (ofEdits edits).outline.ancestors 2 = [1, 0] ∧
        2 ∉ (ofEdits edits).outline.preorder ∧ (ofEdits edits).outline.preorder = [0, 3]) := by
  intro pushes edits
  have hpushes : ∀ id, OutlineEdit.clear id ∉ pushes := by simp [pushes]
  have hcleared : ClearedAfter edits 0 1 :=
    ⟨[.push 0 'a', .push 1 'b'], [.push 2 'c', .push 1 'd'], rfl, by decide⟩
  have hancestors : (ofEdits edits).outline.ancestors 2 = [1, 0] := by decide
  refine ⟨⟨hpushes, (preorder_ofEdits pushes).2.2.2 hpushes⟩, hcleared, hancestors, ?_, by decide⟩
  intro hreached
  have hkept := (((preorder_ofEdits edits).2.2.1 2).1 hreached).2
  rw [hancestors] at hkept
  exact hkept 1 (by simp) 0 (by decide) hcleared

end OutlineBuilder

end Offside
