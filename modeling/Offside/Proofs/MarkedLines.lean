import Mathlib
import Offside.Proofs.OutlineWalk

/-!
# Outlines with and without marked lines

Some of the lines of an outline are marked.  This file compares the outline of all lines with the
outline of the lines that are not marked, the kept ones.

**Open paths.**  The ancestors of a node are the nodes that were open when it was added, down to the
depth it is written at (`OutlineBuilder.ancestors_push`).  So it is enough to compare the open paths
of the two outlines while the lines are added.  They agree up to the first marked node that is open
(`PathsAgree`): a marked line changes the one path only, and a kept line that closes it makes both
paths the same again.

**Kept nodes.**  A kept node has a marked node above it, or it has the same ancestors in both
outlines (`ancestors_kept`).

**Hidden nodes.**  Some lines hide what stands below them, and the marked lines do.  Then a kept
node is shown in the outline of all lines exactly if it is shown among the kept lines and nothing
marked is above it (`shownAt_iff`).
-/

namespace Offside

/-! ## The ancestors of a new node -/

/-- The depth of a node is the number of its ancestors. -/
lemma Outline.Shaped.depth_eq_length_ancestors {α : Type} {t : Outline α} (h : t.Shaped) (i : Nat) :
    t.depth i = (t.ancestors i).length := by
  induction i using Nat.strong_induction_on with
  | _ i ih =>
      cases hp : t.parent? i with
      | none => rw [h.ancestors_root hp, h.depth_root i hp, List.length_nil]
      | some p =>
          rw [h.ancestors_child hp, h.depth_child i p hp, ih p (h.parent_lt i p hp),
            List.length_cons]

namespace OutlineBuilder

variable {α : Type} {b : OutlineBuilder α}

/-- The ancestors of the nodes that are there do not change. -/
lemma Sound.ancestors_push_of_lt (h : b.Sound) (depth : Nat) (data : α) {i : Nat}
    (hi : i < b.outline.size) :
    (b.push depth data).outline.ancestors i = b.outline.ancestors i := by
  have hpush := h.shaped_push depth data
  induction i using Nat.strong_induction_on with
  | _ i ih =>
      have hparent : (b.push depth data).outline.parent? i = b.outline.parent? i := by
        rw [outline_push, Outline.parent?_append, if_neg hi.ne]
      cases hp : b.outline.parent? i with
      | none => rw [h.shaped.ancestors_root hp, hpush.ancestors_root (hparent.trans hp)]
      | some p =>
          have hlt := h.shaped.parent_lt i p hp
          rw [h.shaped.ancestors_child hp, hpush.ancestors_child (hparent.trans hp),
            ih p hlt (hlt.trans hi)]

/-- Every open node has the open nodes before it as its ancestors. -/
def Chained (b : OutlineBuilder α) : Prop :=
  ∀ k id : Nat, b.openPath[k]? = some id →
    b.outline.ancestors id = (b.openPath.take k).reverse

/-- The ancestors of a new node are what is open down to the depth it is written at. -/
lemma Sound.ancestors_push (h : b.Sound) (hchained : b.Chained) (depth : Nat) (data : α) :
    (b.push depth data).outline.ancestors b.outline.size = (b.openPath.take depth).reverse := by
  have hpush := h.shaped_push depth data
  have hparent : (b.push depth data).outline.parent? b.outline.size = b.nextParent? depth := by
    rw [outline_push, Outline.parent?_append, if_pos rfl]
  rcases List.eq_nil_or_concat (b.openPath.take depth) with hnil | ⟨front, p, hfront⟩
  · have hroot : b.nextParent? depth = none := by rw [nextParent?, hnil, List.getLast?_nil]
    rw [hpush.ancestors_root (hparent.trans hroot), hnil, List.reverse_nil]
  · rw [List.concat_eq_append] at hfront
    have hlast : b.nextParent? depth = some p := by
      rw [nextParent?, hfront, List.getLast?_concat]
    have hlength : front.length < (b.openPath.take depth).length := by simp [hfront]
    have hopen : b.openPath[front.length]? = some p := by
      have hget : (b.openPath.take depth)[front.length]? = some p := by simp [hfront]
      rwa [List.getElem?_take_of_lt (by rw [List.length_take] at hlength; omega)] at hget
    have hbefore : b.openPath.take front.length = front := by
      have htake := congrArg (List.take front.length) hfront
      rwa [List.take_take, List.take_left, min_eq_left] at htake
      rw [List.length_take] at hlength
      omega
    rw [hpush.ancestors_child (hparent.trans hlast),
      h.ancestors_push_of_lt depth data (h.open_lt _ p hopen), hchained _ p hopen, hbefore, hfront,
      List.reverse_concat]

lemma Sound.chained_push (h : b.Sound) (hchained : b.Chained) (depth : Nat) (data : α) :
    (b.push depth data).Chained := by
  intro k id hid
  rw [getElem?_openPath_push] at hid
  have hlength : (b.openPath.take depth).length = b.clampedDepth depth := List.length_take
  have hpath : (b.push depth data).openPath = b.openPath.take depth ++ [b.outline.size] := rfl
  split_ifs at hid with hlt heq
  · have hk : k ≤ depth := hlt.le.trans (min_le_left _ _)
    rw [h.ancestors_push_of_lt depth data (h.open_lt k id hid), hchained k id hid, hpath,
      List.take_append_of_le_length (by omega), List.take_take, min_eq_left hk]
  · cases hid
    rw [h.ancestors_push hchained, hpath, List.take_left' (by omega)]

/-- Add lines one after the other, beginning with nothing. -/
def built (lines : List (Nat × α)) : OutlineBuilder α :=
  lines.foldl (fun b line => b.push line.1 line.2) empty

lemma outline_built (lines : List (Nat × α)) : (built lines).outline = .ofDepths lines := rfl

lemma built_concat (lines : List (Nat × α)) (line : Nat × α) :
    built (lines ++ [line]) = (built lines).push line.1 line.2 :=
  List.foldl_concat ..

lemma size_built (lines : List (Nat × α)) : (built lines).outline.size = lines.length :=
  Outline.size_ofDepths lines

lemma sound_built (lines : List (Nat × α)) : (built lines).Sound := by
  induction lines using List.reverseRecOn with
  | nil => exact sound_empty
  | append_singleton lines line ih =>
      rw [built_concat]
      exact ih.push line.1 line.2

lemma chained_built (lines : List (Nat × α)) : (built lines).Chained := by
  induction lines using List.reverseRecOn with
  | nil =>
      intro k id hid
      cases hid
  | append_singleton lines line ih =>
      rw [built_concat]
      exact (sound_built lines).chained_push ih line.1 line.2

/-- Lines that are added later do not change the ancestors of a node. -/
lemma ancestors_built_append (first second : List (Nat × α)) {i : Nat} (hi : i < first.length) :
    (built (first ++ second)).outline.ancestors i = (built first).outline.ancestors i := by
  induction second using List.reverseRecOn with
  | nil => rw [List.append_nil]
  | append_singleton second line ih =>
      rw [← List.append_assoc, built_concat, (sound_built _).ancestors_push_of_lt, ih]
      rw [size_built, List.length_append]
      omega

/-- The ancestors of the node of a line are told from the lines before it. -/
lemma ancestors_built (before after : List (Nat × α)) (line : Nat × α) :
    (built (before ++ line :: after)).outline.ancestors before.length
      = ((built before).openPath.take line.1).reverse := by
  have hlines : before ++ line :: after = (before ++ [line]) ++ after := by simp
  rw [hlines, ancestors_built_append _ _ (by simp), built_concat, ← size_built before]
  exact (sound_built before).ancestors_push (chained_built before) line.1 line.2

lemma openPath_built_map {β : Type} (f : α → β) (lines : List (Nat × α)) :
    (built (lines.map (Prod.map id f))).openPath = (built lines).openPath := by
  induction lines using List.reverseRecOn with
  | nil => rfl
  | append_singleton lines line ih =>
      rw [List.map_append, List.map_singleton, built_concat, built_concat, push, push, ih,
        size_built, size_built, List.length_map]
      rfl

end OutlineBuilder

/-! ## Open paths -/

/-- The open path of all lines and the open path of the kept lines are the same up to the first
marked node.  Kept nodes have another number among the kept lines, their rank. -/
inductive PathsAgree (marked : Nat → Bool) (rank : Nat → Nat) : List Nat → List Nat → Prop where
  | same {path : List Nat} : (∀ a ∈ path, marked a = false) →
      PathsAgree marked rank path (path.map rank)
  | parted {front rest kept : List Nat} {a : Nat} : (∀ x ∈ front, marked x = false) →
      marked a = true → PathsAgree marked rank (front ++ a :: rest) (front.map rank ++ kept)

namespace PathsAgree

variable {marked : Nat → Bool} {rank : Nat → Nat} {path kept : List Nat}

/-- Down to some depth, the paths are the same, or have parted before. -/
lemma cut (h : PathsAgree marked rank path kept) (depth : Nat) :
    (∃ more, kept = (path.take depth).map rank ++ more ∧
        kept.take depth = (path.take depth).map rank ∧
        ∀ a ∈ path.take depth, marked a = false) ∨
      ∃ front a rest more, path.take depth = front ++ a :: rest ∧ front.length < depth ∧
        kept = front.map rank ++ more ∧ (∀ x ∈ front, marked x = false) ∧ marked a = true := by
  cases h with
  | same hpath =>
      refine Or.inl ⟨(path.drop depth).map rank, ?_, (List.map_take ..).symm,
        fun a ha => hpath a (List.mem_of_mem_take ha)⟩
      rw [← List.map_append, List.take_append_drop]
  | @parted front rest kept a hfront ha =>
      rcases le_or_gt depth front.length with hle | hgt
      · rw [List.take_append_of_le_length hle]
        refine Or.inl ⟨(front.drop depth).map rank ++ kept, ?_, ?_,
          fun x hx => hfront x (List.mem_of_mem_take hx)⟩
        · rw [← List.append_assoc, ← List.map_append, List.take_append_drop]
        · rw [List.take_append_of_le_length (by simpa using hle), List.map_take]
      · obtain ⟨more, rfl⟩ := Nat.exists_eq_add_of_lt hgt
        refine Or.inr ⟨front, a, rest.take more, kept, ?_, hgt, rfl, hfront, ha⟩
        rw [List.take_append, List.take_of_length_le hgt.le, Nat.add_assoc, Nat.add_sub_cancel_left,
          List.take_succ_cons]

/-- What is open down to some depth holds a marked node, or is the same in both. -/
lemma take_cases (h : PathsAgree marked rank path kept) (depth : Nat) :
    (∃ a ∈ path.take depth, marked a = true) ∨
      (kept.take depth = (path.take depth).map rank ∧
        ∀ a ∈ path.take depth, marked a = false) := by
  rcases h.cut depth with ⟨_, -, hsame, hnone⟩ | ⟨front, a, rest, _, hpath, -, -, -, ha⟩
  · exact Or.inr ⟨hsame, hnone⟩
  · refine Or.inl ⟨a, ?_, ha⟩
    rw [hpath]
    exact List.mem_append_right _ List.mem_cons_self

/-- A kept line goes on both paths. -/
lemma push_kept (h : PathsAgree marked rank path kept) (depth : Nat) {n : Nat}
    (hn : marked n = false) :
    PathsAgree marked rank (path.take depth ++ [n]) (kept.take depth ++ [rank n]) := by
  rcases h.cut depth with ⟨_, -, hsame, hnone⟩ | ⟨front, a, rest, more, hpath, hlt, rfl, hfront, ha⟩
  · have hall : ∀ a ∈ path.take depth ++ [n], marked a = false := by
      intro a ha
      rcases List.mem_append.1 ha with ha | ha
      · exact hnone a ha
      · rw [List.mem_singleton.1 ha]
        exact hn
    rw [hsame, ← List.map_singleton, ← List.map_append]
    exact .same hall
  · rw [hpath, List.take_append, List.take_of_length_le (by simpa using hlt.le), List.append_assoc,
      List.append_assoc, List.cons_append]
    exact .parted hfront ha

/-- A marked line goes on the one path only. -/
lemma push_marked (h : PathsAgree marked rank path kept) (depth : Nat) {n : Nat}
    (hn : marked n = true) : PathsAgree marked rank (path.take depth ++ [n]) kept := by
  rcases h.cut depth with ⟨_, hkept, -, hnone⟩ | ⟨front, a, rest, _, hpath, -, rfl, hfront, ha⟩
  · rw [hkept]
    exact .parted hnone hn
  · rw [hpath, List.append_assoc, List.cons_append]
    exact .parted hfront ha

end PathsAgree

/-! ## Kept nodes -/

section Marks

variable {α : Type} (mark : α → Bool) (lines : List (Nat × α))

/-- The lines that are not marked. -/
def keptLines (lines : List (Nat × α)) : List (Nat × α) := lines.filter fun line => !mark line.2

/-- Whether the line of a node is marked. -/
def markedAt (i : Nat) : Bool := lines[i]?.any fun line => mark line.2

/-- How many lines before the line of a node are kept. -/
def rankOf (i : Nat) : Nat := (keptLines mark (lines.take i)).length

lemma keptLines_append (first second : List (Nat × α)) :
    keptLines mark (first ++ second) = keptLines mark first ++ keptLines mark second :=
  List.filter_append ..

variable {mark lines}

/-- The lines around the line of a node. -/
lemma exists_eq_append {i : Nat} (hi : i < lines.length) :
    ∃ line after, lines = lines.take i ++ line :: after ∧ lines[i]? = some line ∧
      lines.take (i + 1) = lines.take i ++ [line] := by
  refine ⟨lines[i], lines.drop (i + 1), ?_, List.getElem?_eq_getElem hi,
    (List.take_append_getElem hi).symm⟩
  rw [← List.drop_eq_getElem_cons hi, List.take_append_drop]

lemma pathsAgree_built {n : Nat} (hn : n ≤ lines.length) :
    PathsAgree (markedAt mark lines) (rankOf mark lines)
      (OutlineBuilder.built (lines.take n)).openPath
      (OutlineBuilder.built (keptLines mark (lines.take n))).openPath := by
  induction n with
  | zero => exact .same fun a ha => by cases ha
  | succ n ih =>
      obtain ⟨line, after, -, hline, htake⟩ := exists_eq_append (Nat.lt_of_succ_le hn)
      have hsize : (OutlineBuilder.built (lines.take n)).outline.size = n := by
        rw [OutlineBuilder.size_built, List.length_take]
        omega
      have hagree := ih (Nat.le_of_succ_le hn)
      rw [htake, keptLines_append, OutlineBuilder.built_concat]
      have hpath : ((OutlineBuilder.built (lines.take n)).push line.1 line.2).openPath
          = (OutlineBuilder.built (lines.take n)).openPath.take line.1 ++ [n] := by
        rw [OutlineBuilder.push, hsize]
      rw [hpath]
      cases hmark : mark line.2 with
      | true =>
          have hnone : keptLines mark [line] = [] := by simp [keptLines, hmark]
          rw [hnone, List.append_nil]
          exact hagree.push_marked line.1 (by simp [markedAt, hline, hmark])
      | false =>
          have hone : keptLines mark [line] = [line] := by simp [keptLines, hmark]
          rw [hone, OutlineBuilder.built_concat, OutlineBuilder.push, OutlineBuilder.size_built]
          exact hagree.push_kept line.1 (by simp [markedAt, hline, hmark])

/-- **Kept nodes stand where they stood, if nothing marked is above them.** -/
lemma ancestors_kept {n : Nat} (hn : n < lines.length) (hkept : markedAt mark lines n = false) :
    (∃ a ∈ (Outline.ofDepths lines).ancestors n, markedAt mark lines a = true) ∨
      ((Outline.ofDepths (keptLines mark lines)).ancestors (rankOf mark lines n)
          = ((Outline.ofDepths lines).ancestors n).map (rankOf mark lines) ∧
        ∀ a ∈ (Outline.ofDepths lines).ancestors n, markedAt mark lines a = false) := by
  obtain ⟨line, after, hlines, hline, -⟩ := exists_eq_append hn
  have hmark : mark line.2 = false := by simpa [markedAt, hline] using hkept
  have hlength : (lines.take n).length = n := by
    rw [List.length_take]
    omega
  have hall := OutlineBuilder.ancestors_built (lines.take n) after line
  have hrest := OutlineBuilder.ancestors_built (keptLines mark (lines.take n))
    (keptLines mark after) line
  have hkeptLines : keptLines mark lines
      = keptLines mark (lines.take n) ++ line :: keptLines mark after := by
    conv_lhs => rw [hlines, keptLines_append]
    simp [keptLines, hmark]
  rw [← hlines, hlength] at hall
  rw [← hkeptLines] at hrest
  rw [← OutlineBuilder.outline_built, ← OutlineBuilder.outline_built, hall, rankOf, hrest]
  rcases (pathsAgree_built hn.le).take_cases line.1 with ⟨a, ha, hmarked⟩ | ⟨hsame, hnone⟩
  · exact Or.inl ⟨a, List.mem_reverse.2 ha, hmarked⟩
  · refine Or.inr ⟨?_, fun a ha => hnone a (List.mem_reverse.1 ha)⟩
    rw [hsame, List.map_reverse]

/-- A kept line is found at its rank. -/
lemma getElem?_keptLines {n : Nat} (hn : n < lines.length) (hkept : markedAt mark lines n = false) :
    (keptLines mark lines)[rankOf mark lines n]? = lines[n]? := by
  obtain ⟨line, after, hlines, hline, -⟩ := exists_eq_append hn
  have hmark : mark line.2 = false := by simpa [markedAt, hline] using hkept
  have hkeptLines := keptLines_append mark (lines.take n) (line :: after)
  rw [← hlines] at hkeptLines
  rw [hline, hkeptLines, rankOf]
  simp [keptLines, hmark]

/-- The nodes of the kept lines. -/
def keptNodes (mark : α → Bool) (lines : List (Nat × α)) : List Nat :=
  (List.range lines.length).filter fun i => !markedAt mark lines i

lemma mem_keptNodes {i : Nat} :
    i ∈ keptNodes mark lines ↔ i < lines.length ∧ markedAt mark lines i = false := by
  simp [keptNodes]

lemma pairwise_keptNodes (mark : α → Bool) (lines : List (Nat × α)) :
    (keptNodes mark lines).Pairwise (· < ·) :=
  List.pairwise_lt_range.filter _

/-- The ranks of the kept nodes, in order, are all numbers of kept lines. -/
lemma map_rankOf_keptNodes (mark : α → Bool) (lines : List (Nat × α)) :
    (keptNodes mark lines).map (rankOf mark lines)
      = List.range (keptLines mark lines).length := by
  have hall : ∀ n ≤ lines.length,
      ((List.range n).filter fun i => !markedAt mark lines i).map (rankOf mark lines)
        = List.range (rankOf mark lines n) := by
    intro n hn
    induction n with
    | zero => simp [rankOf, keptLines]
    | succ n ih =>
        obtain ⟨line, after, -, hline, htake⟩ := exists_eq_append (Nat.lt_of_succ_le hn)
        have hrank : rankOf mark lines (n + 1)
            = rankOf mark lines n + (keptLines mark [line]).length := by
          rw [rankOf, htake, keptLines_append, List.length_append, rankOf]
        have hmarked : markedAt mark lines n = mark line.2 := by simp [markedAt, hline]
        rw [List.range_succ, List.filter_append, List.map_append, ih (Nat.le_of_succ_le hn), hrank]
        cases hmark : mark line.2 with
        | true => simp [hmarked, hmark, keptLines]
        | false => simp [hmarked, hmark, keptLines, List.range_succ]
  rw [keptNodes, hall _ le_rfl, rankOf, List.take_length]

/-- Kept nodes are numbered by their rank. -/
lemma getElem?_keptNodes_iff {k i : Nat} :
    (keptNodes mark lines)[k]? = some i ↔ i ∈ keptNodes mark lines ∧ rankOf mark lines i = k := by
  have hrank : ∀ {k i : Nat}, (keptNodes mark lines)[k]? = some i → rankOf mark lines i = k := by
    intro k i hi
    have hk := congrArg (·[k]?) (map_rankOf_keptNodes mark lines)
    simp only [List.getElem?_map, hi, Option.map_some] at hk
    obtain ⟨hlt, hget⟩ := List.getElem?_eq_some_iff.1 hk.symm
    rw [← hget, List.getElem_range]
  refine ⟨fun hi => ⟨List.mem_of_getElem? hi, hrank hi⟩, ?_⟩
  rintro ⟨hmem, rfl⟩
  obtain ⟨k, hk⟩ := List.mem_iff_getElem?.1 hmem
  rw [hrank hk, hk]

/-! ## Hidden nodes -/

/-- Nothing above a node hides it. -/
def ShownAt (hides : α → Bool) (lines : List (Nat × α)) (i : Nat) : Prop :=
  i < lines.length ∧
    ∀ a ∈ (Outline.ofDepths lines).ancestors i, markedAt hides lines a = false

/-- What the nodes hold does not change where they stand. -/
lemma ancestors_map {β : Type} (f : α → β) {i : Nat} (hi : i < lines.length) :
    (Outline.ofDepths (lines.map (Prod.map id f))).ancestors i
      = (Outline.ofDepths lines).ancestors i := by
  obtain ⟨line, after, hlines, -, -⟩ := exists_eq_append hi
  have hlength : (lines.take i).length = i := by
    rw [List.length_take]
    omega
  have hown := OutlineBuilder.ancestors_built (lines.take i) after line
  have hmapped := OutlineBuilder.ancestors_built ((lines.take i).map (Prod.map id f))
    (after.map (Prod.map id f)) (Prod.map id f line)
  rw [← List.map_cons, ← List.map_append, OutlineBuilder.openPath_built_map, List.length_map]
    at hmapped
  rw [← hlines, hlength] at hown hmapped
  rw [← OutlineBuilder.outline_built, ← OutlineBuilder.outline_built, hown, hmapped]
  rfl

lemma depth_map {β : Type} (f : α → β) {i : Nat} (hi : i < lines.length) :
    (Outline.ofDepths (lines.map (Prod.map id f))).depth i = (Outline.ofDepths lines).depth i := by
  rw [(Outline.shaped_ofDepths _).depth_eq_length_ancestors, ancestors_map f hi,
    (Outline.shaped_ofDepths _).depth_eq_length_ancestors]

lemma shownAt_map {β : Type} {f : α → β} {hides : β → Bool} {i : Nat} :
    ShownAt hides (lines.map (Prod.map id f)) i ↔ ShownAt (fun a => hides (f a)) lines i := by
  rw [ShownAt, List.length_map, ShownAt]
  refine and_congr_right fun hi => ?_
  rw [ancestors_map f hi]
  refine forall₂_congr fun a _ => ?_
  rw [markedAt, List.getElem?_map, Option.any_map, markedAt]
  rfl

/-- If marked lines hide what stands below them, a kept node is shown in the outline of all lines
exactly if it is shown among the kept lines and nothing marked is above it. -/
lemma shownAt_iff {hides : α → Bool} (hmarks : ∀ line ∈ lines, mark line.2 = true →
      hides line.2 = true) {n : Nat} (hn : n < lines.length)
    (hkept : markedAt mark lines n = false) :
    ShownAt hides lines n ↔ ShownAt hides (keptLines mark lines) (rankOf mark lines n) ∧
      ∀ a ∈ (Outline.ofDepths lines).ancestors n, markedAt mark lines a = false := by
  have hrank : rankOf mark lines n < (keptLines mark lines).length := by
    have hget := getElem?_keptLines hn hkept
    rw [List.getElem?_eq_getElem hn] at hget
    exact (List.getElem?_eq_some_iff.1 hget).1
  have hhides : ∀ a, markedAt mark lines a = true → markedAt hides lines a = true := by
    intro a ha
    obtain ⟨line, hline, hmark⟩ := (Option.any_eq_true _ _).1 ha
    exact (Option.any_eq_true _ _).2 ⟨line, hline, hmarks line (List.mem_of_getElem? hline) hmark⟩
  -- Without marked nodes above it, a node has the same nodes above it in both outlines.
  have hsame : (∀ a ∈ (Outline.ofDepths lines).ancestors n, markedAt mark lines a = false) →
      (ShownAt hides lines n ↔ ShownAt hides (keptLines mark lines) (rankOf mark lines n)) := by
    intro hnone
    rcases ancestors_kept hn hkept with ⟨a, ha, hmarked⟩ | ⟨hancestors, -⟩
    · rw [hnone a ha] at hmarked
      cases hmarked
    · have hlt : ∀ a ∈ (Outline.ofDepths lines).ancestors n, a < lines.length := fun a ha =>
        (((Outline.shaped_ofDepths lines).mem_ancestors_iff a n).1 ha).1.trans hn
      rw [ShownAt, ShownAt, hancestors, and_iff_right hn, and_iff_right hrank, List.forall_mem_map]
      refine forall₂_congr fun a ha => ?_
      rw [markedAt, markedAt, getElem?_keptLines (hlt a ha) (hnone a ha)]
  constructor
  · intro hshown
    have hnone : ∀ a ∈ (Outline.ofDepths lines).ancestors n, markedAt mark lines a = false := by
      intro a ha
      by_contra hmarked
      rw [Bool.not_eq_false] at hmarked
      have hhidden := hhides a hmarked
      rw [hshown.2 a ha] at hhidden
      cases hhidden
    exact ⟨(hsame hnone).1 hshown, hnone⟩
  · rintro ⟨hshown, hnone⟩
    exact (hsame hnone).2 hshown

lemma depth_kept {n : Nat} (hn : n < lines.length) (hkept : markedAt mark lines n = false)
    (hnone : ∀ a ∈ (Outline.ofDepths lines).ancestors n, markedAt mark lines a = false) :
    (Outline.ofDepths (keptLines mark lines)).depth (rankOf mark lines n)
      = (Outline.ofDepths lines).depth n := by
  rw [(Outline.shaped_ofDepths _).depth_eq_length_ancestors,
    (Outline.shaped_ofDepths _).depth_eq_length_ancestors]
  rcases ancestors_kept hn hkept with ⟨a, ha, hmarked⟩ | ⟨hancestors, -⟩
  · rw [hnone a ha] at hmarked
    cases hmarked
  · rw [hancestors, List.length_map]

/-! ## Nodes in order -/

/-- Nodes of all lines, in order and without the marked ones, are some of the kept nodes. -/
lemma filter_eq_filter_keptNodes {all : List Nat} (hall : all.Pairwise (· < ·))
    (hlt : ∀ i ∈ all, i < lines.length) :
    (all.filter fun i => !markedAt mark lines i)
      = (keptNodes mark lines).filter fun i => i ∈ all := by
  refine (hall.filter _).eq_of_mem_iff ((pairwise_keptNodes mark lines).filter _) fun i => ?_
  simp only [List.mem_filter, Bool.not_eq_true', decide_eq_true_eq, mem_keptNodes]
  exact ⟨fun h => ⟨⟨hlt i h.1, h.2⟩, h.1⟩, fun h => ⟨h.2, h.1.2⟩⟩

/-- Nodes of the kept lines, in order, are the ranks of some of the kept nodes. -/
lemma eq_map_rankOf {kept : List Nat} (hkept : kept.Pairwise (· < ·))
    (hlt : ∀ k ∈ kept, k < (keptLines mark lines).length) :
    kept = ((keptNodes mark lines).filter fun i => rankOf mark lines i ∈ kept).map
      (rankOf mark lines) := by
  have hfilter : kept = ((keptNodes mark lines).map (rankOf mark lines)).filter
      fun k => k ∈ kept := by
    rw [map_rankOf_keptNodes]
    refine hkept.eq_of_mem_iff (List.pairwise_lt_range.filter _) fun k => ?_
    simp only [List.mem_filter, List.mem_range, decide_eq_true_eq]
    exact ⟨fun h => ⟨hlt k h, h⟩, fun h => h.2⟩
  rw [List.filter_map] at hfilter
  exact hfilter

/-- Nodes of all lines and nodes of the kept lines are given, in order, and a kept node is among the
ones if its number is among the others and a condition holds.  Then the lists are the same without
the marked nodes exactly if the condition holds wherever it matters. -/
lemma map_filter_eq_iff {β : Type} {all kept : List Nat} (hall : all.Pairwise (· < ·))
    (hkept : kept.Pairwise (· < ·)) (hallLt : ∀ i ∈ all, i < lines.length)
    (hkeptLt : ∀ k ∈ kept, k < (keptLines mark lines).length) {free : Nat → Prop}
    (hmem : ∀ {k i}, (keptNodes mark lines)[k]? = some i → (i ∈ all ↔ k ∈ kept ∧ free i))
    {view keptView : Nat → β}
    (hview : ∀ {k i}, (keptNodes mark lines)[k]? = some i → i ∈ all → view i = keptView k) :
    (all.filter fun i => !markedAt mark lines i).map view = kept.map keptView
      ↔ ∀ k ∈ kept, ∀ i, (keptNodes mark lines)[k]? = some i → free i := by
  have hnumber : ∀ {i}, i ∈ keptNodes mark lines →
      (keptNodes mark lines)[rankOf mark lines i]? = some i :=
    fun hi => getElem?_keptNodes_iff.2 ⟨hi, rfl⟩
  have hleft : (all.filter fun i => !markedAt mark lines i).map view
      = ((keptNodes mark lines).filter fun i => i ∈ all).map
          fun i => keptView (rankOf mark lines i) := by
    rw [filter_eq_filter_keptNodes hall hallLt]
    refine List.map_congr_left fun i hi => ?_
    rw [List.mem_filter, decide_eq_true_eq] at hi
    exact hview (hnumber hi.1) hi.2
  have hright : kept.map keptView
      = ((keptNodes mark lines).filter fun i => rankOf mark lines i ∈ kept).map
          fun i => keptView (rankOf mark lines i) := by
    conv_lhs => rw [eq_map_rankOf hkept hkeptLt, List.map_map]
    rfl
  rw [hleft, hright]
  constructor
  · -- The first list is part of the second, so it is the same if it is as long.
    intro heq k hk i hi
    obtain ⟨hnode, rfl⟩ := getElem?_keptNodes_iff.1 hi
    have hfewer : ((keptNodes mark lines).filter fun i => i ∈ all)
        = ((keptNodes mark lines).filter fun i => rankOf mark lines i ∈ kept).filter
            fun i => i ∈ all := by
      rw [List.filter_filter]
      refine List.filter_congr fun j hj => ?_
      rw [← Bool.decide_and, decide_eq_decide]
      exact (and_iff_left_of_imp fun hshown => ((hmem (hnumber hj)).1 hshown).1).symm
    have hlength := congrArg List.length heq
    rw [List.length_map, List.length_map, hfewer] at hlength
    have hsame := List.filter_sublist.eq_of_length hlength
    have hshown : i ∈ (keptNodes mark lines).filter fun i => rankOf mark lines i ∈ kept :=
      List.mem_filter.2 ⟨hnode, decide_eq_true hk⟩
    rw [← hsame, List.mem_filter, decide_eq_true_eq] at hshown
    exact ((hmem hi).1 hshown.2).2
  · intro hfree
    congr 1
    refine List.filter_congr fun i hi => ?_
    rw [decide_eq_decide, hmem (hnumber hi)]
    exact and_iff_left_of_imp fun hrank => hfree _ hrank i (hnumber hi)

end Marks

end Offside
