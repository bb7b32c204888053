import Mathlib
import Offside.Artifacts.ByContent
import Offside.Proofs.Text

/-!
# Reading back what was written

A file that has been written is found again under the path it was written to, and holds what was
written.

**Following the path.**  The place where a file is made is the place that its path leads to
(`FileStore.walk_of_place`), except that nothing need be there yet.  Making a file takes no
directory away, so afterwards the path leads to the same place (`KeepsDirectories.walk`).

**Artifacts.**  The directories that an artifact needs are made before it is written.  What happens
to them does not matter here: if the write succeeds, the artifact can be read
(`readText_of_writeArtifact`).
-/

namespace Offside

namespace FileStore

variable {s s' : FileStore}

/-! ## What is at a place -/

lemma entry?_insert (s : FileStore) {l : Location} (hl : l ≠ []) (e : FileEntry)
    (there : Location) :
    FileStore.entry? (s.insert l e) there = if there = l then some e else s.entry? there := by
  by_cases hroot : there = []
  · rw [hroot, if_neg hl.symm]
    rfl
  · have hfull : there.isEmpty = false := by simpa using hroot
    simp only [hfull, entry?, insert]
    by_cases hthere : there = l
    · simp [hthere]
    · have hkept : ∀ e : Location × FileEntry,
          decide ((e.1 != l) = true ∧ (e.1 == there) = true) = (e.1 == there) := by
        intro e
        by_cases he : e.1 = there
        · simp [he, hthere]
        · simp [he]
      have hnot : (l == there) = false := by simpa using Ne.symm hthere
      simp only [List.find?_cons, hnot, List.find?_filter, hkept, if_neg hthere]

lemma ne_nil_of_not_directory {l : Location} (h : s.entry? l ≠ some .directory) : l ≠ [] := by
  rintro rfl
  exact h rfl

lemma enter_eq_ok {l : Location} : s.enter l = .ok () ↔ s.entry? l = some .directory := by
  rw [enter]
  split <;> simp_all

/-! ## Following a path -/

/-- Where one part of a path leads. -/
def follow (l : Location) (part : Text) : Location :=
  if part.isEmpty || part == "." then l else if part == ".." then l.dropLast else l ++ [part]

lemma walk_cons {l d : Location} {part : Text} {rest : List Text} :
    s.walk l (part :: rest) = .ok d
      ↔ s.entry? l = some .directory ∧ s.walk (follow l part) rest = .ok d := by
  rw [← enter_eq_ok, walk, follow]
  cases s.enter l with
  | error e => simp [bind, Except.bind]
  | ok u =>
      simp only [bind, Except.bind, true_and]
      split_ifs <;> rfl

lemma walk_append {l d : Location} {first second : List Text} :
    s.walk l (first ++ second) = .ok d
      ↔ ∃ m, s.walk l first = .ok m ∧ s.walk m second = .ok d := by
  induction first generalizing l with
  | nil => simp [walk]
  | cons part first ih =>
      simp only [List.cons_append, walk_cons, ih]
      constructor
      · rintro ⟨hl, m, hm, hd⟩
        exact ⟨m, ⟨hl, hm⟩, hd⟩
      · rintro ⟨m, ⟨hl, hm⟩, hd⟩
        exact ⟨hl, m, hm, hd⟩

lemma locate_eq_ok {p : FilePath} {l : Location} :
    s.locate p = .ok l ↔ p ≠ [] ∧ s.walk (s.start p) (Text.splitOn '/' p) = .ok l ∧
      (s.entry? l).isSome = true := by
  cases p with
  | nil => simp [locate, bind, Except.bind]
  | cons c cs =>
      cases hwalk : s.walk (s.start (c :: cs)) (Text.splitOn '/' (c :: cs)) with
      | error e => simp [locate, hwalk, bind, Except.bind]
      | ok m =>
          have hlocate : s.locate (c :: cs)
              = if (s.entry? m).isSome = true then .ok m else .error .notFound := by
            simp [locate, hwalk, bind, Except.bind, pure, Except.pure]
          rw [hlocate]
          split_ifs with hm
          · simp only [Except.ok.injEq, ne_eq, reduceCtorEq, not_false_eq_true, true_and]
            exact ⟨fun hml => ⟨hml, hml ▸ hm⟩, And.left⟩
          · simp only [reduceCtorEq, Except.ok.injEq, ne_eq, not_false_eq_true, true_and, false_iff]
            rintro ⟨rfl, hsome⟩
            exact hm hsome

/-- The place where a file is made is where its path leads. -/
lemma walk_of_place {p : FilePath} {l : Location} (h : s.place p = .ok l) :
    p ≠ [] ∧ s.walk (s.start p) (Text.splitOn '/' p) = .ok l := by
  -- The pieces of the path are those of the directory, and the name.
  have hpieces : (Text.splitOn '/' p).dropLast ++ [(Text.splitOn '/' p).getLast?.getD []]
      = Text.splitOn '/' p :=
    List.dropLast_append_getLast? _
      (Option.getD_of_ne_none (List.getLast?_eq_none_iff.not.2 (splitOn_ne_nil '/' p)) []).symm
  rw [place] at h
  split_ifs at h with hname
  · obtain ⟨hp, hwalk, -⟩ := locate_eq_ok.1 h
    exact ⟨hp, hwalk⟩
  · have hp : p ≠ [] := by
      rintro rfl
      exact hname rfl
    refine ⟨hp, ?_⟩
    cases hwalk : s.walk (s.start p) (Text.splitOn '/' p).dropLast with
    | error e => simp [hwalk, bind, Except.bind] at h
    | ok directory =>
        cases henter : s.enter directory with
        | error e => simp [hwalk, henter, bind, Except.bind] at h
        | ok u =>
            simp only [hwalk, henter, bind, Except.bind, pure, Except.pure, Except.ok.injEq] at h
            rw [← hpieces, walk_append]
            refine ⟨directory, hwalk, walk_cons.2 ⟨enter_eq_ok.1 henter, ?_⟩⟩
            rw [walk, ← h]
            simp only [Bool.or_eq_true, not_or, Bool.not_eq_true] at hname
            simp only [follow, hname, Bool.or_false, Bool.false_eq_true, if_false]

/-! ## Making a file -/

/-- Nothing that was a directory is not one any more. -/
structure KeepsDirectories (s s' : FileStore) : Prop where
  current : s'.current = s.current
  directory : ∀ l, s.entry? l = some .directory → s'.entry? l = some .directory

lemma KeepsDirectories.walk (h : KeepsDirectories s s') {l d : Location} {parts : List Text}
    (hwalk : s.walk l parts = .ok d) : s'.walk l parts = .ok d := by
  induction parts generalizing l with
  | nil => exact hwalk
  | cons part rest ih =>
      obtain ⟨hl, hrest⟩ := walk_cons.1 hwalk
      exact walk_cons.2 ⟨h.directory l hl, ih hrest⟩

lemma keepsDirectories_insert {l : Location} (hl : s.entry? l ≠ some .directory) (e : FileEntry) :
    KeepsDirectories s (s.insert l e) where
  current := rfl
  directory there hthere := by
    rw [entry?_insert s (ne_nil_of_not_directory hl), if_neg, hthere]
    rintro rfl
    exact hl hthere

lemma exists_of_writeAt {p : FilePath} {contents : Contents} {time : Nat}
    (h : s.writeAt p contents time = .ok s') :
    ∃ l, s.place p = .ok l ∧ s.entry? l ≠ some .directory ∧
      s' = s.insert l (.file contents time) := by
  cases hplace : s.place p with
  | error e => simp [writeAt, hplace, bind, Except.bind] at h
  | ok l =>
      refine ⟨l, rfl, ?_⟩
      simp only [writeAt, hplace, bind, Except.bind, pure, Except.pure] at h
      split at h
      · cases h
      · next hnot =>
          cases h
          exact ⟨hnot, rfl⟩

/-- What was written is at the place that the path leads to. -/
lemma locate_of_writeAt {p : FilePath} {contents : Contents} {time : Nat}
    (h : s.writeAt p contents time = .ok s') :
    ∃ l, s'.locate p = .ok l ∧ s'.entry? l = some (.file contents time) := by
  obtain ⟨l, hplace, hfree, rfl⟩ := exists_of_writeAt h
  obtain ⟨hp, hwalk⟩ := walk_of_place hplace
  have hentry : FileStore.entry? (s.insert l (.file contents time)) l
      = some (.file contents time) := by
    rw [entry?_insert s (ne_nil_of_not_directory hfree), if_pos rfl]
  refine ⟨l, locate_eq_ok.2 ⟨hp, ?_, by rw [hentry, Option.isSome_some]⟩, hentry⟩
  exact (keepsDirectories_insert hfree _).walk hwalk

/-- A text that was written can be read. -/
lemma readText_of_writeText {p : FilePath} {t : Text} (h : s.writeText p t = .ok s') :
    s'.isFile p = true ∧ s'.readText p = .ok t := by
  obtain ⟨l, hlocate, hentry⟩ := locate_of_writeAt h
  constructor
  · simp only [isFile, found?, hlocate, hentry]
  · simp only [readText, hlocate, bind, Except.bind, hentry]
    rfl

end FileStore

/-! ## Artifacts -/

/-- An artifact that was written can be read. -/
lemma readText_of_writeArtifact {s s' : FileStore} {path : FilePath} {payload : Text}
    (h : writeArtifact s path payload = (.ok (), s')) :
    s'.isFile path = true ∧ s'.readText path = .ok payload := by
  simp only [writeArtifact] at h
  split at h
  · cases h
  · split at h
    · next hwrite =>
        cases h
        exact FileStore.readText_of_writeText hwrite
    · cases h

/-- An artifact that was kept is found again, without the white space at its beginning. -/
lemma ContentCache.lookup_of_store {c : ContentCache} {s s' : FileStore} {key payload : Text}
    (h : c.store s key payload = (.ok (), s')) :
    c.lookup s' key = .ok (some (Text.trimStart payload)) := by
  obtain ⟨hfile, hread⟩ := readText_of_writeArtifact h
  rw [lookup, if_pos hfile, hread]

end Offside
