import Mathlib
import Offside.Proofs.Places
import Offside.Proofs.Runs

/-!
# Making files and directories

**Sound stores.**  In a store that came about by making files and directories one by one, whatever
is somewhere is in a directory (`Sound`).  Making and removing keep this.

**Making directories.**  A path of directories is made from the deepest one that is there.  However
this ends, all that has changed is that there are directories on the way where nothing was before
(`addsDirectories_makeDirectories`).  It succeeds if no file is in the way
(`exists_makeDirectoriesWithin`), and so does writing an artifact (`EndsIn.exists_writeArtifact`).

**Canonical paths.**  The canonical form of a path is the path of the place it leads to, as long as
going back from what is missing ends at something that is there (`Anchored`).  It does not change
when more is made.
-/

namespace Offside

namespace FileStore

open FilePath Location

variable {s s' s'' : FileStore} {p : FilePath} {l : Location}

/-! ## Sound stores -/

/-- Everything is in a directory, once, and has a name. -/
structure Sound (s : FileStore) : Prop where
  nodup : (s.entries.map Prod.fst).Nodup
  root : [] ∉ s.entries.map Prod.fst
  named : ∀ l, (s.entry? l).isSome = true → Named l
  parent : ∀ l, (s.entry? l).isSome = true → s.entry? l.dropLast = some .directory
  current : s.entry? s.current = some .directory

lemma Sound.named_current (hs : Sound s) : Named s.current :=
  hs.named _ (by rw [hs.current, Option.isSome_some])

lemma Sound.named_start (hs : Sound s) (p : FilePath) : Named (s.start p) := by
  rw [start]
  split_ifs
  · simp [Named]
  · exact hs.named_current

lemma Sound.named_leadsTo (hs : Sound s) (p : FilePath) : Named (s.leadsTo p) :=
  named_foldl_follow (hs.named_start p) p

/-- Whether a store is sound can be read off its entries. -/
lemma sound_of_entries (hnodup : (s.entries.map Prod.fst).Nodup)
    (hroot : [] ∉ s.entries.map Prod.fst)
    (hentries : ∀ l ∈ s.entries.map Prod.fst,
      Named l ∧ s.entry? l.dropLast = some .directory)
    (hcurrent : s.entry? s.current = some .directory) : Sound s := by
  have hmem : ∀ l, (s.entry? l).isSome = true → l = [] ∨ l ∈ s.entries.map Prod.fst := by
    intro l hthere
    by_cases hl : l = []
    · exact .inl hl
    · right
      have hfull : l.isEmpty = false := by simpa using hl
      simp only [hfull, entry?, Bool.false_eq_true, if_false, Option.isSome_map,
        List.find?_isSome, beq_iff_eq] at hthere
      obtain ⟨entry, hentry, rfl⟩ := hthere
      exact List.mem_map_of_mem hentry
  refine ⟨hnodup, hroot, ?_, ?_, hcurrent⟩
  · intro l hthere
    rcases hmem l hthere with rfl | hl
    · simp [Named]
    · exact (hentries l hl).1
  · intro l hthere
    rcases hmem l hthere with rfl | hl
    · rfl
    · exact (hentries l hl).2

lemma Sound.insert (hs : Sound s) (hnamed : Named l)
    (hparent : s.entry? l.dropLast = some .directory) (hfree : s.entry? l ≠ some .directory)
    (e : FileEntry) : Sound (s.insert l e) := by
  have hl := ne_nil_of_not_directory hfree
  have hkeep : ∀ there, s.entry? there = some .directory →
      FileStore.entry? (s.insert l e) there = some .directory :=
    (keepsDirectories_insert hfree e).directory
  refine ⟨?_, ?_, ?_, ?_, hkeep _ hs.current⟩
  · have hsub : ((s.entries.filter fun entry => entry.1 != l).map Prod.fst).Nodup :=
      hs.nodup.sublist (List.filter_sublist.map _)
    simpa [FileStore.insert] using hsub
  · have hroot := hs.root
    simp only [FileStore.insert, List.map_cons, List.mem_cons, List.mem_map, List.mem_filter,
      not_or] at hroot ⊢
    refine ⟨hl.symm, ?_⟩
    rintro ⟨entry, ⟨hmem, -⟩, hnil⟩
    exact hroot ⟨entry, hmem, hnil⟩
  · intro there hthere
    rw [entry?_insert s hl] at hthere
    split_ifs at hthere with heq
    · exact heq ▸ hnamed
    · exact hs.named there hthere
  · intro there hthere
    rw [entry?_insert s hl] at hthere
    split_ifs at hthere with heq
    · exact hkeep _ (heq ▸ hparent)
    · exact hkeep _ (hs.parent there hthere)

lemma entry?_erase (s : FileStore) (hl : l ≠ []) (there : Location) :
    FileStore.entry? (s.erase l) there = if there = l then none else s.entry? there := by
  by_cases hroot : there = []
  · rw [hroot, if_neg hl.symm]
    rfl
  · have hfull : there.isEmpty = false := by simpa using hroot
    simp only [hfull, entry?, erase, List.find?_filter, Bool.false_eq_true, if_false]
    by_cases hthere : there = l
    · simp [hthere]
    · have hkept : ∀ e : Location × FileEntry,
          decide ((e.1 != l) = true ∧ (e.1 == there) = true) = (e.1 == there) := by
        intro e
        by_cases he : e.1 = there
        · simp [he, hthere]
        · simp [he]
      simp only [hkept, if_neg hthere]

lemma Sound.erase (hs : Sound s) (hfree : s.entry? l ≠ some .directory) : Sound (s.erase l) := by
  have hl := ne_nil_of_not_directory hfree
  have hkeep : ∀ there, s.entry? there = some .directory →
      FileStore.entry? (s.erase l) there = some .directory := by
    intro there hthere
    rw [entry?_erase s hl, if_neg, hthere]
    rintro rfl
    exact hfree hthere
  refine ⟨hs.nodup.sublist (List.filter_sublist.map _), ?_, ?_, ?_, hkeep _ hs.current⟩
  · intro hroot
    exact hs.root ((List.filter_sublist.map Prod.fst).subset hroot)
  · intro there hthere
    rw [entry?_erase s hl] at hthere
    split_ifs at hthere
    · cases hthere
    · exact hs.named there hthere
  · intro there hthere
    rw [entry?_erase s hl] at hthere
    split_ifs at hthere
    · cases hthere
    · exact hkeep _ (hs.parent there hthere)

lemma Sound.mem_entries_iff (hs : Sound s) {e : FileEntry} :
    (l, e) ∈ s.entries ↔ l ≠ [] ∧ s.entry? l = some e := by
  by_cases hl : l = []
  · simp only [hl, ne_eq, not_true_eq_false, false_and, iff_false]
    intro hmem
    exact hs.root (List.mem_map_of_mem hmem)
  · have hfull : l.isEmpty = false := by simpa using hl
    simp only [hfull, entry?, Bool.false_eq_true, if_false, Option.map_eq_some_iff, ne_eq, hl,
      not_false_eq_true, true_and]
    constructor
    · intro hmem
      cases hfind : s.entries.find? fun entry => entry.1 == l with
      | none => simpa using List.find?_eq_none.1 hfind _ hmem
      | some found =>
          have hfound : found.1 = l := by simpa using List.find?_some hfind
          have heq : found = (l, e) :=
            List.inj_on_of_nodup_map hs.nodup (List.mem_of_find?_eq_some hfind) hmem hfound
          exact ⟨found, rfl, by rw [heq]⟩
    · rintro ⟨found, hfind, rfl⟩
      have hfound : found.1 = l := by simpa using List.find?_some hfind
      exact hfound ▸ List.mem_of_find?_eq_some hfind

/-- What is listed as a file is one. -/
lemma Sound.mem_files_iff (hs : Sound s) :
    l ∈ s.files ↔ ∃ contents time, s.entry? l = some (.file contents time) := by
  simp only [files, List.mem_filterMap, Prod.exists]
  constructor
  · rintro ⟨there, e, hmem, hfile⟩
    cases e with
    | directory => cases hfile
    | file contents time =>
        cases hfile
        exact ⟨contents, time, (hs.mem_entries_iff.1 hmem).2⟩
  · rintro ⟨contents, time, hfile⟩
    refine ⟨l, _, hs.mem_entries_iff.2 ⟨?_, hfile⟩, rfl⟩
    rintro rfl
    cases hfile

lemma Sound.nodup_files (hs : Sound s) : s.files.Nodup := by
  have hsub : List.Sublist s.files (s.entries.map Prod.fst) := by
    rw [files]
    induction s.entries with
    | nil => exact List.Sublist.refl _
    | cons entry rest ih =>
        obtain ⟨there, e⟩ := entry
        cases e with
        | directory => exact ih.cons _
        | file contents time => exact ih.cons_cons _
  exact hs.nodup.sublist hsub

/-! ## Making one file or directory -/

/-- What can be made is in a directory. -/
lemma Sound.of_place (hs : Sound s) (h : s.place p = .ok l) :
    Named l ∧ s.entry? l.dropLast = some .directory := by
  rw [place] at h
  split_ifs at h with hname
  · have hthere := (locate_eq_ok.1 h).2.2
    exact ⟨hs.named l hthere, hs.parent l hthere⟩
  · obtain ⟨d, hwalk, h⟩ := bind_eq_ok_iff.1 h
    obtain ⟨u, henter, h⟩ := bind_eq_ok_iff.1 h
    cases h
    simp only [Bool.or_eq_true, not_or, List.isEmpty_iff, beq_iff_eq] at hname
    have hd := enter_eq_ok.1 henter
    have hslash : '/' ∉ (Text.splitOn '/' p).getLast?.getD [] := by
      cases hlast : (Text.splitOn '/' p).getLast? with
      | none => simp
      | some last => exact notMem_of_mem_splitOn (List.mem_of_getLast? hlast)
    rw [List.dropLast_concat]
    exact ⟨named_append.2 ⟨hs.named d (by rw [hd, Option.isSome_some]),
      ⟨hname.1.1, hslash, hname.1.2, hname.2⟩⟩, hd⟩

lemma exists_of_makeDirectory (h : s.makeDirectory p = .ok s') :
    ∃ l, s.place p = .ok l ∧ s.entry? l = none ∧ s' = s.insert l .directory := by
  obtain ⟨l, hplace, h⟩ := bind_eq_ok_iff.1 h
  split_ifs at h with hthere
  cases h
  exact ⟨l, hplace, by simpa using hthere, rfl⟩

/-- Where no file is on the way of a path, none is on the way of its first pieces. -/
lemma noFileAt_of_pieces (hfree : ∀ place ∈ along (s.start p) (steps p), s.NoFileAt place)
    {pieces : List Text} (hpieces : pieces <+: Text.splitOn '/' p) :
    ∀ place ∈ along (s.start p) pieces, s.NoFileAt place := by
  obtain ⟨rest, hrest⟩ := hpieces
  intro place hplace
  refine hfree place (mem_along_steps.1 ?_)
  rw [← hrest]
  exact along_subset_append _ _ _ hplace

lemma locate_error {e : FileError}
    (hfree : ∀ place ∈ along (s.start p) (steps p), s.NoFileAt place)
    (h : s.locate p = .error e) : e = .notFound := by
  rw [locate] at h
  cases p with
  | nil => exact (Except.error.inj h).symm
  | cons c cs =>
      cases hwalk : s.walk (s.start (c :: cs)) (Text.splitOn '/' (c :: cs)) with
      | error cause =>
          have hcause := walk_error (noFileAt_of_pieces hfree List.prefix_rfl) hwalk
          simp only [hwalk, hcause, List.isEmpty_cons, Bool.false_eq_true, if_false, bind,
            Except.bind] at h
          exact (Except.error.inj h).symm
      | ok d =>
          simp only [hwalk, List.isEmpty_cons, Bool.false_eq_true, if_false, bind, Except.bind,
            pure, Except.pure] at h
          split_ifs at h
          exact (Except.error.inj h).symm

lemma place_error {e : FileError}
    (hfree : ∀ place ∈ along (s.start p) (steps p), s.NoFileAt place)
    (h : s.place p = .error e) : e = .notFound := by
  rw [place] at h
  split_ifs at h
  · exact locate_error hfree h
  · have hway := noFileAt_of_pieces hfree (List.dropLast_prefix (Text.splitOn '/' p))
    cases hwalk : s.walk (s.start p) (Text.splitOn '/' p).dropLast with
    | error cause =>
        simp only [hwalk, walk_error hway hwalk, bind, Except.bind] at h
        exact (Except.error.inj h).symm
    | ok d =>
        rcases hway d (eq_of_walk hwalk ▸ end_mem_along _ _) with hnone | hdirectory
        · simp only [hwalk, enter, hnone, bind, Except.bind] at h
          exact (Except.error.inj h).symm
        · simp only [hwalk, enter_eq_ok.2 hdirectory, bind, Except.bind] at h
          cases h

/-- Why a directory could not be made where no file is in the way. -/
lemma makeDirectory_error {e : FileError}
    (hfree : ∀ place ∈ along (s.start p) (steps p), s.NoFileAt place)
    (h : s.makeDirectory p = .error e) (hother : e ≠ .notFound) :
    s.locate p = .ok (s.leadsTo p) ∧ s.entry? (s.leadsTo p) = some .directory := by
  cases hl : s.place p with
  | error cause =>
      simp only [makeDirectory, hl, bind, Except.bind, Except.error.injEq] at h
      exact absurd (h ▸ place_error hfree hl) hother
  | ok l =>
      obtain ⟨hp, hwalk⟩ := walk_of_place hl
      obtain rfl := leadsTo_of_walk hwalk
      have hthere : (s.entry? (s.leadsTo p)).isSome = true := by
        by_contra hnot
        simp [makeDirectory, hl, bind, Except.bind, hnot, pure, Except.pure] at h
      refine ⟨locate_eq_ok.2 ⟨hp, hwalk, hthere⟩, ?_⟩
      rcases hfree _ (end_mem_along _ _) with hnone | hdirectory
      · rw [leadsTo, hnone] at hthere
        cases hthere
      · exact hdirectory

/-! ## Making a path of directories -/

lemma start_of_isAbsolute {parent : FilePath} (h : isAbsolute parent = isAbsolute p) :
    s.start parent = s.start p := by
  rw [start, start, h]

/-- All that has changed is that there are directories at some places where nothing was. -/
structure AddsDirectories (places : List Location) (s s' : FileStore) : Prop where
  current : s'.current = s.current
  temporary : s'.temporary = s.temporary
  clock : s'.clock = s.clock
  entry : ∀ l, s'.entry? l = s.entry? l ∨
    (l ∈ places ∧ s.entry? l = none ∧ s'.entry? l = some .directory)
  sound : Sound s → Sound s'

variable {places : List Location}

lemma AddsDirectories.refl (places : List Location) (s : FileStore) : AddsDirectories places s s :=
  ⟨rfl, rfl, rfl, fun _ => .inl rfl, id⟩

lemma AddsDirectories.trans (h : AddsDirectories places s s') (h' : AddsDirectories places s' s'') :
    AddsDirectories places s s'' where
  current := h'.current.trans h.current
  temporary := h'.temporary.trans h.temporary
  clock := h'.clock.trans h.clock
  sound := h'.sound ∘ h.sound
  entry l := by
    rcases h.entry l with hsame | ⟨hmem, hnone, hmade⟩
    · rw [← hsame]
      exact h'.entry l
    · rcases h'.entry l with hsame | ⟨-, hnone', -⟩
      · exact .inr ⟨hmem, hnone, hsame.trans hmade⟩
      · rw [hmade] at hnone'
        cases hnone'

lemma AddsDirectories.mono {more : List Location} (h : AddsDirectories places s s')
    (hsub : places ⊆ more) : AddsDirectories more s s' :=
  { h with entry := fun l => (h.entry l).imp_right fun ⟨hmem, hrest⟩ => ⟨hsub hmem, hrest⟩ }

/-- What was there is still there. -/
lemma AddsDirectories.keeps (h : AddsDirectories places s s') {e : FileEntry}
    (he : s.entry? l = some e) : s'.entry? l = some e := by
  rcases h.entry l with hsame | ⟨-, hnone, -⟩
  · rw [hsame, he]
  · rw [hnone] at he
    cases he

lemma AddsDirectories.noFileAt (h : AddsDirectories places s s') (hfree : s.NoFileAt l) :
    s'.NoFileAt l := by
  rcases h.entry l with hsame | ⟨-, -, hmade⟩
  · rw [NoFileAt, hsame]
    exact hfree
  · exact .inr hmade

lemma addsDirectories_makeDirectory (h : s.makeDirectory p = .ok s') :
    AddsDirectories (along (s.start p) (steps p)) s s' := by
  obtain ⟨l, hplace, hnone, rfl⟩ := exists_of_makeDirectory h
  have hfree : s.entry? l ≠ some .directory := by simp [hnone]
  refine ⟨rfl, rfl, rfl, ?_, ?_⟩
  · intro there
    rw [entry?_insert s (ne_nil_of_not_directory hfree)]
    split_ifs with heq
    · right
      subst heq
      refine ⟨?_, hnone, rfl⟩
      rw [leadsTo_of_walk (walk_of_place hplace).2]
      exact end_mem_along _ _
    · exact .inl rfl
  · intro hs
    obtain ⟨hnamed, hparent⟩ := hs.of_place hplace
    exact hs.insert hnamed hparent hfree _

/-- Make a directory, unless it is there. -/
def tryDirectory (s : FileStore) (p : FilePath) : Except FileError Unit × FileStore :=
  match s.makeDirectory p with
  | .ok made => (.ok (), made)
  | .error e => if s.isDirectory p then (.ok (), s) else (.error e, s)

lemma addsDirectories_tryDirectory (s : FileStore) (p : FilePath) :
    AddsDirectories (along (s.start p) (steps p)) s (s.tryDirectory p).2 := by
  rw [tryDirectory]
  split
  · next hmade => exact addsDirectories_makeDirectory hmade
  · split_ifs <;> exact .refl _ s

/-- What making a path of directories comes to: the directory itself is made at last, before that
the directories above it if it could not be made without them. -/
lemma makeDirectoriesWithin_cases (levels : Nat) (s : FileStore) (hp : p ≠ []) :
    (s.makeDirectory p ≠ .error .notFound ∧
      makeDirectoriesWithin (levels + 1) s p = s.tryDirectory p) ∨
    (s.makeDirectory p = .error .notFound ∧ p.parent? = none ∧
      makeDirectoriesWithin (levels + 1) s p = (.error .notFound, s)) ∨
    ∃ parent s₁, p.parent? = some parent ∧ s.makeDirectory p = .error .notFound ∧
      ((makeDirectoriesWithin levels s parent = (.ok (), s₁) ∧
        makeDirectoriesWithin (levels + 1) s p = s₁.tryDirectory p) ∨
      ∃ e, makeDirectoriesWithin levels s parent = (.error e, s₁) ∧
        makeDirectoriesWithin (levels + 1) s p = (.error e, s₁)) := by
  have hfull : p.isEmpty = false := by simpa using hp
  by_cases hmade : s.makeDirectory p = .error .notFound
  · right
    cases hparent : p.parent? with
    | none =>
        left
        refine ⟨hmade, rfl, ?_⟩
        simp [makeDirectoriesWithin, hfull, hmade, hparent]
    | some parent =>
        right
        refine ⟨parent, (makeDirectoriesWithin levels s parent).2, rfl, hmade, ?_⟩
        cases hresult : makeDirectoriesWithin levels s parent with
        | mk result s₁ =>
            cases result with
            | ok u =>
                left
                refine ⟨rfl, ?_⟩
                simp only [makeDirectoriesWithin, hfull, hmade, hparent, hresult,
                  Bool.false_eq_true, if_false]
                rfl
            | error e =>
                right
                refine ⟨e, rfl, ?_⟩
                simp [makeDirectoriesWithin, hfull, hmade, hparent, hresult]
  · left
    refine ⟨hmade, ?_⟩
    cases hfirst : s.makeDirectory p with
    | ok made => simp [makeDirectoriesWithin, hfull, tryDirectory, hfirst]
    | error e =>
        cases e with
        | notFound => exact absurd hfirst hmade
        | _ => simp [makeDirectoriesWithin, hfull, tryDirectory, hfirst]

/-- However making a path of directories ends, only directories on the way are new. -/
lemma addsDirectories_makeDirectoriesWithin (levels : Nat) (s : FileStore) (p : FilePath) :
    AddsDirectories (along (s.start p) (steps p)) s (makeDirectoriesWithin levels s p).2 := by
  induction levels generalizing p with
  | zero => exact .refl _ s
  | succ levels ih =>
      rcases eq_or_ne p [] with rfl | hp
      · exact .refl _ s
      · rcases makeDirectoriesWithin_cases levels s hp with
          ⟨-, heq⟩ | ⟨-, -, heq⟩ | ⟨parent, s₁, hparent, -, hrest⟩
        · rw [heq]
          exact addsDirectories_tryDirectory s p
        · rw [heq]
          exact .refl _ s
        · obtain ⟨last, hsteps, -, -, habsolute, -⟩ := parent?_cases hparent
          -- The way to the parent is part of the way.
          have habove := ih parent
          rw [start_of_isAbsolute habsolute] at habove
          replace habove :=
            habove.mono (hsteps ▸ along_subset_append (s.start p) (steps parent) last)
          rcases hrest with ⟨hok, heq⟩ | ⟨e, herror, heq⟩
          · rw [hok] at habove
            have hlast := addsDirectories_tryDirectory s₁ p
            rw [start_congr habove.current] at hlast
            rw [heq]
            exact habove.trans hlast
          · rw [heq]
            rw [herror] at habove
            exact habove

lemma addsDirectories_makeDirectories (s : FileStore) (p : FilePath) :
    AddsDirectories (along (s.start p) (steps p)) s (s.makeDirectories p).2 :=
  addsDirectories_makeDirectoriesWithin _ s p

lemma exists_tryDirectory (hfree : ∀ place ∈ along (s.start p) (steps p), s.NoFileAt place)
    (hmade : s.makeDirectory p ≠ .error .notFound) :
    ∃ s', s.tryDirectory p = (.ok (), s') ∧
      ∀ place ∈ along (s.start p) (steps p), s'.entry? place = some .directory := by
  rw [tryDirectory]
  cases hresult : s.makeDirectory p with
  | ok made =>
      refine ⟨made, rfl, ?_⟩
      obtain ⟨l, hplace, hnone, rfl⟩ := exists_of_makeDirectory hresult
      have hnot : s.entry? l ≠ some .directory := by simp [hnone]
      have hwalk := (keepsDirectories_insert hnot .directory).walk (walk_of_place hplace).2
      have hentry : FileStore.entry? (s.insert l .directory) l = some .directory := by
        rw [entry?_insert s (ne_nil_of_not_directory hnot), if_pos rfl]
      intro place hmem
      exact (walk_directory_iff.1 ⟨hwalk, hentry⟩).2 place (mem_along_steps.2 hmem)
  | error e =>
      have hother : e ≠ .notFound := fun he => hmade (he ▸ hresult)
      obtain ⟨hlocate, hentry⟩ := makeDirectory_error hfree hresult hother
      refine ⟨s, ?_, ?_⟩
      · simp only [isDirectory, found?, hlocate, hentry, if_true]
      · intro place hmem
        have hwalk := (locate_eq_ok.1 hlocate).2.1
        exact (walk_directory_iff.1 ⟨hwalk, hentry⟩).2 place (mem_along_steps.2 hmem)

lemma makeDirectory_ne_notFound (h : s.place p = .ok l) :
    s.makeDirectory p ≠ .error .notFound := by
  simp only [makeDirectory, h, bind, Except.bind]
  split_ifs
  · simp
  · simp [pure, Except.pure]

/-- A directory can be made once those above it are there. -/
lemma Sound.exists_place (hs : Sound s) {pre last : Text} (hpre : ∀ c ∈ pre.getLast?, c = '/')
    (hne : last ≠ []) (hslash : '/' ∉ last) (hdot : last ≠ ".")
    (hway : ∀ place ∈ along (s.start (pre ++ last)) (steps pre), s.entry? place = some .directory) :
    ∃ l, s.place (pre ++ last) = .ok l := by
  by_cases hdots : last = ".."
  · -- A double dot leads from a directory to the one it is in.
    obtain ⟨pieces, hpieces, hfold, halong⟩ := splitOn_append_last hslash hpre
    obtain ⟨hwalk, hd⟩ := walk_directory_iff.2 ⟨rfl, fun place hplace =>
      hway place ((halong (s.start (pre ++ last)) place).1 hplace)⟩
    have hup := hs.parent _ (by rw [hd, Option.isSome_some])
    refine ⟨(pieces.foldl follow (s.start (pre ++ last))).dropLast, ?_⟩
    rw [place, hpieces]
    simp only [List.getLast?_append, List.getLast?_singleton, Option.some_or, Option.getD_some]
    rw [if_pos (by simp [hdots])]
    refine locate_eq_ok.2 ⟨by simp [hne], ?_, ?_⟩
    · rw [hpieces, walk_append]
      refine ⟨_, hwalk, walk_cons.2 ⟨hd, ?_⟩⟩
      rw [hdots, follow_dots]
      rfl
    · rw [hup, Option.isSome_some]
  · have hends : EndsIn (pre ++ last) pre last := ⟨rfl, ⟨hne, hslash, hdot, hdots⟩, hpre⟩
    exact ⟨_, (place_eq_ok_iff hends).2 ⟨rfl, by rw [hends.wayTo]; exact hway⟩⟩

lemma makeDirectory_ne_notFound_of_parent (hs : Sound s) {parent : FilePath}
    (htrimmed : trimTail p.reverse = p.reverse) (hparent : p.parent? = some parent)
    (hway : ∀ place ∈ along (s.start p) (steps parent), s.entry? place = some .directory) :
    s.makeDirectory p ≠ .error .notFound := by
  rcases trimmed_cases htrimmed with rfl | rfl | rfl | ⟨pre, last, rfl, hpre, hne, hslash, hd⟩
  · cases hparent
  · cases hparent
  · obtain ⟨l, hl⟩ : ∃ l, s.place "." = .ok l := by
      have hplace : s.place "." = s.locate "." := rfl
      refine ⟨s.current, hplace.trans (locate_eq_ok.2 ⟨by simp, ?_, ?_⟩)⟩
      · exact walk_cons.2 ⟨hs.current, rfl⟩
      · rw [hs.current, Option.isSome_some]
    exact makeDirectory_ne_notFound hl
  · rw [parent?_append hne hslash hd hpre] at hparent
    cases hparent
    rw [steps_reverse_trimTail, List.reverse_reverse] at hway
    obtain ⟨l, hl⟩ := hs.exists_place hpre hne hslash hd hway
    exact makeDirectory_ne_notFound hl

/-- A path of directories is made if no file is in the way.  Slashes and dots at the end of the path
would be cut off with a directory, so there are none. -/
lemma exists_makeDirectoriesWithin (hs : Sound s) {levels : Nat} (hlevels : p.length < levels)
    (htrimmed : trimTail p.reverse = p.reverse)
    (hfree : ∀ place ∈ along (s.start p) (steps p), s.NoFileAt place) :
    ∃ s', makeDirectoriesWithin levels s p = (.ok (), s') ∧
      ∀ place ∈ along (s.start p) (steps p), s'.entry? place = some .directory := by
  induction levels generalizing p with
  | zero => omega
  | succ levels ih =>
      rcases eq_or_ne p [] with rfl | hp
      · refine ⟨s, rfl, ?_⟩
        intro place hplace
        obtain rfl := List.mem_singleton.1 hplace
        exact hs.current
      · rcases makeDirectoriesWithin_cases levels s hp with
          ⟨hmade, heq⟩ | ⟨hmade, hparent, heq⟩ | ⟨parent, s₁, hparent, hmade, hrest⟩
        · rw [heq]
          exact exists_tryDirectory hfree hmade
        · rcases trimmed_cases htrimmed with hnil | hroot | hdot |
            ⟨pre, last, happ, hpre, hne, hslash, hd⟩
          · exact absurd hnil hp
          · have hplace : s.place "/" = .ok [] := rfl
            exact absurd hmade (hroot ▸ makeDirectory_ne_notFound hplace)
          · rw [hdot] at hparent
            cases hparent
          · rw [happ, parent?_append hne hslash hd hpre] at hparent
            cases hparent
        · obtain ⟨last, hsteps, hlength, hcut, habsolute, -⟩ := parent?_cases hparent
          have hstart : s.start parent = s.start p := start_of_isAbsolute habsolute
          have hsub := along_subset_append (s.start p) (steps parent) last
          rw [← hsteps] at hsub
          obtain ⟨s₂, hok, hway⟩ := ih (by omega) hcut fun place hplace =>
            hfree place (hsub (hstart ▸ hplace))
          have hadds := addsDirectories_makeDirectoriesWithin levels s parent
          rw [hok] at hadds
          rcases hrest with ⟨hok', heq⟩ | ⟨e, herror, -⟩
          · obtain rfl : s₂ = s₁ := (Prod.mk.inj (hok.symm.trans hok')).2
            rw [heq, ← start_congr hadds.current]
            refine exists_tryDirectory ?_ ?_
            · intro place hplace
              exact hadds.noFileAt (hfree place (start_congr hadds.current p ▸ hplace))
            · exact makeDirectory_ne_notFound_of_parent (hadds.sound hs) htrimmed hparent
                (start_congr hadds.current p ▸ hstart ▸ hway)
          · rw [herror] at hok
            cases hok

/-! ## Writing an artifact -/

variable {pre name : Text}

/-- The way to a file is the way to its parent. -/
lemma EndsIn.along_parent (h : EndsIn p pre name) :
    ∃ parent, p.parent? = some parent ∧ trimTail parent.reverse = parent.reverse ∧
      ∀ s : FileStore, along (s.start parent) (FilePath.steps parent) = s.wayTo p := by
  have hparent : p.parent? = some (trimTail pre.reverse).reverse := by
    rw [h.eq, parent?_append h.name.ne_nil h.name.slash h.name.ne_dot h.pre]
  obtain ⟨-, -, -, hcut, habsolute, -⟩ := parent?_cases hparent
  refine ⟨_, hparent, hcut, fun s => ?_⟩
  rw [start_of_isAbsolute habsolute, h.wayTo, steps_reverse_trimTail, List.reverse_reverse]

lemma EndsIn.parent_mem_wayTo (h : EndsIn p pre name) : (s.leadsTo p).dropLast ∈ s.wayTo p := by
  rw [h.leadsTo, h.wayTo, List.dropLast_concat]
  exact end_mem_along _ _

lemma exists_of_writeArtifact {payload : Text}
    (hwrite : writeArtifact s p payload = (.ok (), s')) :
    ∃ s₁, s.makeDirectories (p.parent?.getD []) = (.ok (), s₁) ∧
      s₁.writeText p payload = .ok s' := by
  rw [writeArtifact] at hwrite
  cases hmade : s.makeDirectories (p.parent?.getD []) with
  | mk result s₁ =>
      cases result with
      | error e =>
          rw [hmade] at hwrite
          cases hwrite
      | ok u =>
          refine ⟨s₁, rfl, ?_⟩
          cases htext : s₁.writeText p payload with
          | error e =>
              simp only [hmade, htext] at hwrite
              cases hwrite
          | ok s₂ =>
              simp only [hmade, htext, Prod.mk.injEq, true_and] at hwrite
              rw [hwrite]

/-- What writing an artifact does. -/
lemma EndsIn.of_writeArtifact (h : EndsIn p pre name) {payload : Text}
    (hwrite : writeArtifact s p payload = (.ok (), s')) :
    ∃ s₁, AddsDirectories (s.wayTo p) s s₁ ∧
      (∀ place ∈ s.wayTo p, s₁.entry? place = some .directory) ∧
      s₁.entry? (s.leadsTo p) ≠ some .directory ∧
      s' = s₁.insert (s.leadsTo p) (.file (.text payload) s.clock) := by
  obtain ⟨parent, hparent, -, halong⟩ := h.along_parent
  obtain ⟨s₁, hmade, htext⟩ := exists_of_writeArtifact hwrite
  have hadds := addsDirectories_makeDirectories s parent
  rw [hparent, Option.getD_some] at hmade
  rw [halong, hmade] at hadds
  obtain ⟨l, hplace, hfree, hinsert⟩ := exists_of_writeAt htext
  obtain ⟨rfl, hway⟩ := (place_eq_ok_iff h).1 hplace
  rw [leadsTo_congr hadds.current, hadds.clock] at hinsert
  rw [leadsTo_congr hadds.current] at hfree
  rw [wayTo_congr hadds.current] at hway
  exact ⟨s₁, hadds, hway, hfree, hinsert⟩

/-- An artifact is written if no file is in the way and no directory has taken its place. -/
lemma EndsIn.exists_writeArtifact (h : EndsIn p pre name) (hs : Sound s)
    (hfree : ∀ place ∈ s.wayTo p, s.NoFileAt place)
    (hend : s.entry? (s.leadsTo p) ≠ some .directory) (hpassed : s.leadsTo p ∉ s.wayTo p)
    (payload : Text) : ∃ s', writeArtifact s p payload = (.ok (), s') := by
  obtain ⟨parent, hparent, hcut, halong⟩ := h.along_parent
  obtain ⟨s₁, hmade, hway⟩ :=
    exists_makeDirectoriesWithin hs (Nat.lt_succ_self _) hcut (halong s ▸ hfree)
  have hadds := addsDirectories_makeDirectories s parent
  rw [makeDirectories, hmade, halong] at hadds
  rw [halong] at hway
  have hplace : s₁.place p = .ok (s.leadsTo p) := by
    rw [place_eq_ok_iff h, leadsTo_congr hadds.current, wayTo_congr hadds.current]
    exact ⟨rfl, hway⟩
  have hstill : s₁.entry? (s.leadsTo p) ≠ some .directory := by
    rcases hadds.entry (s.leadsTo p) with hsame | ⟨hmem, -⟩
    · rw [hsame]
      exact hend
    · exact absurd hmem hpassed
  refine ⟨s₁.insert (s.leadsTo p) (.file (.text payload) s₁.clock), ?_⟩
  simp only [writeArtifact, hparent, Option.getD_some, makeDirectories, hmade, writeText, writeAt,
    hplace, bind, Except.bind, pure, Except.pure]

lemma EndsIn.sound_writeArtifact (h : EndsIn p pre name) (hs : Sound s) {payload : Text}
    (hwrite : writeArtifact s p payload = (.ok (), s')) : Sound s' := by
  obtain ⟨s₁, hadds, hway, hfree, rfl⟩ := h.of_writeArtifact hwrite
  exact (hadds.sound hs).insert (hs.named_leadsTo p) (hway _ h.parent_mem_wayTo) hfree _

/-- What is written does not end in a double dot, which leads to a directory. -/
lemma Sound.ne_dots_of_writeArtifact (hs : Sound s) {last payload : Text}
    (hpre : ∀ c ∈ pre.getLast?, c = '/') (hslash : '/' ∉ last)
    (hwrite : writeArtifact s (pre ++ last) payload = (.ok (), s')) : last ≠ ".." := by
  rintro rfl
  obtain ⟨s₁, hmade, htext⟩ := exists_of_writeArtifact hwrite
  have hs₁ := (addsDirectories_makeDirectories s ((parent? (pre ++ "..")).getD [])).sound hs
  rw [hmade] at hs₁
  obtain ⟨l, hplace, hfree, -⟩ := exists_of_writeAt htext
  obtain ⟨pieces, hpieces, -, -⟩ := splitOn_append_last hslash hpre
  have hwalk := (walk_of_place hplace).2
  rw [hpieces, walk_append] at hwalk
  obtain ⟨d, -, hlast⟩ := hwalk
  obtain ⟨hd, hup⟩ := walk_cons.1 hlast
  rw [follow_dots] at hup
  cases hup
  exact hfree (hs₁.parent d (by rw [hd, Option.isSome_some]))

/-! ## Removing files -/

lemma entry?_foldl_erase (s : FileStore) {found : List Location} (h : [] ∉ found)
    (there : Location) :
    FileStore.entry? (found.foldl FileStore.erase s) there
      = if there ∈ found then none else s.entry? there := by
  induction found generalizing s with
  | nil => simp
  | cons l rest ih =>
      simp only [List.mem_cons, not_or] at h
      rw [List.foldl_cons, ih _ h.2, entry?_erase s (Ne.symm h.1)]
      by_cases hl : there = l
      · simp [hl]
      · simp [hl]

lemma Sound.foldl_erase (hs : Sound s) {found : List Location}
    (h : ∀ l ∈ found, s.entry? l ≠ some .directory) : Sound (found.foldl FileStore.erase s) := by
  induction found generalizing s with
  | nil => exact hs
  | cons l rest ih =>
      have hl := h l List.mem_cons_self
      refine ih (hs.erase hl) fun other hother => ?_
      rw [entry?_erase s (ne_nil_of_not_directory hl)]
      split_ifs
      · simp
      · exact h other (List.mem_cons_of_mem _ hother)

/-- In which order files are removed makes no difference. -/
lemma foldl_erase_eq (s : FileStore) (found : List Location) :
    found.foldl FileStore.erase s
      = { s with entries := s.entries.filter fun entry => decide (entry.1 ∉ found) } := by
  induction found generalizing s with
  | nil => simp
  | cons l rest ih =>
      have hkept : ∀ entry : Location × FileEntry,
          (decide (entry.1 ∉ rest) && entry.1 != l) = decide (entry.1 ∉ l :: rest) := by
        intro entry
        rw [Bool.eq_iff_iff]
        simp [and_comm]
      rw [List.foldl_cons, ih, FileStore.erase]
      simp only [List.filter_filter, hkept]

lemma keepsDirectories_erase (h : s.entry? l ≠ some .directory) :
    KeepsDirectories s (s.erase l) where
  current := rfl
  directory there hthere := by
    rw [entry?_erase s (ne_nil_of_not_directory h), if_neg, hthere]
    rintro rfl
    exact h hthere

lemma keepsDirectories_foldl_erase {found : List Location}
    (h : ∀ l ∈ found, s.entry? l ≠ some .directory) :
    KeepsDirectories s (found.foldl FileStore.erase s) where
  current := by rw [foldl_erase_eq]
  directory l hl := by
    rw [entry?_foldl_erase s (fun hnil => h [] hnil rfl), if_neg (fun hmem => h l hmem hl), hl]

/-! ## Canonical paths -/

/-- Whatever was there is still there, and directories are still directories. -/
structure Extends (s s' : FileStore) : Prop extends KeepsDirectories s s' where
  there : ∀ l, (s.entry? l).isSome = true → (s'.entry? l).isSome = true

lemma Extends.refl (s : FileStore) : Extends s s := ⟨⟨rfl, fun _ h => h⟩, fun _ h => h⟩

lemma Extends.trans (h : Extends s s') (h' : Extends s' s'') : Extends s s'' where
  current := h'.current.trans h.current
  directory l hl := h'.directory l (h.directory l hl)
  there l hl := h'.there l (h.there l hl)

lemma AddsDirectories.extends {places : List Location} (h : AddsDirectories places s s') :
    Extends s s' where
  current := h.current
  directory _ hl := h.keeps hl
  there l hl := by
    obtain ⟨e, he⟩ := Option.isSome_iff_exists.1 hl
    rw [h.keeps he, Option.isSome_some]

lemma extends_insert (hl : s.entry? l ≠ some .directory) (e : FileEntry) :
    Extends s (s.insert l e) where
  toKeepsDirectories := keepsDirectories_insert hl e
  there there hthere := by
    rw [entry?_insert s (ne_nil_of_not_directory hl)]
    split_ifs
    · rfl
    · exact hthere

lemma Extends.locate (h : Extends s s') (hl : s.locate p = .ok l) : s'.locate p = .ok l := by
  obtain ⟨hp, hwalk, hthere⟩ := locate_eq_ok.1 hl
  rw [← start_congr h.current] at hwalk
  exact locate_eq_ok.2 ⟨hp, h.toKeepsDirectories.walk hwalk, h.there l hthere⟩

/-- The path leads to something, or it would if the names at its end did. -/
inductive Anchored (s : FileStore) : FilePath → Prop
  | there {p : FilePath} {l : Location} (h : s.locate p = .ok l) : Anchored s p
  | named {p parent : FilePath} {name : Text} (hparent : p.parent? = some parent)
      (hname : p.fileName? = some name) (hfull : parent ≠ []) (h : Anchored s parent) :
      Anchored s p

lemma Anchored.mono (h : Anchored s p) (hextends : Extends s s') : Anchored s' p := by
  induction h with
  | there h => exact .there (hextends.locate h)
  | named hparent hname hfull _ ih => exact .named hparent hname hfull ih

lemma Anchored.canonicalWithin (h : Anchored s p) (hs : Sound s) {steps : Nat}
    (hsteps : p.length < steps) : s.canonicalWithin steps p = (s.leadsTo p).path := by
  induction h generalizing steps with
  | @there p l h =>
      obtain ⟨steps, rfl⟩ := Nat.exists_eq_add_one_of_ne_zero (Nat.ne_zero_of_lt hsteps)
      rw [FileStore.canonicalWithin, canonical?, h, eq_leadsTo_of_locate h]
  | @named p parent name hparent hname hfull _ ih =>
      obtain ⟨steps, rfl⟩ := Nat.exists_eq_add_one_of_ne_zero (Nat.ne_zero_of_lt hsteps)
      obtain ⟨last, hlast, hlength, -, habsolute, hfile⟩ := parent?_cases hparent
      obtain ⟨hisName, rfl⟩ := hfile name hname
      have hleads : s.leadsTo p = s.leadsTo parent ++ [name] := by
        rw [leadsTo, leadsTo, hlast, List.foldl_append, start_of_isAbsolute habsolute]
        exact follow_of_isName hisName _
      cases hlocate : s.locate p with
      | ok l =>
          rw [FileStore.canonicalWithin, canonical?, hlocate, eq_leadsTo_of_locate hlocate]
      | error e =>
          have hopen : parent.isEmpty = false := by simpa using hfull
          simp only [FileStore.canonicalWithin, canonical?, hlocate, hparent, hname, hopen,
            Bool.false_eq_true, if_false]
          rw [ih (by omega), join_eq _ (isAbsolute_eq_false hisName.slash), hleads,
            path_append (hs.named_leadsTo parent)]

lemma Anchored.canonical (h : Anchored s p) (hs : Sound s) : s.canonical p = (s.leadsTo p).path :=
  h.canonicalWithin hs (Nat.lt_succ_self _)

end FileStore

end Offside
