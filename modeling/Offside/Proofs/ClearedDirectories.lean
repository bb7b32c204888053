import Mathlib
import Offside.Proofs.ArtifactPaths

/-!
# Going through directories

Clearing goes through directories one by one, and keeps a list of those that are still to come.
What it removes in the end can be said without this: the files below the directory of the cache that
have the extension of artifacts (`stored`, `clear_eq_stored`).

**One directory.**  What is in a directory is found under its name (`Reaches.locate_join`), so every
entry is a directory that has to wait, a file that is removed, or left alone.  Nothing that happens
to one entry changes another (`foldlM_clearEntry`).

**All directories.**  Removing files takes no directory away, so paths that were put on the list
still lead where they led (`Reaches.mono`).  Everything below a directory is an entry of it or below
one of its directories, which is what `exists_clearPending` follows.

**The end.**  When a directory is taken off the list and the directories in it are put on, there
are fewer directories below those on the list (`sum_directoriesFrom_listed`).  So the number of
entries is enough steps, and clearing never fails.
-/

namespace Offside

namespace FileStore

open FilePath Location

variable {s s' : FileStore} {p : FilePath} {d l : Location} {name : Text}

/-! ## Entries of a directory -/

/-- What something is in is a directory. -/
lemma Sound.directory_of_append (hs : Sound s) {below : Location} (hbelow : below ≠ [])
    (hthere : (s.entry? (d ++ below)).isSome = true) : s.entry? d = some .directory := by
  induction below using List.reverseRecOn with
  | nil => exact absurd rfl hbelow
  | append_singleton front last ih =>
      have hparent := hs.parent _ hthere
      rw [← List.append_assoc, List.dropLast_concat] at hparent
      rcases eq_or_ne front [] with rfl | hfront
      · rwa [List.append_nil] at hparent
      · exact ih hfront (by rw [hparent, Option.isSome_some])

lemma mem_namesIn_iff : name ∈ s.namesIn d ↔ ∃ e, (d ++ [name], e) ∈ s.entries := by
  simp only [namesIn, List.mem_filterMap, Prod.exists, Option.ite_none_right_eq_some, beq_iff_eq]
  constructor
  · rintro ⟨there, e, hmem, rfl, hlast⟩
    rw [List.dropLast_append_getLast? name hlast]
    exact ⟨e, hmem⟩
  · rintro ⟨e, hmem⟩
    exact ⟨_, e, hmem, List.dropLast_concat, List.getLast?_concat⟩

lemma Sound.mem_namesIn (hs : Sound s) :
    name ∈ s.namesIn d ↔ (s.entry? (d ++ [name])).isSome = true := by
  simp [mem_namesIn_iff, hs.mem_entries_iff, Option.isSome_iff_exists]

lemma Sound.nodup_namesIn (hs : Sound s) (d : Location) : (s.namesIn d).Nodup := by
  have hsub : List.Sublist ((s.namesIn d).map fun name => d ++ [name])
      (s.entries.map Prod.fst) := by
    rw [namesIn]
    induction s.entries with
    | nil => exact List.Sublist.refl _
    | cons entry rest ih =>
        obtain ⟨there, e⟩ := entry
        rw [List.filterMap_cons, List.map_cons]
        split
        · exact ih.cons _
        · next last hlast =>
            obtain ⟨hd, hlast⟩ := Option.ite_none_right_eq_some.1 hlast
            rw [List.map_cons, ← beq_iff_eq.1 hd, List.dropLast_append_getLast? last hlast]
            exact (beq_iff_eq.1 hd ▸ ih).cons_cons _
  exact (hs.nodup.sublist hsub).of_map _

/-- The path leads to a directory other than the root. -/
structure Reaches (s : FileStore) (p : FilePath) (d : Location) : Prop where
  located : s.locate p = .ok d
  directory : s.entry? d = some .directory
  below : d ≠ []

lemma Reaches.mono (h : Reaches s p d) (hkeeps : KeepsDirectories s s') : Reaches s' p d := by
  obtain ⟨hp, hwalk, -⟩ := locate_eq_ok.1 h.located
  have hdirectory := hkeeps.directory d h.directory
  rw [← start_congr hkeeps.current] at hwalk
  refine ⟨locate_eq_ok.2 ⟨hp, hkeeps.walk hwalk, ?_⟩, hdirectory, h.below⟩
  rw [hdirectory, Option.isSome_some]

/-- What is in a directory is found under its name. -/
lemma Reaches.locate_join (h : Reaches s p d) (hname : IsName name)
    (hthere : (s.entry? (d ++ [name])).isSome = true) :
    s.locate (join p name) = .ok (d ++ [name]) := by
  have hends := endsIn_join p hname
  have hplace : s.leadsTo (join p name) = d ++ [name] := by
    rw [leadsTo_join p hname, ← eq_leadsTo_of_locate h.located]
  rw [← hplace] at hthere ⊢
  refine locate_of_entry hends ?_ hthere
  rw [hends.wayTo, start_join p hname, steps_opened]
  intro place hmem
  exact (walk_directory_iff.1 ⟨(locate_eq_ok.1 h.located).2.1, h.directory⟩).2 place
    (mem_along_steps.2 hmem)

lemma Reaches.join (h : Reaches s p d) (hname : IsName name)
    (hdirectory : s.entry? (d ++ [name]) = some .directory) :
    Reaches s (FilePath.join p name) (d ++ [name]) :=
  ⟨h.locate_join hname (by rw [hdirectory, Option.isSome_some]), hdirectory, by simp⟩

lemma extension?_join (p : FilePath) (hname : IsName name) (hnamed : Named (d ++ [name])) :
    extension? (join p name) = extension? (path (d ++ [name])) := by
  have hends := endsIn_join p hname
  rw [extension?, extension?, fileName?_path hnamed, hends.eq, fileName?_append hname hends.pre]

/-! ## How many directories there are -/

/-- How many directories there are from a place on. -/
def directoriesFrom (s : FileStore) (d : Location) : Nat :=
  s.entries.countP fun entry => d.isPrefixOf entry.1 && entry.2 == .directory

lemma append_singleton_prefix_iff {rest : Location} :
    d ++ [name] <+: d ++ rest ↔ rest.head? = some name := by
  rw [List.prefix_append_right_inj]
  cases rest with
  | nil => simp
  | cons first rest => simp [List.cons_prefix_cons, eq_comm]

/-- A place is below at most one of the entries of a directory. -/
lemma countP_below_le {names : List Text} (hnodup : names.Nodup) (d l : Location) :
    names.countP (fun name => (d ++ [name]).isPrefixOf l) + (if l = d then 1 else 0)
      ≤ if d.isPrefixOf l then 1 else 0 := by
  by_cases hprefix : d <+: l
  · rw [if_pos (List.isPrefixOf_iff_prefix.2 hprefix)]
    obtain ⟨rest, rfl⟩ := hprefix
    have hbelow : ∀ name ∈ names, (d ++ [name]).isPrefixOf (d ++ rest) = true
        ↔ (some name == rest.head?) = true := fun name _ => by
      rw [List.isPrefixOf_iff_prefix, append_singleton_prefix_iff, beq_iff_eq, eq_comm]
    rw [List.countP_congr hbelow]
    cases rest with
    | nil => simp
    | cons first rest =>
        have hcount : names.countP (fun name => some name == (first :: rest).head?)
            = names.count first := by
          simp [List.count_eq_countP]
        rw [hcount, if_neg (by simp)]
        exact List.nodup_iff_count_le_one.1 hnodup first
  · have hnone : names.countP (fun name => (d ++ [name]).isPrefixOf l) = 0 := by
      refine List.countP_eq_zero.2 fun name _ hmore => hprefix ?_
      exact (List.prefix_append d [name]).trans (List.isPrefixOf_iff_prefix.1 hmore)
    have hother : l ≠ d := by
      rintro rfl
      exact hprefix (List.prefix_refl l)
    rw [hnone, if_neg hother]
    exact Nat.zero_le _

/-- Counting below each of some names, entry by entry. -/
lemma sum_countP_cons {names : List Text} (below : Text → Location × FileEntry → Bool)
    (entry : Location × FileEntry) (entries : List (Location × FileEntry)) :
    (names.map fun name => (entry :: entries).countP (below name)).sum
      = (names.map fun name => entries.countP (below name)).sum
        + names.countP fun name => below name entry := by
  induction names with
  | nil => rfl
  | cons name names ih =>
      rw [List.map_cons, List.sum_cons, ih, List.map_cons, List.sum_cons, List.countP_cons,
        List.countP_cons]
      omega

/-- From a directory on there is the directory itself, and those from its entries on. -/
lemma Sound.sum_directoriesFrom_lt (hs : Sound s) {names : List Text} (hnodup : names.Nodup)
    (hne : d ≠ []) (hd : s.entry? d = some .directory) :
    (names.map fun name => s.directoriesFrom (d ++ [name])).sum < s.directoriesFrom d := by
  have hcount : ∀ entries : List (Location × FileEntry),
      (names.map fun name => entries.countP fun entry =>
          (d ++ [name]).isPrefixOf entry.1 && entry.2 == .directory).sum
        + entries.countP (fun entry => entry.1 == d && entry.2 == .directory)
        ≤ entries.countP fun entry => d.isPrefixOf entry.1 && entry.2 == .directory := by
    intro entries
    induction entries with
    | nil => simp
    | cons entry entries ih =>
        have hentry := countP_below_le hnodup d entry.1
        rw [sum_countP_cons, List.countP_cons, List.countP_cons]
        cases hkind : entry.2 == .directory with
        | false =>
            simp only [Bool.and_false, List.countP_false]
            simpa using ih
        | true =>
            simp only [Bool.and_true, beq_iff_eq]
            omega
  have hself : 0 < s.entries.countP fun entry => entry.1 == d && entry.2 == .directory :=
    List.countP_pos_iff.2 ⟨(d, .directory), hs.mem_entries_iff.2 ⟨hne, hd⟩, by simp⟩
  have hall := hcount s.entries
  simp only [directoriesFrom]
  omega

/-- Removing files takes no directory away. -/
lemma Sound.directoriesFrom_foldl_erase (hs : Sound s) {found : List Location}
    (h : ∀ l ∈ found, s.entry? l ≠ some .directory) (d : Location) :
    directoriesFrom (found.foldl FileStore.erase s) d = s.directoriesFrom d := by
  rw [foldl_erase_eq, directoriesFrom, directoriesFrom, List.countP_filter]
  refine List.countP_congr fun entry hentry => ?_
  simp only [Bool.and_eq_true, decide_eq_true_eq, beq_iff_eq, and_iff_left_iff_imp, and_imp]
  intro _ hkind hmem
  obtain ⟨there, e⟩ := entry
  obtain rfl : e = .directory := hkind
  exact h there hmem (hs.mem_entries_iff.1 hentry).2

end FileStore

namespace TimeCache

open FilePath Location FileStore

variable {c : TimeCache} {s t : FileStore} {p : FilePath} {d l : Location} {name : Text}
  {removed : Nat} {pending : List FilePath}

/-! ## What is removed -/

/-- Whether there is a file with the extension of artifacts at a place. -/
def isArtifact (c : TimeCache) (s : FileStore) (l : Location) : Bool :=
  match s.entry? l with
  | some (.file ..) => FilePath.extension? l.path == some c.extension
  | _ => false

lemma isArtifact_iff : c.isArtifact s l = true ↔
    (∃ contents time, s.entry? l = some (.file contents time)) ∧
      extension? l.path = some c.extension := by
  rw [isArtifact]
  split
  · next contents time hfile => simp [hfile]
  · next hother =>
      simp only [Bool.false_eq_true, false_iff, not_and]
      rintro ⟨contents, time, hfile⟩
      exact absurd hfile (hother contents time)

lemma isArtifact_congr (h : s.entry? l = t.entry? l) : c.isArtifact s l = c.isArtifact t l := by
  rw [isArtifact, isArtifact, h]

lemma not_directory_of_isArtifact (h : c.isArtifact s l = true) :
    s.entry? l ≠ some .directory := by
  obtain ⟨⟨contents, time, hfile⟩, -⟩ := isArtifact_iff.1 h
  simp [hfile]

/-- Artifacts that were removed are no artifacts any more, and the others still are. -/
lemma isArtifact_foldl_erase {found : List Location}
    (hfound : ∀ l ∈ found, c.isArtifact s l = true) :
    c.isArtifact (found.foldl FileStore.erase s) l = true ↔
      c.isArtifact s l = true ∧ l ∉ found := by
  have hentry := entry?_foldl_erase s
    (fun hnil => not_directory_of_isArtifact (hfound [] hnil) rfl) l
  by_cases hl : l ∈ found
  · rw [if_pos hl] at hentry
    simp [isArtifact, hentry, hl]
  · rw [if_neg hl] at hentry
    simp [isArtifact_congr hentry, hl]

/-- The files that clearing is to remove: those below the directory of the cache that have the
extension of artifacts. -/
def stored (c : TimeCache) (s : FileStore) : List Location :=
  if s.isDirectory (c.artifactDirectory s) then
    s.files.filter fun l =>
      (s.leadsTo (c.artifactDirectory s)).isPrefixOf l &&
        FilePath.extension? l.path == some c.extension
  else []

lemma mem_stored (hs : s.Sound) :
    l ∈ c.stored s ↔ s.isDirectory (c.artifactDirectory s) = true ∧
      s.leadsTo (c.artifactDirectory s) <+: l ∧ c.isArtifact s l = true := by
  rw [stored, isArtifact_iff]
  split_ifs with hdirectory
  · simp only [List.mem_filter, hs.mem_files_iff, Bool.and_eq_true, List.isPrefixOf_iff_prefix,
      beq_iff_eq, hdirectory, true_and]
    exact and_left_comm
  · simp [hdirectory]

lemma nodup_stored (hs : s.Sound) : (c.stored s).Nodup := by
  rw [stored]
  split_ifs
  · exact hs.nodup_files.filter _
  · exact List.nodup_nil

/-! ## One directory -/

lemma clearEntry_directory (hreaches : Reaches s p d) (hname : IsName name)
    (hentry : s.entry? (d ++ [name]) = some .directory) :
    c.clearEntry p ⟨removed, pending, s⟩ name = .ok ⟨removed, join p name :: pending, s⟩ := by
  have hlocate := hreaches.locate_join hname (by rw [hentry, Option.isSome_some])
  simp [clearEntry, isDirectory, found?, hlocate, hentry]

lemma clearEntry_artifact (hreaches : Reaches s p d) (hnamed : Named (d ++ [name]))
    (h : c.isArtifact s (d ++ [name]) = true) :
    c.clearEntry p ⟨removed, pending, s⟩ name
      = .ok ⟨removed + 1, pending, s.erase (d ++ [name])⟩ := by
  obtain ⟨⟨contents, time, hfile⟩, hextension⟩ := isArtifact_iff.1 h
  have hname := (named_append.1 hnamed).2
  have hlocate := hreaches.locate_join hname (by rw [hfile, Option.isSome_some])
  rw [← extension?_join p hname hnamed] at hextension
  simp [clearEntry, isDirectory, found?, remove, hlocate, hfile, hextension, bind, Except.bind,
    pure, Except.pure]

lemma clearEntry_other (hreaches : Reaches s p d) (hnamed : Named (d ++ [name]))
    (hthere : (s.entry? (d ++ [name])).isSome = true)
    (hdirectory : s.entry? (d ++ [name]) ≠ some .directory)
    (h : ¬c.isArtifact s (d ++ [name]) = true) :
    c.clearEntry p ⟨removed, pending, s⟩ name = .ok ⟨removed, pending, s⟩ := by
  have hname := (named_append.1 hnamed).2
  have hlocate := hreaches.locate_join hname hthere
  obtain ⟨e, hentry⟩ := Option.isSome_iff_exists.1 hthere
  cases e with
  | directory => exact absurd hentry hdirectory
  | file contents time =>
      rw [isArtifact_iff, ← extension?_join p hname hnamed] at h
      have hextension : extension? (join p name) ≠ some c.extension := fun hsame =>
        h ⟨⟨contents, time, hentry⟩, hsame⟩
      simp [clearEntry, isDirectory, found?, hlocate, hentry, hextension]

/-- The places in a directory that hold artifacts. -/
def artifactsAmong (c : TimeCache) (s : FileStore) (d : Location) (names : List Text) :
    List Location :=
  (names.map fun name => d ++ [name]).filter (c.isArtifact s)

/-- The names in a directory that stand for directories, the last one first. -/
def directoriesAmong (s : FileStore) (d : Location) (names : List Text) : List Text :=
  (names.filter fun name => s.entry? (d ++ [name]) == some .directory).reverse

lemma mem_artifactsAmong {names : List Text} : l ∈ c.artifactsAmong s d names ↔
    (∃ name ∈ names, d ++ [name] = l) ∧ c.isArtifact s l = true := by
  rw [artifactsAmong, List.mem_filter, List.mem_map]

lemma mem_directoriesAmong {names : List Text} : name ∈ directoriesAmong s d names ↔
    name ∈ names ∧ s.entry? (d ++ [name]) = some .directory := by
  rw [directoriesAmong, List.mem_reverse, List.mem_filter, beq_iff_eq]

/-- Nothing else is looked at than what is in the directory under the names. -/
lemma among_congr {names : List Text}
    (h : ∀ name ∈ names, s.entry? (d ++ [name]) = t.entry? (d ++ [name])) :
    c.artifactsAmong s d names = c.artifactsAmong t d names ∧
      directoriesAmong s d names = directoriesAmong t d names := by
  constructor
  · refine List.filter_congr fun l hl => isArtifact_congr ?_
    obtain ⟨name, hname, rfl⟩ := List.mem_map.1 hl
    exact h name hname
  · refine congrArg List.reverse (List.filter_congr fun name hname => ?_)
    rw [h name hname]

/-- Going through entries of a directory puts the directories among them on the list, and removes
the artifacts among them. -/
lemma foldlM_clearEntry (hs : s.Sound) (hreaches : Reaches s p d) {names : List Text}
    (hnodup : names.Nodup) (hthere : ∀ name ∈ names, (s.entry? (d ++ [name])).isSome = true) :
    names.foldlM (c.clearEntry p) ⟨removed, pending, s⟩
      = .ok ⟨removed + (c.artifactsAmong s d names).length,
          (directoriesAmong s d names).map (join p) ++ pending,
          (c.artifactsAmong s d names).foldl FileStore.erase s⟩ := by
  induction names generalizing s removed pending with
  | nil => rfl
  | cons name names ih =>
      obtain ⟨hnew, hnodup⟩ := List.nodup_cons.1 hnodup
      obtain ⟨hfirst, hrest⟩ := List.forall_mem_cons.1 hthere
      have hnamed := hs.named _ hfirst
      have hname := (named_append.1 hnamed).2
      rw [List.foldlM_cons, artifactsAmong, directoriesAmong, List.map_cons, List.filter_cons,
        List.filter_cons]
      by_cases hdirectory : s.entry? (d ++ [name]) = some .directory
      · have hartifact : ¬c.isArtifact s (d ++ [name]) = true := fun h =>
          not_directory_of_isArtifact h hdirectory
        rw [clearEntry_directory hreaches hname hdirectory, if_neg hartifact,
          if_pos (beq_iff_eq.2 hdirectory), List.reverse_cons, List.map_append, List.append_assoc]
        exact ih hs hreaches hnodup hrest
      · rw [if_neg (fun h => hdirectory (beq_iff_eq.1 h))]
        by_cases hartifact : c.isArtifact s (d ++ [name]) = true
        · -- The entries that are still to come are the same without the artifact.
          have hsame : ∀ other ∈ names, FileStore.entry? (s.erase (d ++ [name])) (d ++ [other])
              = s.entry? (d ++ [other]) := by
            intro other hother
            rw [entry?_erase s (ne_nil_of_not_directory hdirectory), if_neg]
            intro heq
            obtain rfl : other = name := by simpa using heq
            exact hnew hother
          obtain ⟨hfound, hlisted⟩ := among_congr (c := c) hsame
          have hreaches' : Reaches (s.erase (d ++ [name])) p d :=
            hreaches.mono (keepsDirectories_erase hdirectory)
          have hrun := @ih (s.erase (d ++ [name])) (removed + 1) pending (hs.erase hdirectory)
            hreaches' hnodup fun other hother => by
              rw [hsame other hother]
              exact hrest other hother
          rw [hfound, hlisted, Nat.add_right_comm] at hrun
          rw [clearEntry_artifact hreaches hnamed hartifact, if_pos hartifact]
          exact hrun
        · rw [clearEntry_other hreaches hnamed hfirst hdirectory hartifact, if_neg hartifact]
          exact ih hs hreaches hnodup hrest

lemma clearDirectory_eq (hs : s.Sound) (hreaches : Reaches s p d) :
    c.clearDirectory p ⟨removed, pending, s⟩
      = .ok ⟨removed + (c.artifactsAmong s d (s.namesIn d)).length,
          (directoriesAmong s d (s.namesIn d)).map (join p) ++ pending,
          (c.artifactsAmong s d (s.namesIn d)).foldl FileStore.erase s⟩ := by
  have hread : s.readDirectory p = .ok (s.namesIn d) := by
    simp [readDirectory, hreaches.located, enter_eq_ok.2 hreaches.directory, bind, Except.bind,
      pure, Except.pure]
  rw [clearDirectory, hread]
  exact foldlM_clearEntry hs hreaches (hs.nodup_namesIn d) fun name hname => hs.mem_namesIn.1 hname

/-! ## All directories -/

/-- An artifact below a directory is an entry of it, or below one of its directories. -/
lemma isArtifact_below_iff (hs : s.Sound) (hd : s.entry? d = some .directory) :
    (c.isArtifact s l = true ∧ d <+: l) ↔ l ∈ c.artifactsAmong s d (s.namesIn d) ∨
      c.isArtifact s l = true ∧ ∃ name ∈ directoriesAmong s d (s.namesIn d), d ++ [name] <+: l := by
  constructor
  · rintro ⟨hl, below, rfl⟩
    have hthere : (s.entry? (d ++ below)).isSome = true := by
      obtain ⟨⟨contents, time, hfile⟩, -⟩ := isArtifact_iff.1 hl
      rw [hfile, Option.isSome_some]
    cases below with
    | nil =>
        rw [List.append_nil] at hl
        exact absurd hd (not_directory_of_isArtifact hl)
    | cons name rest =>
        rw [List.append_cons] at hl hthere ⊢
        rcases eq_or_ne rest [] with rfl | hrest
        · rw [List.append_nil] at hl hthere ⊢
          exact .inl (mem_artifactsAmong.2 ⟨⟨name, hs.mem_namesIn.2 hthere, rfl⟩, hl⟩)
        · have hdirectory := hs.directory_of_append hrest hthere
          have hname : name ∈ s.namesIn d :=
            hs.mem_namesIn.2 (by rw [hdirectory, Option.isSome_some])
          exact .inr ⟨hl, name, mem_directoriesAmong.2 ⟨hname, hdirectory⟩,
            List.prefix_append _ rest⟩
  · rintro (hl | ⟨hl, name, -, hprefix⟩)
    · obtain ⟨⟨name, -, rfl⟩, hl⟩ := mem_artifactsAmong.1 hl
      exact ⟨hl, List.prefix_append d [name]⟩
    · exact ⟨hl, (List.prefix_append d [name]).trans hprefix⟩

/-- What is left to be removed when a directory has been gone through is below the directories that
are now on the list. -/
lemma isArtifact_below_cons_iff (hs : s.Sound) (hd : s.entry? d = some .directory)
    (places : List Location) :
    (l ∈ c.artifactsAmong s d (s.namesIn d) ∨
      (c.isArtifact s l = true ∧ l ∉ c.artifactsAmong s d (s.namesIn d)) ∧
        ∃ place ∈ (directoriesAmong s d (s.namesIn d)).map (fun name => d ++ [name]) ++ places,
          place <+: l) ↔
      c.isArtifact s l = true ∧ ∃ place ∈ d :: places, place <+: l := by
  have hbelow := isArtifact_below_iff (c := c) (l := l) hs hd
  simp only [List.mem_append, List.mem_map, List.exists_mem_cons_iff, or_and_right, exists_or,
    exists_exists_and_eq_and]
  by_cases hl : l ∈ c.artifactsAmong s d (s.namesIn d)
  · obtain ⟨hartifact, hprefix⟩ := hbelow.2 (.inl hl)
    simp [hl, hartifact, hprefix]
  · simp only [hl, false_or, not_false_eq_true, and_true] at hbelow ⊢
    rw [and_or_left, and_or_left, hbelow]

lemma forall₂_reaches_join (hs : s.Sound) (hreaches : Reaches s p d)
    (hkeeps : KeepsDirectories s t) (names : List Text) :
    List.Forall₂ (Reaches t) ((directoriesAmong s d names).map (join p))
      ((directoriesAmong s d names).map fun name => d ++ [name]) := by
  rw [List.forall₂_map_left_iff, List.forall₂_map_right_iff, List.forall₂_same]
  intro name hname
  have hdirectory := (mem_directoriesAmong.1 hname).2
  have hnamed := hs.named (d ++ [name]) (by rw [hdirectory, Option.isSome_some])
  exact (hreaches.join (named_append.1 hnamed).2 hdirectory).mono hkeeps

/-- With the directories that are in it in its place, there are fewer below those on the list. -/
lemma sum_directoriesFrom_listed (hs : s.Sound) (hreaches : Reaches s p d)
    (places : List Location) :
    (((directoriesAmong s d (s.namesIn d)).map (fun name => d ++ [name]) ++ places).map
        s.directoriesFrom).sum < ((d :: places).map s.directoriesFrom).sum := by
  have hnodup : (directoriesAmong s d (s.namesIn d)).Nodup :=
    List.nodup_reverse.2 ((hs.nodup_namesIn d).filter _)
  have hless := hs.sum_directoriesFrom_lt hnodup hreaches.below hreaches.directory
  rw [List.map_append, List.sum_append, List.map_map, List.map_cons, List.sum_cons]
  exact Nat.add_lt_add_right hless _

/-- Clearing with enough steps removes the artifacts below the directories on the list. -/
lemma exists_clearPending (count : Nat) (hs : s.Sound) {places : List Location}
    (hreaches : List.Forall₂ (Reaches s) pending places)
    (hcount : (places.map s.directoriesFrom).sum ≤ count) :
    ∃ found : List Location, c.clearPending count ⟨removed, pending, s⟩
        = .ok ⟨removed + found.length, [], found.foldl FileStore.erase s⟩ ∧
      found.Nodup ∧
      ∀ l, l ∈ found ↔ c.isArtifact s l = true ∧ ∃ d ∈ places, d <+: l := by
  induction count generalizing s removed pending places with
  | zero =>
      cases hreaches with
      | nil => exact ⟨[], rfl, List.nodup_nil, by simp⟩
      | @cons p d pending places hp _ =>
          have hpos := hs.sum_directoriesFrom_lt List.nodup_nil hp.below hp.directory
          rw [List.map_cons, List.sum_cons] at hcount
          simp only [List.map_nil, List.sum_nil] at hpos
          omega
  | succ count ih =>
      cases hreaches with
      | nil => exact ⟨[], rfl, List.nodup_nil, by simp⟩
      | @cons p d pending places hp hrest =>
          let here := c.artifactsAmong s d (s.namesIn d)
          let listed := directoriesAmong s d (s.namesIn d)
          let s₁ := here.foldl FileStore.erase s
          have hartifact : ∀ l ∈ here, c.isArtifact s l = true := fun l hl =>
            (mem_artifactsAmong.1 hl).2
          have hfiles : ∀ l ∈ here, s.entry? l ≠ some .directory := fun l hl =>
            not_directory_of_isArtifact (hartifact l hl)
          have hkeeps : KeepsDirectories s s₁ := keepsDirectories_foldl_erase hfiles
          have hreaches₁ : List.Forall₂ (Reaches s₁) (listed.map (join p) ++ pending)
              (listed.map (fun name => d ++ [name]) ++ places) :=
            List.rel_append (forall₂_reaches_join hs hp hkeeps _)
              (hrest.imp fun _ _ h => h.mono hkeeps)
          have hcount₁ : ((listed.map (fun name => d ++ [name]) ++ places).map
              s₁.directoriesFrom).sum ≤ count := by
            have hsame : s₁.directoriesFrom = s.directoriesFrom :=
              funext (hs.directoriesFrom_foldl_erase hfiles)
            rw [hsame]
            exact Nat.lt_succ_iff.1 ((sum_directoriesFrom_listed hs hp places).trans_le hcount)
          obtain ⟨found, hrun, hfound, hmem⟩ :=
            @ih s₁ (removed + here.length) _ (hs.foldl_erase hfiles) _ hreaches₁ hcount₁
          refine ⟨here ++ found, ?_, ?_, fun l => ?_⟩
          · rw [clearPending]
            simp only [clearDirectory_eq hs hp, bind, Except.bind]
            rw [List.length_append, ← Nat.add_assoc, List.foldl_append]
            exact hrun
          · refine List.nodup_append.2 ⟨?_, hfound, ?_⟩
            · exact ((hs.nodup_namesIn d).map fun a b h => by simpa using h).filter _
            · rintro l hl _ hl' rfl
              exact ((isArtifact_foldl_erase hartifact).1 ((hmem l).1 hl').1).2 hl
          · rw [List.mem_append, hmem, isArtifact_foldl_erase hartifact]
            exact isArtifact_below_cons_iff hs hp.directory places

lemma reaches_artifactDirectory (h : s.isDirectory (c.artifactDirectory s) = true) :
    Reaches s (c.artifactDirectory s) (s.leadsTo (c.artifactDirectory s)) := by
  rw [isDirectory, found?] at h
  cases hlocate : s.locate (c.artifactDirectory s) with
  | error e => simp [hlocate] at h
  | ok d =>
      simp only [hlocate] at h
      rw [← eq_leadsTo_of_locate hlocate]
      refine ⟨hlocate, ?_, ?_⟩
      · split at h
        · assumption
        · cases h
      · rw [eq_leadsTo_of_locate hlocate, artifactDirectory, leadsTo_join _ (isName_tag _)]
        simp

/-- **Clearing removes what it is to remove.**  It never fails in a sound store, and goes through
the directories to remove exactly the files with the extension of artifacts below that of the cache,
whichever order they are found in. -/
lemma clear_eq_stored (hs : s.Sound) :
    c.clear s = (.ok (c.stored s).length, (c.stored s).foldl FileStore.erase s) := by
  by_cases hdirectory : s.isDirectory (c.artifactDirectory s) = true
  · have hreaches := reaches_artifactDirectory hdirectory
    have hcount : ([s.leadsTo (c.artifactDirectory s)].map s.directoriesFrom).sum
        ≤ s.entries.length := by
      rw [List.map_singleton, List.sum_singleton]
      exact List.countP_le_length
    obtain ⟨found, hrun, hfound, hmem⟩ :=
      @exists_clearPending c s 0 _ s.entries.length hs _ (.cons hreaches .nil) hcount
    have hperm : found.Perm (c.stored s) := by
      refine (List.perm_ext_iff_of_nodup hfound (nodup_stored hs)).2 fun l => ?_
      simp [hmem, mem_stored hs, hdirectory, and_comm]
    have hsame : found.foldl FileStore.erase s = (c.stored s).foldl FileStore.erase s := by
      simp only [foldl_erase_eq, hperm.mem_iff]
    rw [clear]
    simp only [hdirectory, if_true, hrun, Nat.zero_add, hperm.length_eq, hsame]
  · rw [clear, if_neg hdirectory, stored, if_neg hdirectory]
    rfl

end TimeCache

end Offside
