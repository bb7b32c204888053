import Mathlib
import Offside.Proofs.ClearedDirectories
import Offside.Proofs.Runs

/-!
# Clearing what was kept

**What is cleared.**  Clearing goes by the extension that the file names have: it removes the files
below the directory of a cache that end in the extension of artifacts, and nothing else
(`clear_eq_stored`, `entry?_clear`).

**What was kept.**  Artifacts that were kept one after the other are all there, and the only files
below the directory of artifacts are these (`Holds`).  For this, what sources and their directory
are called must lead to places that do not depend on what else is made (`Anchored`).

**Extensions with dots.**  An artifact is named by putting the extension behind its name, and
recognized by what follows the last dot.  The two agree exactly if there is no dot in the extension
(`splitName_renamed`).  So clearing removes everything that was kept if the extension has no dot,
and nothing at all if it has one (`clear_keepAll`).
-/

namespace Offside

open FilePath Location FileStore

namespace TimeCache

variable {c : TimeCache} {s t t' : FileStore} {source : FilePath} {l : Location}

/-! ## What is cleared -/

lemma leadsTo_artifactDirectory (c : TimeCache) (s : FileStore) :
    s.leadsTo (c.artifactDirectory s) = s.leadsTo c.artifacts ++ [tag (s.canonical c.sources)] := by
  rw [artifactDirectory, leadsTo_join _ (isName_tag _)]

lemma clear_snd (hs : s.Sound) : (c.clear s).2 = (c.stored s).foldl FileStore.erase s := by
  rw [clear_eq_stored hs]

lemma not_directory_of_mem_stored (hs : s.Sound) (h : l ∈ c.stored s) :
    s.entry? l ≠ some .directory :=
  not_directory_of_isArtifact ((mem_stored hs).1 h).2.2

lemma entry?_clear (hs : s.Sound) (l : Location) :
    FileStore.entry? (c.clear s).2 l = if l ∈ c.stored s then none else s.entry? l := by
  rw [clear_snd hs]
  exact entry?_foldl_erase s (fun hnil => not_directory_of_mem_stored hs hnil rfl) l

lemma sound_clear (hs : s.Sound) : (c.clear s).2.Sound := by
  rw [clear_snd hs]
  exact hs.foldl_erase fun l hl => not_directory_of_mem_stored hs hl

lemma exists_clear_eq (hs : s.Sound) :
    ∃ entries, (c.clear s).2 = { s with entries := entries } :=
  ⟨_, (clear_snd hs).trans (foldl_erase_eq s _)⟩

lemma current_clear (hs : s.Sound) : (c.clear s).2.current = s.current := by
  obtain ⟨entries, heq⟩ := exists_clear_eq (c := c) hs
  rw [heq]

/-- Clearing leaves everything alone that is not below the directory of the cache. -/
lemma entry?_clear_outside (hs : s.Sound) (h : ¬s.leadsTo (c.artifactDirectory s) <+: l) :
    FileStore.entry? (c.clear s).2 l = s.entry? l := by
  rw [entry?_clear hs, if_neg]
  exact fun hl => h ((mem_stored hs).1 hl).2.1

/-! ## Keeping artifacts one after the other -/

/-- Keep one artifact. -/
def keep (c : TimeCache) (s : FileStore) (kept : FilePath × Text) :
    Except ArtifactError FileStore :=
  let result := c.store s kept.1 kept.2
  result.1.map fun _ => result.2

lemma keep_eq_ok {kept : FilePath × Text} :
    c.keep s kept = .ok t ↔ c.store s kept.1 kept.2 = (.ok (), t) := by
  have hkeep : c.keep s kept
      = (c.store s kept.1 kept.2).1.map fun _ => (c.store s kept.1 kept.2).2 := rfl
  rw [hkeep]
  generalize c.store s kept.1 kept.2 = result
  obtain ⟨outcome, s₁⟩ := result
  cases outcome with
  | error e => simp [Except.map]
  | ok u => simp [Except.map]

/-- The names of an artifact below the directory of artifacts, for a source below the directory of
sources. -/
def artifactNames (c : TimeCache) (s : FileStore) (source : FilePath) : List Text :=
  renameLast (tag (s.leadsTo c.sources).path ::
    (s.leadsTo source).drop (s.leadsTo c.sources).length) c.extension

/-- The place of the artifact of a source below the directory of sources. -/
def artifactPlace (c : TimeCache) (s : FileStore) (source : FilePath) : Location :=
  s.leadsTo c.artifacts ++ c.artifactNames s source

lemma artifactNames_congr (h : t.current = s.current) (source : FilePath) :
    c.artifactNames t source = c.artifactNames s source := by
  rw [artifactNames, artifactNames, leadsTo_congr h, leadsTo_congr h]

lemma artifactPlace_congr (h : t.current = s.current) (source : FilePath) :
    c.artifactPlace t source = c.artifactPlace s source := by
  rw [artifactPlace, artifactPlace, leadsTo_congr h, artifactNames_congr h]

/-- What is assumed of a source: it is below the directory of sources, and where both lead is
settled. -/
structure IsBelow (c : TimeCache) (s : FileStore) (source : FilePath) : Prop where
  root : s.Anchored c.sources
  settled : s.Anchored source
  below : ∃ below ≠ [], s.leadsTo source = s.leadsTo c.sources ++ below

lemma IsBelow.mono (h : c.IsBelow s source) (hextends : Extends s t) : c.IsBelow t source where
  root := h.root.mono hextends
  settled := h.settled.mono hextends
  below := by
    rw [leadsTo_congr hextends.current, leadsTo_congr hextends.current]
    exact h.below

lemma IsBelow.artifactPath (h : c.IsBelow s source) (hs : s.Sound) :
    c.artifactPath s source = opened c.artifacts ++ Text.join "/" (c.artifactNames s source) := by
  obtain ⟨below, -, hbelow⟩ := h.below
  have hnamed : Named below := fun name hname =>
    hs.named_leadsTo source name (hbelow ▸ List.mem_append_right _ hname)
  have hcanonical := h.root.canonical hs
  have hparts : parts (s.canonical c.sources) = ['/'] :: s.leadsTo c.sources := by
    rw [hcanonical, parts_path (hs.named_leadsTo _)]
  have hsplit := split_below (h.settled.canonical hs) (hs.named_leadsTo source) hparts hbelow
  rw [artifactPath_of_split hnamed (by rw [hsplit]), hsplit, hcanonical, artifactNames, hbelow,
    List.drop_left]

lemma IsBelow.artifactNames_eq (h : c.IsBelow s source) (hs : s.Sound) :
    ∃ front last, Named front ∧ IsName last ∧ c.artifactNames s source
      = tag (s.leadsTo c.sources).path :: front ++ [renamed last c.extension] := by
  obtain ⟨below, hne, hbelow⟩ := h.below
  have hnamed : Named below := fun name hname =>
    hs.named_leadsTo source name (hbelow ▸ List.mem_append_right _ hname)
  rcases List.eq_nil_or_concat' below with rfl | ⟨front, last, rfl⟩
  · exact absurd rfl hne
  · obtain ⟨hfront, hlast⟩ := named_append.1 hnamed
    refine ⟨front, last, hfront, hlast, ?_⟩
    rw [artifactNames, hbelow, List.drop_left, ← List.cons_append, renameLast_concat]

/-- An artifact that could be kept has a name. -/
lemma IsBelow.named_of_store (h : c.IsBelow s source) (hs : s.Sound) (hslash : '/' ∉ c.extension)
    {payload : Text} (hstore : c.store s source payload = (.ok (), t)) :
    Named (c.artifactNames s source) := by
  obtain ⟨front, last, hfront, hlast, hnames⟩ := h.artifactNames_eq hs
  obtain ⟨pre, hpre, happend⟩ :=
    exists_opened_append_join c.artifacts (tag (s.leadsTo c.sources).path :: front)
  have hlastSlash := slash_renamed hlast hslash
  rw [store, h.artifactPath hs, hnames, happend] at hstore
  have hdots := hs.ne_dots_of_writeArtifact hpre hlastSlash hstore
  rw [hnames]
  refine named_append.2 ⟨List.forall_mem_cons.2 ⟨isName_tag _, hfront⟩, ?_⟩
  exact ⟨renamed_ne_nil hlast, hlastSlash, renamed_ne_dot hlast, hdots⟩

lemma IsBelow.leadsTo_artifactPath (h : c.IsBelow s source) (hs : s.Sound)
    (hnamed : Named (c.artifactNames s source)) :
    s.leadsTo (c.artifactPath s source) = c.artifactPlace s source := by
  rw [h.artifactPath hs, leadsTo_opened _ hnamed, artifactPlace]

lemma IsBelow.endsIn (h : c.IsBelow s source) (hs : s.Sound)
    (hnamed : Named (c.artifactNames s source)) :
    ∃ pre name, EndsIn (c.artifactPath s source) pre name := by
  obtain ⟨front, last, -, -, hnames⟩ := h.artifactNames_eq hs
  obtain ⟨pre, hpre, happend⟩ :=
    exists_opened_append_join c.artifacts (tag (s.leadsTo c.sources).path :: front)
  rw [hnames] at hnamed
  exact ⟨pre, _, by rw [h.artifactPath hs, hnames, happend], (named_append.1 hnamed).2, hpre⟩

/-- The artifacts that were kept are there, and no other files are where artifacts are. -/
structure Holds (c : TimeCache) (s : FileStore) (kept : List (FilePath × Text)) (t : FileStore) :
    Prop where
  sound : t.Sound
  grown : Extends s t
  named : ∀ k ∈ kept, Named (c.artifactNames s k.1)
  way : ∀ k ∈ kept, ∀ place ∈ t.wayTo (c.artifactPath t k.1), t.entry? place = some .directory
  file : ∀ k ∈ kept, ∃ contents time,
    t.entry? (c.artifactPlace s k.1) = some (.file contents time)
  only : ∀ l contents time, s.leadsTo c.artifacts <+: l → t.entry? l = some (.file contents time) →
    ∃ k ∈ kept, l = c.artifactPlace s k.1

variable {kept : List (FilePath × Text)} {k : FilePath × Text}

lemma Holds.named_of_extends (h : c.Holds s kept t) (hk : k ∈ kept) (hextends : Extends s t') :
    Named (c.artifactNames t' k.1) := by
  rw [artifactNames_congr hextends.current]
  exact h.named k hk

lemma Holds.keep (h : c.Holds s kept t) (hslash : '/' ∉ c.extension) (hbelow : c.IsBelow s k.1)
    (hkept : ∀ other ∈ kept, c.IsBelow s other.1)
    (hstore : c.store t k.1 k.2 = (.ok (), t')) : c.Holds s (kept ++ [k]) t' := by
  have hthere := hbelow.mono h.grown
  have hnamed := hthere.named_of_store h.sound hslash hstore
  have hplace := hthere.leadsTo_artifactPath h.sound hnamed
  obtain ⟨pre, name, hends⟩ := hthere.endsIn h.sound hnamed
  have hsound := hends.sound_writeArtifact h.sound hstore
  rw [artifactPlace_congr h.grown.current] at hplace
  rw [artifactNames_congr h.grown.current] at hnamed
  obtain ⟨t₁, hadds, hway, hfree, rfl⟩ := hends.of_writeArtifact hstore
  rw [hplace] at hfree hsound ⊢
  have hne := ne_nil_of_not_directory hfree
  have hgrown : Extends t (t₁.insert (c.artifactPlace s k.1) (.file (.text k.2) t.clock)) :=
    hadds.extends.trans (extends_insert hfree _)
  have hpath : ∀ {other : FilePath × Text}, c.IsBelow s other.1 →
      c.artifactPath (t₁.insert (c.artifactPlace s k.1) (.file (.text k.2) t.clock)) other.1
        = c.artifactPath t other.1 := by
    intro other hother
    have hother' := hother.mono h.grown
    rw [hother'.artifactPath h.sound, (hother'.mono hgrown).artifactPath hsound,
      artifactNames_congr hgrown.current]
  refine ⟨hsound, h.grown.trans hgrown, ?_, ?_, ?_, ?_⟩
  · simp only [List.mem_append, List.mem_singleton]
    rintro other (hother | rfl)
    · exact h.named other hother
    · exact hnamed
  · simp only [List.mem_append, List.mem_singleton]
    rintro other (hother | rfl) place hmem
    · rw [hpath (hkept other hother), wayTo_congr hgrown.current] at hmem
      exact hgrown.directory place (h.way other hother place hmem)
    · rw [hpath hbelow, wayTo_congr hgrown.current] at hmem
      exact (extends_insert hfree _).directory place (hway place hmem)
  · simp only [List.mem_append, List.mem_singleton]
    rintro other (hother | rfl)
    · rw [entry?_insert t₁ hne]
      split_ifs
      · exact ⟨_, _, rfl⟩
      · obtain ⟨contents, time, hfile⟩ := h.file other hother
        exact ⟨contents, time, hadds.keeps hfile⟩
    · rw [entry?_insert t₁ hne, if_pos rfl]
      exact ⟨_, _, rfl⟩
  · intro l contents time hprefix hfile
    rw [entry?_insert t₁ hne] at hfile
    split_ifs at hfile with heq
    · exact ⟨k, by simp, heq⟩
    · rcases hadds.entry l with hsame | ⟨-, -, hmade⟩
      · rw [hsame] at hfile
        obtain ⟨other, hother, hl⟩ := h.only l contents time hprefix hfile
        exact ⟨other, List.mem_append_left _ hother, hl⟩
      · rw [hmade] at hfile
        cases hfile

lemma holds_keepAll (hs : s.Sound) (hslash : '/' ∉ c.extension)
    (hbelow : ∀ k ∈ kept, c.IsBelow s k.1)
    (hempty : ∀ l, s.leadsTo c.artifacts <+: l → s.NoFileAt l)
    (hkept : kept.foldlM c.keep s = .ok t) : c.Holds s kept t := by
  have hrun : (∀ k ∈ kept, c.IsBelow s k.1) → c.Holds s kept t := by
    refine foldlM_induction (P := fun kept t => (∀ k ∈ kept, c.IsBelow s k.1) → c.Holds s kept t)
      ?_ ?_ hkept
    · intro _
      refine ⟨hs, .refl s, by simp, by simp, by simp, ?_⟩
      intro l contents time hprefix hfile
      rcases hempty l hprefix with hnone | hdirectory
      · rw [hnone] at hfile
        cases hfile
      · rw [hdirectory] at hfile
        cases hfile
    · intro kept k t t' hholds hkeep hall
      have hkept : ∀ other ∈ kept, c.IsBelow s other.1 :=
        fun other hother => hall other (List.mem_append_left _ hother)
      exact (hholds hkept).keep hslash (hall k (by simp)) hkept (keep_eq_ok.1 hkeep)
  exact hrun hbelow

/-! ## Clearing -/

/-- The way to an artifact goes through the directory of its cache. -/
lemma Holds.isDirectory_artifactDirectory (h : c.Holds s kept t) (hbelow : c.IsBelow s k.1)
    (hk : k ∈ kept) : t.isDirectory (c.artifactDirectory t) = true := by
  have hthere := hbelow.mono h.grown
  have hcanonical := hthere.root.canonical h.sound
  have htag := isName_tag (t.leadsTo c.sources).path
  have hnamed := h.named_of_extends hk h.grown
  obtain ⟨front, last, hfront, -, hnames⟩ := hthere.artifactNames_eq h.sound
  have hends := endsIn_join c.artifacts htag
  have hstart := start_join (s := t) c.artifacts htag
  have hway := h.way k hk
  rw [hthere.artifactPath h.sound, wayTo, start_opened_append _ hnamed,
    steps_opened_append _ hnamed, hnames, ← List.append_assoc, List.dropLast_concat,
    List.append_cons] at hway
  replace hway := fun place hplace => hway place (along_subset_append _ _ _ hplace)
  rw [along_append_singleton] at hway
  have hend := hway _ (List.mem_append_right _ List.mem_cons_self)
  rw [follow_of_isName htag, ← steps_opened, ← hstart, ← hends.leadsTo] at hend
  have hlocate := locate_of_entry hends (fun place hplace => by
    rw [hends.wayTo, hstart, steps_opened] at hplace
    exact hway place (List.mem_append_left _ hplace)) (by rw [hend, Option.isSome_some])
  rw [artifactDirectory, hcanonical]
  simp only [isDirectory, found?, hlocate, hend]

/-- The extension of an artifact is read back if it has no dot. -/
lemma IsBelow.extension_artifactPlace (h : c.IsBelow s source) (hs : s.Sound)
    (hne : c.extension ≠ []) (hnamed : Named (c.artifactNames s source)) :
    extension? (path (c.artifactPlace s source)) = some c.extension ↔ '.' ∉ c.extension := by
  obtain ⟨front, last, -, hlast, hnames⟩ := h.artifactNames_eq hs
  rw [hnames] at hnamed
  obtain ⟨hfront, hproper⟩ := named_append.1 hnamed
  have hplace : Named (s.leadsTo c.artifacts ++ (tag (s.leadsTo c.sources).path :: front) ++
      [renamed last c.extension]) := by
    refine named_append.2 ⟨fun name hname => ?_, hproper⟩
    rcases List.mem_append.1 hname with habove | hbelow
    · exact hs.named_leadsTo _ name habove
    · exact hfront name hbelow
  have hstem : (splitName last).1 ≠ "." := by
    intro hdot
    exact hproper.ne_dots (by simp only [renamed, if_pos hdot])
  rw [artifactPlace, hnames, ← List.append_assoc, extension?, fileName?_path hplace,
    Option.bind_some, splitName_renamed hlast hne hstem]

/-- Clearing recognizes the artifacts that were kept exactly if their extension has no dot. -/
lemma Holds.mem_stored_iff (h : c.Holds s kept t) (hne : c.extension ≠ [])
    (hbelow : ∀ k ∈ kept, c.IsBelow s k.1) :
    l ∈ c.stored t ↔ '.' ∉ c.extension ∧ ∃ k ∈ kept, l = c.artifactPlace s k.1 := by
  have hextension : ∀ k ∈ kept,
      extension? (path (c.artifactPlace s k.1)) = some c.extension ↔ '.' ∉ c.extension := by
    intro k hk
    rw [← artifactPlace_congr h.grown.current]
    exact ((hbelow k hk).mono h.grown).extension_artifactPlace h.sound hne
      (h.named_of_extends hk h.grown)
  rw [mem_stored h.sound, isArtifact_iff]
  constructor
  · rintro ⟨-, hprefix, ⟨contents, time, hfile⟩, hread⟩
    rw [leadsTo_artifactDirectory, leadsTo_congr h.grown.current] at hprefix
    obtain ⟨k, hk, rfl⟩ := h.only l contents time ((List.prefix_append _ _).trans hprefix) hfile
    exact ⟨(hextension k hk).1 hread, k, hk, rfl⟩
  · rintro ⟨hdot, k, hk, rfl⟩
    have hthere := (hbelow k hk).mono h.grown
    refine ⟨h.isDirectory_artifactDirectory (hbelow k hk) hk, ?_, h.file k hk,
      (hextension k hk).2 hdot⟩
    obtain ⟨front, last, -, -, hnames⟩ := hthere.artifactNames_eq h.sound
    rw [leadsTo_artifactDirectory, hthere.root.canonical h.sound,
      ← artifactPlace_congr h.grown.current, artifactPlace, hnames]
    exact ⟨front ++ [renamed last c.extension], by simp⟩

/-- What was kept can be cleared without harm to anything that was there before. -/
lemma Holds.extends_clear (h : c.Holds s kept t) (hne : c.extension ≠ [])
    (hbelow : ∀ k ∈ kept, c.IsBelow s k.1)
    (hempty : ∀ l, s.leadsTo c.artifacts <+: l → s.NoFileAt l) : Extends s (c.clear t).2 := by
  have hfile : ∀ l ∈ c.stored t, s.entry? l = none := by
    intro l hl
    obtain ⟨-, k, hk, rfl⟩ := (h.mem_stored_iff hne hbelow).1 hl
    obtain ⟨contents, time, hfile⟩ := h.file k hk
    rw [artifactPlace] at hfile ⊢
    rcases hempty _ (List.prefix_append _ _) with hnone | hdirectory
    · exact hnone
    · rw [h.grown.directory _ hdirectory] at hfile
      cases hfile
  refine ⟨⟨(current_clear h.sound).trans h.grown.current, ?_⟩, ?_⟩
  · intro l hl
    rw [entry?_clear h.sound, if_neg, h.grown.directory l hl]
    intro hmem
    rw [hfile l hmem] at hl
    cases hl
  · intro l hl
    rw [entry?_clear h.sound, if_neg]
    · exact h.grown.there l hl
    · intro hmem
      rw [hfile l hmem] at hl
      cases hl

lemma Holds.leadsTo_artifactPath (h : c.Holds s kept t) (hbelow : c.IsBelow s k.1)
    (hk : k ∈ kept) : t.leadsTo (c.artifactPath t k.1) = c.artifactPlace s k.1 := by
  rw [(hbelow.mono h.grown).leadsTo_artifactPath h.sound (h.named_of_extends hk h.grown),
    artifactPlace_congr h.grown.current]

lemma Holds.isFile (h : c.Holds s kept t) (hbelow : c.IsBelow s k.1) (hk : k ∈ kept) :
    t.isFile (c.artifactPath t k.1) = true := by
  have hthere := hbelow.mono h.grown
  obtain ⟨pre, name, hends⟩ := hthere.endsIn h.sound (h.named_of_extends hk h.grown)
  obtain ⟨contents, time, hfile⟩ := h.file k hk
  rw [← h.leadsTo_artifactPath hbelow hk] at hfile
  have hlocate := locate_of_entry hends (h.way k hk) (by rw [hfile, Option.isSome_some])
  simp only [FileStore.isFile, found?, hlocate, hfile]

/-- An artifact that clearing recognized is gone, and its path is still the same. -/
lemma Holds.found?_clear (h : c.Holds s kept t) (hne : c.extension ≠ [])
    (hbelow : ∀ k ∈ kept, c.IsBelow s k.1)
    (hempty : ∀ l, s.leadsTo c.artifacts <+: l → s.NoFileAt l) (hdot : '.' ∉ c.extension)
    (hk : k ∈ kept) : (c.clear t).2.found? (c.artifactPath (c.clear t).2 k.1) = none := by
  have hgrown := h.extends_clear hne hbelow hempty
  have hplace := ((hbelow k hk).mono hgrown).leadsTo_artifactPath (sound_clear h.sound)
    (h.named_of_extends hk hgrown)
  rw [found?]
  cases hlocate : (c.clear t).2.locate (c.artifactPath (c.clear t).2 k.1) with
  | error e => rfl
  | ok l =>
      have hstored := (h.mem_stored_iff hne hbelow).2 ⟨hdot, k, hk, rfl⟩
      rw [eq_leadsTo_of_locate hlocate, hplace, artifactPlace_congr hgrown.current]
      simp only [entry?_clear h.sound, if_pos hstored]

/-- **Clearing removes what was kept**, if the extension of artifacts has no dot.  Artifacts of
sources below the directory of sources are kept where no other files are.  Then they are all there,
and clearing succeeds and removes each of them once, so that no path to one leads anywhere any more.
If the extension has a dot, clearing finds none of them and does nothing.  In no case is anything
changed outside of the directory of the cache. -/
theorem clear_keepAll (hs : s.Sound) (hne : c.extension ≠ []) (hslash : '/' ∉ c.extension)
    (hbelow : ∀ k ∈ kept, c.IsBelow s k.1)
    (hempty : ∀ l, s.leadsTo c.artifacts <+: l → s.NoFileAt l)
    (hkept : kept.foldlM c.keep s = .ok t) :
    (∀ k ∈ kept, t.isFile (c.artifactPath t k.1) = true) ∧
    ('.' ∉ c.extension →
      (c.clear t).1 = .ok (kept.map fun k => t.leadsTo (c.artifactPath t k.1)).toFinset.card ∧
      ∀ k ∈ kept, (c.clear t).2.found? (c.artifactPath (c.clear t).2 k.1) = none) ∧
    ('.' ∈ c.extension → c.clear t = (.ok 0, t)) ∧
    ∀ l, ¬t.leadsTo (c.artifactDirectory t) <+: l →
      FileStore.entry? (c.clear t).2 l = t.entry? l := by
  have h := holds_keepAll hs hslash hbelow hempty hkept
  refine ⟨fun k hk => h.isFile (hbelow k hk) hk, fun hdot => ⟨?_, ?_⟩, fun hdot => ?_, ?_⟩
  · have hsame : (c.stored t).toFinset
        = (kept.map fun k => t.leadsTo (c.artifactPath t k.1)).toFinset := by
      ext l
      rw [List.mem_toFinset, List.mem_toFinset, h.mem_stored_iff hne hbelow, and_iff_right hdot,
        List.mem_map]
      constructor
      · rintro ⟨k, hk, rfl⟩
        exact ⟨k, hk, h.leadsTo_artifactPath (hbelow k hk) hk⟩
      · rintro ⟨k, hk, rfl⟩
        exact ⟨k, hk, h.leadsTo_artifactPath (hbelow k hk) hk⟩
    rw [clear_eq_stored h.sound, ← hsame, List.toFinset_card_of_nodup (nodup_stored h.sound)]
  · exact fun k hk => h.found?_clear hne hbelow hempty hdot hk
  · have hnone : c.stored t = [] := by
      refine List.eq_nil_iff_forall_not_mem.2 fun l hl => ?_
      exact ((h.mem_stored_iff hne hbelow).1 hl).1 hdot
    rw [clear_eq_stored h.sound, hnone]
    rfl
  · exact fun l hl => entry?_clear_outside h.sound hl

/-- A directory of sources with a page in it and one for more. -/
def smallSite : FileStore where
  entries := [(["site"], .directory), (["site", "home.haml"], .file (.text "%p x") 1),
    (["site", "pages"], .directory)]
  current := []
  temporary := "/tmp"
  clock := 2

/-- Code for three sources, the last of them the first one by another path. -/
def smallPages : List (FilePath × Text) :=
  [("site/home.haml", "<p>x</p>"), ("site/pages/about.us.haml", "y"), ("/site/./home.haml", "z")]

lemma sound_smallSite : smallSite.Sound :=
  sound_of_entries (by decide) (by decide) (by decide) (by decide)

lemma isBelow_smallPages (extension : Text) :
    ∀ k ∈ smallPages, IsBelow ⟨"site", "out", extension⟩ smallSite k.1 := by
  have hroot : smallSite.Anchored "site" := .there (l := ["site"]) rfl
  have hhome : smallSite.locate "site/home.haml" = .ok ["site", "home.haml"] := rfl
  have hagain : smallSite.locate "/site/./home.haml" = .ok ["site", "home.haml"] := rfl
  have hpages : smallSite.locate "site/pages" = .ok ["site", "pages"] := rfl
  have hparent : parent? "site/pages/about.us.haml" = some "site/pages" := rfl
  have hname : fileName? "site/pages/about.us.haml" = some "about.us.haml" := rfl
  simp only [smallPages, List.forall_mem_cons]
  refine ⟨⟨hroot, .there hhome, ["home.haml"], by decide, rfl⟩,
    ⟨hroot, .named hparent hname (by decide) (.there hpages), ["pages", "about.us.haml"],
      by decide, rfl⟩,
    ⟨hroot, .there hagain, ["home.haml"], by decide, rfl⟩, by simp⟩

/-- What was kept is cleared under an extension without a dot, and stays under one with a dot. -/
theorem clear_keepAll_smallSite :
    (∃ t, smallPages.foldlM (keep ⟨"site", "out", "tpl"⟩) smallSite = .ok t ∧
      (clear ⟨"site", "out", "tpl"⟩ t).1 = .ok 2 ∧
      ∀ k ∈ smallPages, t.isFile (artifactPath ⟨"site", "out", "tpl"⟩ t k.1) = true ∧
        (clear ⟨"site", "out", "tpl"⟩ t).2.found?
          (artifactPath ⟨"site", "out", "tpl"⟩ (clear ⟨"site", "out", "tpl"⟩ t).2 k.1) = none) ∧
    ∃ t, smallPages.foldlM (keep ⟨"site", "out", "html.tera"⟩) smallSite = .ok t ∧
      clear ⟨"site", "out", "html.tera"⟩ t = (.ok 0, t) := by
  have hempty : ∀ l, smallSite.leadsTo "out" <+: l → smallSite.NoFileAt l := by
    rintro _ ⟨rest, rfl⟩
    exact .inl rfl
  have hkept : ∀ {x : Except ArtifactError FileStore}, x.isOk = true → ∃ t, x = .ok t := by
    rintro (e | t) hok
    · cases hok
    · exact ⟨t, rfl⟩
  constructor
  · obtain ⟨t, ht⟩ : ∃ t, smallPages.foldlM (keep ⟨"site", "out", "tpl"⟩) smallSite = .ok t :=
      hkept (by decide +kernel)
    obtain ⟨hfiles, hclear, -, -⟩ := clear_keepAll sound_smallSite (by decide) (by decide)
      (isBelow_smallPages "tpl") hempty ht
    have hplaces : ((smallPages.foldlM (keep ⟨"site", "out", "tpl"⟩) smallSite).toOption.map
        fun t => (smallPages.map fun k =>
          t.leadsTo (artifactPath ⟨"site", "out", "tpl"⟩ t k.1)).toFinset.card) = some 2 := by
      decide +kernel
    rw [ht] at hplaces
    refine ⟨t, ht, ?_, fun k hk => ⟨hfiles k hk, (hclear (by decide)).2 k hk⟩⟩
    exact (hclear (by decide)).1.trans (congrArg Except.ok (Option.some.inj hplaces))
  · obtain ⟨t, ht⟩ : ∃ t, smallPages.foldlM (keep ⟨"site", "out", "html.tera"⟩) smallSite = .ok t :=
      hkept (by decide +kernel)
    obtain ⟨-, -, hdotted, -⟩ := clear_keepAll sound_smallSite (by decide) (by decide)
      (isBelow_smallPages "html.tera") hempty ht
    exact ⟨t, ht, hdotted (by decide)⟩

end TimeCache

end Offside
