import Mathlib
import Offside.Artifacts.ByTime
import Offside.Proofs.SoundStores

/-!
# Which artifact belongs to which source

The path of an artifact is put together from the tag of the directory that the source is kept under,
the names from there down to the source, and the extension of artifacts.

**Names.**  Below the directory of artifacts, the artifact has the names of the source below the
directory it is kept under, after its tag, the last one with the extension of artifacts
(`artifactPath_eq`).  Tags are names without dots (`isName_tag`).  Where no directory of sources is
given, the artifact is beside its source (`artifactPath_beside`).

**Shared artifacts.**  So two sources have the same artifact exactly if they are kept under the same
directory and differ in nothing but the extension (`artifactPath_eq_iff`): the extension of a source
is not part of the name of its artifact.
-/

namespace Offside

open FilePath Location

/-! ## Tags -/

lemma exists_digitChar_of_mem_toDigitsCore {base : Nat} (hbase : 0 < base) {fuel n : Nat}
    {c : Char} {digits : List Char} (h : c ∈ Nat.toDigitsCore base fuel n digits) :
    c ∈ digits ∨ ∃ d < base, c = Nat.digitChar d := by
  induction fuel generalizing n digits with
  | zero => exact .inl h
  | succ fuel ih =>
      have hdigit : ∃ d < base, Nat.digitChar (n % base) = Nat.digitChar d :=
        ⟨n % base, Nat.mod_lt _ hbase, rfl⟩
      rw [Nat.toDigitsCore] at h
      split_ifs at h
      · rcases List.mem_cons.1 h with rfl | h
        · exact .inr hdigit
        · exact .inl h
      · rcases ih h with h | h
        · rcases List.mem_cons.1 h with rfl | h
          · exact .inr hdigit
          · exact .inl h
        · exact .inr h

lemma mem_hexOfNat {n : Nat} {c : Char} (h : c ∈ Text.hexOfNat n) :
    c ∈ "0123456789abcdef".toList := by
  have hdigits : ∀ d < 16, Nat.digitChar d ∈ "0123456789abcdef".toList := by decide
  rcases exists_digitChar_of_mem_toDigitsCore (by decide) h with h | ⟨d, hd, rfl⟩
  · cases h
  · exact hdigits d hd

lemma Sha256.mem_ofText {t : Text} {d : Char} (h : d ∈ Sha256.ofText t) :
    d ∈ "0123456789abcdef".toList := by
  obtain ⟨w, -, hw⟩ := List.mem_flatMap.1 h
  rcases List.mem_append.1 hw with hzero | hdigit
  · rw [(List.mem_replicate.1 hzero).2]
    decide
  · exact mem_hexOfNat hdigit

lemma Sha256.ofText_ne_nil (t : Text) : Sha256.ofText t ≠ [] := by
  have hword : ∀ w : UInt32, Sha256.wordText w ≠ [] := by
    intro w hw
    have hlength := congrArg List.length hw
    simp only [Sha256.wordText, List.length_append, List.length_replicate, List.length_nil]
      at hlength
    omega
  simp only [Sha256.ofText, Sha256.digest, List.flatMap_cons, ne_eq, List.append_eq_nil_iff, hword,
    false_and, not_false_eq_true]

namespace TimeCache

variable {c c₁ c₂ : TimeCache} {s : FileStore} {source : FilePath} {l : Location}

lemma mem_tag {directory : FilePath} {d : Char} (h : d ∈ tag directory) :
    d ∈ "0123456789abcdef".toList :=
  Sha256.mem_ofText (List.mem_of_mem_take h)

lemma dot_notMem_tag (directory : FilePath) : '.' ∉ tag directory :=
  fun h => absurd (mem_tag h) (by decide)

lemma tag_ne_nil (directory : FilePath) : tag directory ≠ [] := by
  rw [tag, ne_eq, List.take_eq_nil_iff, not_or]
  exact ⟨by decide, Sha256.ofText_ne_nil _⟩

lemma isName_tag (directory : FilePath) : IsName (tag directory) where
  ne_nil := tag_ne_nil directory
  slash := fun h => absurd (mem_tag h) (by decide)
  ne_dot := fun h => dot_notMem_tag directory (by rw [h]; decide)
  ne_dots := fun h => dot_notMem_tag directory (by rw [h]; decide)

lemma splitName_tag (directory : FilePath) : splitName (tag directory) = (tag directory, none) := by
  rcases splitName_cases (tag directory) with hnone | ⟨stem, old, -, hcut, -⟩
  · exact hnone
  · exact absurd (by rw [hcut]; simp) (dot_notMem_tag directory)

end TimeCache

/-! ## Names with another extension -/

/-- The names with another extension for the last one. -/
def renameLast (names : List Text) (extension : Text) : List Text :=
  names.dropLast ++ [renamed (names.getLast?.getD []) extension]

lemma renameLast_concat (names : List Text) (name extension : Text) :
    renameLast (names ++ [name]) extension = names ++ [renamed name extension] := by
  simp [renameLast]

lemma renameLast_append (first : List Text) {second : List Text} (h : second ≠ [])
    (extension : Text) :
    renameLast (first ++ second) extension = first ++ renameLast second extension := by
  rcases List.eq_nil_or_concat' second with rfl | ⟨front, last, rfl⟩
  · exact absurd rfl h
  · rw [← List.append_assoc, renameLast_concat, renameLast_concat, List.append_assoc]

lemma length_renameLast {names : List Text} (h : names ≠ []) (extension : Text) :
    (renameLast names extension).length = names.length := by
  rcases List.eq_nil_or_concat' names with rfl | ⟨front, last, rfl⟩
  · exact absurd rfl h
  · simp [renameLast_concat]

lemma slash_of_mem_renameLast {names : List Text} (h : Named names) (hne : names ≠ [])
    {extension name : Text} (hextension : '/' ∉ extension)
    (hname : name ∈ renameLast names extension) : '/' ∉ name := by
  rcases List.eq_nil_or_concat' names with rfl | ⟨front, last, rfl⟩
  · exact absurd rfl hne
  · obtain ⟨hfront, hlast⟩ := named_append.1 h
    rw [renameLast_concat, List.mem_append, List.mem_singleton] at hname
    rcases hname with hname | rfl
    · exact (hfront name hname).slash
    · exact slash_renamed hlast hextension

/-- The last name of a path is given another extension. -/
lemma withExtension_join (base : FilePath) {names : List Text} (h : Named names)
    (hne : names ≠ []) (extension : Text) :
    withExtension (opened base ++ Text.join "/" names) extension
      = opened base ++ Text.join "/" (renameLast names extension) := by
  rcases List.eq_nil_or_concat' names with rfl | ⟨front, last, rfl⟩
  · exact absurd rfl hne
  · obtain ⟨pre, hpre, happend⟩ := FileStore.exists_opened_append_join base front
    rw [renameLast_concat, happend, happend]
    exact withExtension_append (named_append.1 h).2 hpre extension

lemma withExtension_path {l : Location} (h : Named l) (hne : l ≠ []) (extension : Text) :
    withExtension l.path extension = path (renameLast l extension) :=
  withExtension_join "/" h hne extension

/-- A slash at the end of a path is not in the way of an extension, where there is none yet. -/
lemma withExtension_append_slash {q : FilePath} {name : Text} (hfile : fileName? q = some name)
    (hbare : (splitName name).2 = none) (extension : Text) :
    withExtension (q ++ ['/']) extension = withExtension q extension := by
  have hq : q ≠ [] := by
    rintro rfl
    cases hfile
  have hpart : lastPart (q ++ ['/']) = lastPart q := by
    rw [lastPart, lastPart, List.reverse_append, List.reverse_singleton, List.singleton_append,
      trimTail]
    simpa using hq
  have hslash : fileName? (q ++ ['/']) = some name := by rw [← hfile, fileName?, fileName?, hpart]
  simp only [withExtension, extension?, hslash, hfile, Option.bind_some, hbare, setExtension, hpart]

lemma join_injective {sep : Char} {names names' : List Text} (hne : names ≠ [])
    (hne' : names' ≠ []) (h : ∀ name ∈ names, sep ∉ name) (h' : ∀ name ∈ names', sep ∉ name)
    (heq : Text.join [sep] names = Text.join [sep] names') : names = names' := by
  rw [← splitOn_join hne h, heq, splitOn_join hne' h']

lemma ofParts_eq {names : List Text} (h : Named names) : ofParts names = Text.join "/" names := by
  rw [ofParts]
  rintro rest rfl
  exact (h ['/'] List.mem_cons_self).slash List.mem_cons_self

lemma parts_ne_nil {p : FilePath} (h : p ≠ []) : parts p ≠ [] := by
  intro hnil
  rw [parts] at hnil
  split_ifs at hnil with habsolute hdot
  obtain ⟨c, cs, rfl⟩ := List.exists_cons_of_ne_nil h
  have hc : c ≠ '/' := by simpa [isAbsolute] using habsolute
  -- The first piece begins with the first character, so it is a step.
  have hpiece : ∃ piece pieces, Text.splitOn '/' (c :: cs) = (c :: piece) :: pieces := by
    rw [Text.splitOn, if_neg hc]
    cases hcs : Text.splitOn '/' cs with
    | nil => exact absurd hcs (splitOn_ne_nil '/' cs)
    | cons piece pieces => exact ⟨piece, pieces, rfl⟩
  obtain ⟨piece, pieces, hpieces⟩ := hpiece
  simp only [hpieces, List.filter_eq_nil_iff] at hnil hdot
  have hfirst := hnil _ List.mem_cons_self
  simp_all

namespace FileStore

lemma canonicalWithin_ne_nil (s : FileStore) (steps : Nat) {p : FilePath} (h : p ≠ []) :
    s.canonicalWithin steps p ≠ [] := by
  cases steps with
  | zero => exact h
  | succ steps =>
      rw [canonicalWithin, canonical?]
      cases s.locate p with
      | ok l => simp [path]
      | error e =>
          cases hparent : p.parent? with
          | none => simpa using h
          | some parent =>
              cases hname : p.fileName? with
              | none => simpa using h
              | some name =>
                  obtain ⟨_, -, -, -, -, hfile⟩ := parent?_cases hparent
                  have hisName := (hfile name hname).1
                  simp only
                  split_ifs
                  · exact h
                  · rw [join_eq _ (isAbsolute_eq_false hisName.slash)]
                    simp [hisName.ne_nil]

lemma canonical_of_locate {s : FileStore} {p : FilePath} {l : Location} (h : s.locate p = .ok l) :
    s.canonical p = l.path := by
  rw [canonical, canonicalWithin, canonical?, h]

end FileStore

namespace TimeCache

variable {c c₁ c₂ : TimeCache} {s : FileStore} {source : FilePath} {l r below : Location}

/-! ## Where a source is kept -/

lemma split_below (hcanonical : s.canonical source = l.path) (hl : Named l)
    (hroot : parts (s.canonical c.sources) = ['/'] :: r) (happend : l = r ++ below) :
    c.split s source = (s.canonical c.sources, Text.join "/" below) := by
  have hprefix : (['/'] :: r).isPrefixOf? (['/'] :: l) = some below := by
    rw [List.isPrefixOf?_eq_some_iff_append_eq, happend]
    rfl
  have hbelow : Named below := fun name hname => hl name (happend ▸ List.mem_append_right r hname)
  simp only [split, hcanonical, relativeTo?, hroot, parts_path hl, hprefix, Option.map_some,
    ofParts_eq hbelow]

/-- A source is kept under a directory that it is in, by the names that lead to it from there. -/
lemma split_cases (hcanonical : s.canonical source = l.path) (hl : Named l) (hne : l ≠ [])
    (hsources : c.sources ≠ []) :
    ∃ r below, parts (c.split s source).1 = ['/'] :: r ∧ l = r ++ below ∧
      (c.split s source).2 = Text.join "/" below := by
  cases hprefix : (parts (s.canonical c.sources)).isPrefixOf? (['/'] :: l) with
  | some rest =>
      have happend := List.isPrefixOf?_eq_some_iff_append_eq.1 hprefix
      obtain ⟨first, r, hparts⟩ :=
        List.exists_cons_of_ne_nil (parts_ne_nil (s.canonicalWithin_ne_nil _ hsources))
      change parts (s.canonical c.sources) = first :: r at hparts
      rw [hparts, List.cons_append] at happend
      obtain ⟨rfl, htail⟩ := List.cons.inj happend
      have hsplit := split_below hcanonical hl hparts htail.symm
      exact ⟨r, rest, by rw [hsplit, hparts], htail.symm, by rw [hsplit]⟩
  | none =>
      rcases List.eq_nil_or_concat' l with rfl | ⟨front, last, rfl⟩
      · exact absurd rfl hne
      · have hsplit : c.split s source = (path front, last) := by
          simp only [split, hcanonical, relativeTo?, parts_path hl, hprefix, Option.map_none,
            parent?_path hl, fileName?_path hl, Option.getD_some]
        refine ⟨front, [last], ?_, rfl, ?_⟩
        · rw [hsplit, parts_path (named_append.1 hl).1]
        · rw [hsplit]
          rfl

/-- The path of an artifact: below the directory of artifacts and the tag, it is laid out like the
source. -/
lemma artifactPath_of_split (hbelow : Named below)
    (hsplit : (c.split s source).2 = Text.join "/" below) :
    c.artifactPath s source = opened c.artifacts ++
      Text.join "/" (renameLast (tag (c.split s source).1 :: below) c.extension) := by
  have hpair : c.split s source = ((c.split s source).1, Text.join "/" below) :=
    Prod.ext rfl hsplit
  have htag := isName_tag (c.split s source).1
  have hbase := join_eq c.artifacts (isAbsolute_eq_false htag.slash)
  have hopened := opened_append htag.ne_nil htag.slash (opened c.artifacts)
  rw [artifactPath, hpair]
  simp only
  rcases eq_or_ne below [] with rfl | hne
  · -- The source is the directory itself: nothing stands behind the slash after the tag.
    have hfile := fileName?_append htag (getLast?_opened c.artifacts)
    have hbare : (splitName (tag (c.split s source).1)).2 = none := by rw [splitName_tag]
    rw [show Text.join "/" [] = ([] : Text) from rfl, join_eq _ rfl, hbase, hopened,
      List.append_nil, withExtension_append_slash hfile hbare,
      withExtension_append htag (getLast?_opened _)]
    rfl
  · have hjoin : Text.join "/" (tag (c.split s source).1 :: below)
        = tag (c.split s source).1 ++ '/' :: Text.join "/" below := by
      cases below with
      | nil => exact absurd rfl hne
      | cons first rest => simp [Text.join]
    have hnames : Named (tag (c.split s source).1 :: below) :=
      List.forall_mem_cons.2 ⟨htag, hbelow⟩
    rw [join_eq _ (isAbsolute_join hbelow), hbase, hopened, ← withExtension_join _ hnames (by simp),
      hjoin]
    simp

lemma artifactPath_eq (hcanonical : s.canonical source = l.path) (hl : Named l) (hne : l ≠ [])
    (hsources : c.sources ≠ []) :
    ∃ r below, parts (c.split s source).1 = ['/'] :: r ∧ l = r ++ below ∧
      c.artifactPath s source = opened c.artifacts ++
        Text.join "/" (renameLast (tag (c.split s source).1 :: below) c.extension) := by
  obtain ⟨r, below, hparts, happend, hsplit⟩ := split_cases hcanonical hl hne hsources
  have hbelow : Named below := fun name hname => hl name (happend ▸ List.mem_append_right r hname)
  exact ⟨r, below, hparts, happend, artifactPath_of_split hbelow hsplit⟩

/-- Without a directory of sources, an artifact is beside its source. -/
lemma artifactPath_beside (hcanonical : s.canonical source = l.path) (hl : Named l)
    (hsources : c.sources = []) :
    (c.split s source).1 = [] ∧ c.artifactPath s source = withExtension l.path c.extension := by
  have hempty : s.canonical [] = [] := rfl
  have hnone : parts [] = [] := rfl
  have hwhole : ofParts (['/'] :: l) = l.path := rfl
  have hsplit : c.split s source = ([], l.path) := by
    simp only [split, hcanonical, relativeTo?, hsources, hempty, hnone, parts_path hl,
      List.isPrefixOf?, Option.map_some, hwhole]
  refine ⟨by rw [hsplit], ?_⟩
  rw [artifactPath, hsplit]
  simp [join]

/-! ## Shared artifacts -/

/-- Paths below the same directory are equal if their names are, and so are their places. -/
lemma opened_append_join_iff (base : FilePath) {names₁ names₂ : List Text} (hne₁ : names₁ ≠ [])
    (hne₂ : names₂ ≠ []) (h₁ : ∀ name ∈ names₁, '/' ∉ name) (h₂ : ∀ name ∈ names₂, '/' ∉ name) :
    (opened base ++ Text.join "/" names₁ = opened base ++ Text.join "/" names₂
      ↔ names₁ = names₂) ∧
    (Named names₁ → Named names₂ →
      (s.leadsTo (opened base ++ Text.join "/" names₁)
          = s.leadsTo (opened base ++ Text.join "/" names₂)
        ↔ names₁ = names₂)) := by
  constructor
  · refine ⟨fun heq => join_injective hne₁ hne₂ h₁ h₂ (List.append_cancel_left heq), ?_⟩
    rintro rfl
    rfl
  · intro hnamed₁ hnamed₂
    rw [FileStore.leadsTo_opened base hnamed₁, FileStore.leadsTo_opened base hnamed₂]
    exact List.append_right_inj _

/-- A source whose name is not cut back to two dots has an artifact with proper names. -/
lemma named_renameLast (hl : Named l) (hne : l ≠ []) {extension : Text}
    (hslash : '/' ∉ extension)
    (hname : (fileName? (withExtension l.path extension)).isSome = true) :
    Named (renameLast l extension) := by
  rcases List.eq_nil_or_concat' l with rfl | ⟨front, last, rfl⟩
  · exact absurd rfl hne
  · obtain ⟨hfront, hlast⟩ := named_append.1 hl
    have hnil : renamed last extension ≠ [] := renamed_ne_nil hlast
    have hdot : renamed last extension ≠ "." := renamed_ne_dot hlast
    rw [withExtension_path hl hne, renameLast_concat, path_append hfront,
      fileName?_eq hnil (slash_renamed hlast hslash) hdot (getLast?_opened _)] at hname
    split_ifs at hname with hdots
    · cases hname
    · rw [renameLast_concat]
      exact named_append.2 ⟨hfront, ⟨hnil, slash_renamed hlast hslash, hdot, hdots⟩⟩

lemma renamed_tag (directory extension : Text) :
    renamed (tag directory) extension
      = tag directory ++ if extension = [] then [] else '.' :: extension := by
  simp only [renamed, splitName_tag, if_neg (isName_tag directory).ne_dot]
  split_ifs <;> simp

/-- The names of two artifacts are equal exactly if the sources are kept under the same directory
and their names come out equal. -/
lemma renameLast_tag_iff {k₁ k₂ : FilePath} {r₁ r₂ below₁ below₂ : List Text} {extension : Text}
    (hparts₁ : parts k₁ = ['/'] :: r₁) (hparts₂ : parts k₂ = ['/'] :: r₂)
    (hne₁ : r₁ ++ below₁ ≠ []) (hne₂ : r₂ ++ below₂ ≠ [])
    (hdifferent : r₁ ++ below₁ ≠ r₂ ++ below₂) (htag : tag k₁ = tag k₂ → k₁ = k₂) :
    renameLast (tag k₁ :: below₁) extension = renameLast (tag k₂ :: below₂) extension
      ↔ k₁ = k₂ ∧ renameLast (r₁ ++ below₁) extension = renameLast (r₂ ++ below₂) extension := by
  have hroot : k₁ = k₂ → r₁ = r₂ := by
    rintro rfl
    exact (List.cons.inj (hparts₁.symm.trans hparts₂)).2
  by_cases hlength : below₁.length = below₂.length
  · rcases eq_or_ne below₁ [] with rfl | hfull₁
    · -- Both sources are the directories they are kept under, which are different.
      obtain rfl : below₂ = [] := List.eq_nil_of_length_eq_zero hlength.symm
      have hnot : k₁ ≠ k₂ := fun h => hdifferent (by rw [hroot h])
      simp only [hnot, false_and, iff_false]
      intro heq
      have hrenamed : renamed (tag k₁) extension = renamed (tag k₂) extension := by
        simpa [renameLast] using heq
      rw [renamed_tag, renamed_tag] at hrenamed
      exact hnot (htag (List.append_cancel_right hrenamed))
    · have hfull₂ : below₂ ≠ [] := by
        rintro rfl
        exact hfull₁ (List.eq_nil_of_length_eq_zero hlength)
      have hcons : ∀ {k : FilePath} {below : List Text}, below ≠ [] →
          renameLast (tag k :: below) extension = tag k :: renameLast below extension :=
        fun h => renameLast_append [_] h extension
      rw [hcons hfull₁, hcons hfull₂, renameLast_append _ hfull₁, renameLast_append _ hfull₂]
      constructor
      · intro heq
        obtain ⟨ht, hbelow⟩ := List.cons.inj heq
        have hk := htag ht
        exact ⟨hk, by rw [hroot hk, hbelow]⟩
      · rintro ⟨rfl, heq⟩
        rw [hroot rfl] at heq
        rw [List.append_cancel_left heq]
  · -- The lists of names are not even equally long.
    constructor
    · intro heq
      have hsize := congrArg List.length heq
      rw [length_renameLast (by simp), length_renameLast (by simp)] at hsize
      simp at hsize
      omega
    · rintro ⟨hk, heq⟩
      have hsize := congrArg List.length heq
      rw [length_renameLast hne₁, length_renameLast hne₂, hroot hk] at hsize
      simp at hsize
      omega

lemma isName_renamed_tag (directory : FilePath) {extension : Text} (hslash : '/' ∉ extension) :
    IsName (renamed (tag directory) extension) := by
  have htag := isName_tag directory
  rcases eq_or_ne extension [] with rfl | hne
  · rw [renamed_tag, if_pos rfl, List.append_nil]
    exact htag
  · exact isName_renamed htag hne hslash (by rw [splitName_tag]; exact htag.ne_dot)

lemma named_renameLast_tag (k : FilePath) (hbelow : Named (r ++ below)) (hne : r ++ below ≠ [])
    {extension : Text} (hslash : '/' ∉ extension)
    (hname : (fileName? (withExtension (path (r ++ below)) extension)).isSome = true) :
    Named (renameLast (tag k :: below) extension) := by
  rcases eq_or_ne below [] with rfl | hfull
  · intro name hmem
    obtain rfl : name = renamed (tag k) extension := by simpa [renameLast] using hmem
    exact isName_renamed_tag k hslash
  · have hnamed := named_renameLast hbelow hne hslash hname
    rw [renameLast_append r hfull] at hnamed
    rw [show tag k :: below = [tag k] ++ below from rfl, renameLast_append [tag k] hfull]
    refine List.forall_mem_cons.2 ⟨isName_tag k, ?_⟩
    exact fun name hmem => hnamed name (List.mem_append_right r hmem)

/-- The artifact of a source at a place has some names below a directory.  They are proper ones
unless the name of the source is cut back to two dots. -/
structure LaidOut (c : TimeCache) (s : FileStore) (source : FilePath) (l : Location)
    (base : FilePath) (names : List Text) : Prop where
  path_eq : c.artifactPath s source = opened base ++ Text.join "/" names
  ne_nil : names ≠ []
  slash : ∀ name ∈ names, '/' ∉ name
  named : (fileName? (withExtension l.path c.extension)).isSome = true → Named names

lemma laidOut_beside (hcanonical : s.canonical source = l.path) (hl : Named l) (hne : l ≠ [])
    (hslash : '/' ∉ c.extension) (hsources : c.sources = []) :
    (c.split s source).1 = [] ∧ c.LaidOut s source l "/" (renameLast l c.extension) := by
  obtain ⟨hsplit, hpath⟩ := artifactPath_beside hcanonical hl hsources
  rw [withExtension_path hl hne] at hpath
  exact ⟨hsplit, hpath, by simp [renameLast],
    fun name hname => slash_of_mem_renameLast hl hne hslash hname,
    named_renameLast hl hne hslash⟩

lemma laidOut_below (hcanonical : s.canonical source = l.path) (hl : Named l) (hne : l ≠ [])
    (hslash : '/' ∉ c.extension) (hsources : c.sources ≠ []) :
    ∃ r below, parts (c.split s source).1 = ['/'] :: r ∧ l = r ++ below ∧
      c.LaidOut s source l c.artifacts
        (renameLast (tag (c.split s source).1 :: below) c.extension) := by
  obtain ⟨r, below, hparts, rfl, hpath⟩ := artifactPath_eq hcanonical hl hne hsources
  have hkeyed : Named (tag (c.split s source).1 :: below) := List.forall_mem_cons.2
    ⟨isName_tag _, fun name hname => hl name (List.mem_append_right _ hname)⟩
  exact ⟨r, below, hparts, rfl, hpath, by simp [renameLast],
    fun name hname => slash_of_mem_renameLast hkeyed (by simp) hslash hname,
    named_renameLast_tag _ hl hne hslash⟩

/-- The artifacts of two sources lie below the same directory.  Their names from there are equal
exactly if the sources are kept under the same directory and their own names come out equal. -/
lemma exists_laidOut {source₁ source₂ : FilePath} {l₁ l₂ : Location}
    (hartifacts : c₁.artifacts = c₂.artifacts) (hextension : c₁.extension = c₂.extension)
    (hslash : '/' ∉ c₁.extension) (hsources : c₁.sources = [] ↔ c₂.sources = [])
    (hcanonical₁ : s.canonical source₁ = l₁.path) (hcanonical₂ : s.canonical source₂ = l₂.path)
    (hnamed₁ : Named l₁) (hnamed₂ : Named l₂) (hne₁ : l₁ ≠ []) (hne₂ : l₂ ≠ [])
    (hdifferent : l₁ ≠ l₂)
    (htag : tag (c₁.split s source₁).1 = tag (c₂.split s source₂).1 →
      (c₁.split s source₁).1 = (c₂.split s source₂).1) :
    ∃ base names₁ names₂, c₁.LaidOut s source₁ l₁ base names₁ ∧
      c₂.LaidOut s source₂ l₂ base names₂ ∧
      (names₁ = names₂ ↔ (c₁.split s source₁).1 = (c₂.split s source₂).1 ∧
        renameLast l₁ c₁.extension = renameLast l₂ c₁.extension) := by
  have hslash₂ : '/' ∉ c₂.extension := hextension ▸ hslash
  by_cases hbeside : c₁.sources = []
  · obtain ⟨hsplit₁, hout₁⟩ := laidOut_beside hcanonical₁ hnamed₁ hne₁ hslash hbeside
    obtain ⟨hsplit₂, hout₂⟩ :=
      laidOut_beside hcanonical₂ hnamed₂ hne₂ hslash₂ (hsources.1 hbeside)
    refine ⟨"/", _, _, hout₁, hout₂, ?_⟩
    rw [hsplit₁, hsplit₂, eq_self, true_and, hextension]
  · obtain ⟨r₁, below₁, hparts₁, rfl, hout₁⟩ :=
      laidOut_below hcanonical₁ hnamed₁ hne₁ hslash hbeside
    obtain ⟨r₂, below₂, hparts₂, rfl, hout₂⟩ :=
      laidOut_below hcanonical₂ hnamed₂ hne₂ hslash₂ (mt hsources.2 hbeside)
    refine ⟨c₁.artifacts, _, _, hout₁, hartifacts ▸ hout₂, ?_⟩
    rw [← hextension]
    exact renameLast_tag_iff hparts₁ hparts₂ hne₁ hne₂ hdifferent htag

/-- **Two sources share an artifact** exactly if they are kept under the same directory and their
paths come out equal when the extension of artifacts is put in the place of their own.  The same
holds of the places where the artifacts are, unless a name is cut back to two dots.

Nothing else makes artifacts meet, whether the sources are inside or outside of the directories that
they are looked up under, as long as the tags of the two directories tell them apart. -/
theorem artifactPath_eq_iff {source₁ source₂ : FilePath} {l₁ l₂ : Location}
    (hs : s.Sound) (hartifacts : c₁.artifacts = c₂.artifacts)
    (hextension : c₁.extension = c₂.extension) (hslash : '/' ∉ c₁.extension)
    (hsources : c₁.sources = [] ↔ c₂.sources = [])
    (hsource₁ : s.locate source₁ = .ok l₁) (hsource₂ : s.locate source₂ = .ok l₂)
    (hne₁ : l₁ ≠ []) (hne₂ : l₂ ≠ []) (hdifferent : l₁ ≠ l₂)
    (htag : tag (c₁.split s source₁).1 = tag (c₂.split s source₂).1 →
      (c₁.split s source₁).1 = (c₂.split s source₂).1) :
    (c₁.artifactPath s source₁ = c₂.artifactPath s source₂
      ↔ (c₁.split s source₁).1 = (c₂.split s source₂).1 ∧
        withExtension l₁.path c₁.extension = withExtension l₂.path c₁.extension) ∧
    ((fileName? (withExtension l₁.path c₁.extension)).isSome = true →
      (fileName? (withExtension l₂.path c₁.extension)).isSome = true →
      (s.leadsTo (c₁.artifactPath s source₁) = s.leadsTo (c₂.artifactPath s source₂)
        ↔ c₁.artifactPath s source₁ = c₂.artifactPath s source₂)) := by
  have hnamed₁ := hs.named l₁ (FileStore.locate_eq_ok.1 hsource₁).2.2
  have hnamed₂ := hs.named l₂ (FileStore.locate_eq_ok.1 hsource₂).2.2
  have hcanonical₁ := FileStore.canonical_of_locate hsource₁
  have hcanonical₂ := FileStore.canonical_of_locate hsource₂
  obtain ⟨base, names₁, names₂, hout₁, hout₂, hiff⟩ := exists_laidOut hartifacts hextension hslash
    hsources hcanonical₁ hcanonical₂ hnamed₁ hnamed₂ hne₁ hne₂ hdifferent htag
  obtain ⟨hpaths, hplaces⟩ :=
    opened_append_join_iff (s := s) base hout₁.ne_nil hout₂.ne_nil hout₁.slash hout₂.slash
  have hrenamed : withExtension l₁.path c₁.extension = withExtension l₂.path c₁.extension
      ↔ renameLast l₁ c₁.extension = renameLast l₂ c₁.extension := by
    rw [withExtension_path hnamed₁ hne₁, withExtension_path hnamed₂ hne₂]
    exact (opened_append_join_iff (s := s) "/" (by simp [renameLast]) (by simp [renameLast])
      (fun _ => slash_of_mem_renameLast hnamed₁ hne₁ hslash)
      (fun _ => slash_of_mem_renameLast hnamed₂ hne₂ hslash)).1
  rw [hout₁.path_eq, hout₂.path_eq, hrenamed, ← hiff]
  refine ⟨hpaths, fun hname₁ hname₂ => ?_⟩
  rw [hpaths]
  exact hplaces (hout₁.named hname₁) (hout₂.named (hextension ▸ hname₂))

/-- Two templates in one directory, and a directory that is the root of another cache. -/
def twinTemplates : FileStore where
  entries := [(["site"], .directory), (["site", "home.haml"], .file (.text "%p x") 1),
    (["site", "home.txt"], .file (.text "x") 1), (["site", "about.haml"], .file (.text "y") 1),
    (["other"], .directory)]
  current := []
  temporary := "/tmp"
  clock := 2

lemma sound_twinTemplates : twinTemplates.Sound :=
  FileStore.sound_of_entries (by decide) (by decide) (by decide) (by decide)

/-- A template inside its root and one outside of its own have the same artifact, because their
names differ in the extension only; one with another name has another artifact. -/
theorem artifactPath_eq_iff_twinTemplates :
    artifactPath ⟨"/site", "/out", "tpl"⟩ twinTemplates "/site/home.haml"
      = artifactPath ⟨"/other", "/out", "tpl"⟩ twinTemplates "/site/home.txt" ∧
    artifactPath ⟨"/site", "/out", "tpl"⟩ twinTemplates "/site/home.haml"
      ≠ artifactPath ⟨"/other", "/out", "tpl"⟩ twinTemplates "site/about.haml" := by
  have hhaml : twinTemplates.locate "/site/home.haml" = .ok ["site", "home.haml"] := by rfl
  have htxt : twinTemplates.locate "/site/home.txt" = .ok ["site", "home.txt"] := by rfl
  have habout : twinTemplates.locate "site/about.haml" = .ok ["site", "about.haml"] := by rfl
  constructor
  · refine (artifactPath_eq_iff sound_twinTemplates rfl rfl (by decide) (by decide) hhaml htxt
      (by decide) (by decide) (by decide) ?_).1.2 ?_
    · exact fun _ => by decide +kernel
    · exact ⟨by decide +kernel, by decide +kernel⟩
  · intro heq
    have hshared := (artifactPath_eq_iff sound_twinTemplates rfl rfl (by decide) (by decide) hhaml
      habout (by decide) (by decide) (by decide) (fun _ => by decide +kernel)).1.1 heq
    exact absurd hshared.2 (by decide +kernel)

end TimeCache

end Offside
