import Mathlib
import Offside.Proofs.ArtifactPaths
import Offside.Proofs.KeptStyles

/-!
# Runs of a compiler that keeps its output

A compiler that keeps its output is called again and again.  Some calls are answered from what is
kept, some are compiled, and some fail, in any order.

**Where artifacts are.**  An artifact is named after its key.  The extension stands behind the key,
and where it has slashes in it, it is followed like any path.  As long as it does not lead back out
of what is named after the key (`StaysBelow`), keys have places of their own
(`exists_leadsTo_artifactPath`).  If it leads out, all keys have the same place
(`leadsTo_artifactPath_congr`).

**One call.**  A call finds what is kept under its key, or it fails and changes nothing, or it is
compiled and kept (`Accounts.compile_cases`).

**A run.**  So the artifacts, what was answered and the number of sources that were parsed agree
after every run (`Accounts`, `StyleCompiler.runCalls_accounts`).
-/

namespace Offside

open FilePath Location

/-! ## Where artifacts are -/

namespace FileStore

variable {s s' : FileStore}

/-- A path that goes on behind a slash leads on from where it led to. -/
lemma leadsTo_append {p rest : FilePath} (hp : p ≠ []) (hrest : ∀ c ∈ rest.head?, c = '/') :
    s.leadsTo (p ++ rest) = (steps rest).foldl follow (s.leadsTo p) := by
  have hstart : s.start (p ++ rest) = s.start p := by
    rw [start, start, isAbsolute, isAbsolute, List.head?_append_of_ne_nil _ hp]
  cases rest with
  | nil => rw [List.append_nil, steps_nil, List.foldl_nil]
  | cons c more =>
      obtain rfl := hrest c rfl
      rw [leadsTo, hstart, steps_append_cons, steps_slash, List.foldl_append, leadsTo]

/-- A step leads nowhere, up, or down. -/
lemma follow_cases (part : Text) :
    (∀ l, follow l part = l) ∨ (∀ l, follow l part = l.dropLast) ∨
      ∀ l, follow l part = l ++ [part] := by
  by_cases hstep : isStep part = true
  · by_cases hdots : part = ".."
    · exact .inr (.inl fun l => hdots ▸ follow_dots l)
    · have hplain : (part.isEmpty || part == ".") = false := by simpa [isStep] using hstep
      refine .inr (.inr fun l => ?_)
      rw [follow, hplain, if_neg Bool.false_ne_true, if_neg (by simpa using hdots)]
  · exact .inl (follow_of_not_step hstep)

lemma dropLast_append_cons (l : Location) (name inner : Text) (rest : Location) :
    (l ++ name :: inner :: rest).dropLast = l ++ name :: (inner :: rest).dropLast := by
  rw [List.dropLast_append_of_ne_nil (by simp)]
  rfl

/-- Where every step stays below a name, the way is the same below every name. -/
lemma exists_foldl_follow {name : Text} {more : Location} {parts : List Text}
    (h : [] ∉ along (name :: more) parts) :
    ∃ below, ∀ (l : Location) (other : Text),
      parts.foldl follow (l ++ other :: more) = l ++ other :: below := by
  induction parts generalizing more with
  | nil => exact ⟨more, fun _ _ => rfl⟩
  | cons part parts ih =>
      simp only [along, List.mem_cons, not_or, List.foldl_cons] at h ⊢
      rcases follow_cases part with hstay | hup | hdown
      · simp only [hstay] at h ⊢
        exact ih h.2
      · simp only [hup] at h ⊢
        cases more with
        | nil => exact absurd (start_mem_along [] parts) h.2
        | cons inner rest =>
            simp only [dropLast_append_cons]
            exact ih h.2
      · simp only [hdown, List.cons_append, List.append_assoc] at h ⊢
        exact ih h.2

/-- Where the steps lead out of a name, the name does not matter. -/
lemma foldl_follow_congr {name : Text} {more : Location} {parts : List Text}
    (h : [] ∈ along (name :: more) parts) (l : Location) (first second : Text) :
    parts.foldl follow (l ++ first :: more) = parts.foldl follow (l ++ second :: more) := by
  induction parts generalizing more with
  | nil => simp [along] at h
  | cons part parts ih =>
      rw [along, List.mem_cons, or_iff_right (by simp)] at h
      rw [List.foldl_cons, List.foldl_cons]
      rcases follow_cases part with hstay | hup | hdown
      · rw [hstay] at h
        rw [hstay, hstay]
        exact ih h
      · rw [hup] at h
        rw [hup, hup]
        cases more with
        | nil => simp
        | cons inner rest =>
            rw [dropLast_append_cons, dropLast_append_cons]
            exact ih h
      · rw [hdown, List.cons_append] at h
        rw [hdown, hdown, List.append_assoc, List.append_assoc, List.cons_append,
          List.cons_append]
        exact ih h

/-! ## Writing an artifact -/

section WriteArtifact

variable {p : FilePath} {payload : Text}

/-- What writing an artifact does, wherever its path leads. -/
lemma exists_insert_of_writeArtifact (h : writeArtifact s p payload = (.ok (), s')) :
    ∃ places s₁, AddsDirectories places s s₁ ∧ s₁.entry? (s.leadsTo p) ≠ some .directory ∧
      s' = s₁.insert (s.leadsTo p) (.file (.text payload) s.clock) := by
  obtain ⟨s₁, hmade, htext⟩ := exists_of_writeArtifact h
  have hadds := addsDirectories_makeDirectories s (p.parent?.getD [])
  rw [hmade] at hadds
  obtain ⟨l, hplace, hfree, hinsert⟩ := exists_of_writeAt htext
  obtain rfl : l = s.leadsTo p := by
    rw [leadsTo_of_walk (walk_of_place hplace).2, leadsTo_congr hadds.current]
  exact ⟨_, s₁, hadds, hfree, by rw [hinsert, hadds.clock]⟩

lemma clock_of_writeArtifact (h : writeArtifact s p payload = (.ok (), s')) :
    s'.clock = s.clock := by
  obtain ⟨places, s₁, hadds, -, rfl⟩ := exists_insert_of_writeArtifact h
  exact hadds.clock

/-- One file is written, and the other files are as before. -/
lemma file_iff_of_writeArtifact (h : writeArtifact s p payload = (.ok (), s')) (l : Location)
    (contents : Contents) (time : Nat) :
    s'.entry? l = some (.file contents time) ↔
      if l = s.leadsTo p then contents = .text payload ∧ time = s.clock
      else s.entry? l = some (.file contents time) := by
  obtain ⟨places, s₁, hadds, hfree, rfl⟩ := exists_insert_of_writeArtifact h
  rw [entry?_insert s₁ (ne_nil_of_not_directory hfree)]
  split_ifs with hl
  · simp [eq_comm]
  · rcases hadds.entry l with hsame | ⟨-, hnone, hmade⟩
    · rw [hsame]
    · simp [hnone, hmade]

/-- What could be read can still be read, in the same place or not. -/
lemma keepsDirectories_of_writeArtifact (h : writeArtifact s p payload = (.ok (), s')) :
    KeepsDirectories s s' := by
  obtain ⟨places, s₁, hadds, hfree, rfl⟩ := exists_insert_of_writeArtifact h
  have hinsert := keepsDirectories_insert hfree (.file (.text payload) s.clock)
  exact ⟨hinsert.current.trans hadds.current,
    fun l hl => hinsert.directory l (hadds.keeps hl)⟩

/-- A file that could be found is found in the same place. -/
lemma locate_of_file (hkeeps : KeepsDirectories s s') {q : FilePath} {l : Location}
    (hlocate : s.locate q = .ok l) (hthere : (s'.entry? l).isSome = true) :
    s'.locate q = .ok l := by
  obtain ⟨hq, hwalk, -⟩ := locate_eq_ok.1 hlocate
  rw [← start_congr hkeeps.current q] at hwalk
  exact locate_eq_ok.2 ⟨hq, hkeeps.walk hwalk, hthere⟩

/-- What was written is found where its path leads. -/
lemma locate_of_writeArtifact (h : writeArtifact s p payload = (.ok (), s')) :
    s'.locate p = .ok (s.leadsTo p) := by
  obtain ⟨s₁, -, htext⟩ := exists_of_writeArtifact h
  obtain ⟨l, hlocate, -⟩ := locate_of_writeAt htext
  rw [hlocate, eq_leadsTo_of_locate hlocate,
    leadsTo_congr (keepsDirectories_of_writeArtifact h).current]

end WriteArtifact

end FileStore

namespace ContentCache

variable {c : ContentCache} {s : FileStore}

/-- A text that is written in hexadecimal digits. -/
def IsKey (k : Text) : Prop := k ≠ [] ∧ ∀ d ∈ k, d ∈ "0123456789abcdef".toList

lemma isKey_key (input : Text) : IsKey (key input) :=
  ⟨Sha256.ofText_ne_nil input, fun _ h => Sha256.mem_ofText h⟩

/-- The part of the extension that is followed like a path. -/
def onward (c : ContentCache) : Text := c.extension.dropWhile (· != '/')

/-- The extension does not lead back out of what is named after the key. -/
def StaysBelow (c : ContentCache) : Prop := [] ∉ FileStore.along ["key"] (steps c.onward)

instance (c : ContentCache) : Decidable c.StaysBelow :=
  inferInstanceAs (Decidable ([] ∉ FileStore.along ["key"] (steps c.onward)))

/-- What is named after a key. -/
def artifactName (c : ContentCache) (k : Text) : Text :=
  k ++ "." ++ c.extension.takeWhile (· != '/')

lemma artifactName_injective (c : ContentCache) : Function.Injective c.artifactName := by
  intro k₁ k₂ h
  rw [artifactName, artifactName, List.append_assoc, List.append_assoc] at h
  exact List.append_cancel_right h

lemma isName_artifactName (c : ContentCache) {k : Text} (hk : IsKey k) :
    IsName (c.artifactName k) := by
  obtain ⟨first, rest, rfl⟩ := List.exists_cons_of_ne_nil hk.1
  have hfirst : first ≠ '.' := by
    rintro rfl
    exact absurd (hk.2 '.' List.mem_cons_self) (by decide)
  refine ⟨by simp [artifactName], ?_, ?_, ?_⟩
  · simp only [artifactName, List.mem_append, not_or]
    refine ⟨⟨fun h => absurd (hk.2 _ h) (by decide), by decide⟩, fun h => ?_⟩
    simpa using List.mem_takeWhile_imp h
  · exact fun h => hfirst (List.cons.inj h).1
  · exact fun h => hfirst (List.cons.inj h).1

/-- Where the artifact of a key is: from the directory to the name of the artifact, and on from
there. -/
lemma leadsTo_artifactPath (c : ContentCache) {k : Text} (hk : IsKey k) :
    s.leadsTo (c.artifactPath k)
      = (steps c.onward).foldl FileStore.follow (s.leadsTo c.directory ++ [c.artifactName k]) := by
  have hname := c.isName_artifactName hk
  have hcut : k ++ "." ++ c.extension = c.artifactName k ++ c.onward := by
    rw [artifactName, onward, List.append_assoc _ _ (List.dropWhile _ _),
      List.takeWhile_append_dropWhile]
  have hplain : isAbsolute (c.artifactName k ++ c.onward) = false := by
    rw [← isAbsolute_eq_false hname.slash, isAbsolute, isAbsolute,
      List.head?_append_of_ne_nil _ hname.ne_nil]
  have hpath : c.artifactPath k = join c.directory (c.artifactName k) ++ c.onward := by
    rw [artifactPath, hcut, join_eq _ hplain, join_eq _ (isAbsolute_eq_false hname.slash),
      List.append_assoc]
  have honward : ∀ d ∈ c.onward.head?, d = '/' := by
    intro d hd
    have hnot := List.head?_dropWhile_not (· != '/') c.extension
    rw [onward] at hd
    simpa [Option.mem_def.1 hd] using hnot
  rw [hpath, FileStore.leadsTo_append _ honward, FileStore.leadsTo_join _ hname]
  rw [join_eq _ (isAbsolute_eq_false hname.slash)]
  simp [hname.ne_nil]

/-- Keys have places of their own, laid out alike. -/
lemma exists_leadsTo_artifactPath (h : c.StaysBelow) :
    ∃ below : Location, ∀ (s : FileStore) (k : Text), IsKey k →
      s.leadsTo (c.artifactPath k) = s.leadsTo c.directory ++ c.artifactName k :: below := by
  obtain ⟨below, hbelow⟩ := FileStore.exists_foldl_follow h
  exact ⟨below, fun s k hk => by rw [leadsTo_artifactPath c hk, hbelow]⟩

lemma eq_of_leadsTo_artifactPath (h : c.StaysBelow) {k₁ k₂ : Text} (h₁ : IsKey k₁)
    (h₂ : IsKey k₂) (heq : s.leadsTo (c.artifactPath k₁) = s.leadsTo (c.artifactPath k₂)) :
    k₁ = k₂ := by
  obtain ⟨below, hbelow⟩ := exists_leadsTo_artifactPath h
  rw [hbelow s k₁ h₁, hbelow s k₂ h₂] at heq
  exact c.artifactName_injective (List.cons.inj (List.append_cancel_left heq)).1

lemma directory_prefix_leadsTo (h : c.StaysBelow) {k : Text} (hk : IsKey k) :
    s.leadsTo c.directory <+: s.leadsTo (c.artifactPath k) := by
  obtain ⟨below, hbelow⟩ := exists_leadsTo_artifactPath h
  rw [hbelow s k hk]
  exact List.prefix_append _ _

/-- An extension that leads out of what is named after the key leads to one place from all keys. -/
lemma leadsTo_artifactPath_congr (h : ¬c.StaysBelow) {k₁ k₂ : Text} (h₁ : IsKey k₁)
    (h₂ : IsKey k₂) : s.leadsTo (c.artifactPath k₁) = s.leadsTo (c.artifactPath k₂) := by
  rw [leadsTo_artifactPath c h₁, leadsTo_artifactPath c h₂]
  exact FileStore.foldl_follow_congr (not_not.1 h) _ _ _

/-- An artifact that cannot be kept could not be written. -/
lemma exists_write_of_store {k payload : Text} {e : ArtifactError} {s' : FileStore}
    (h : c.store s k payload = (.error e, s')) : ∃ path cause, e = .write path cause := by
  rw [store, writeArtifact] at h
  split at h
  · cases h
    exact ⟨_, _, rfl⟩
  · split at h
    · cases h
    · cases h
      exact ⟨_, _, rfl⟩

end ContentCache

/-! ## One call -/

/-- What a compiler is called with. -/
structure StyleCall where
  constants : List (Text × Text)
  source : Text

namespace StyleCompiler

variable {c : StyleCompiler} {cache : ContentCache} {w w₀ : StyleWorkspace}

/-- The key that the output of a call is kept under. -/
def keyOf (c : StyleCompiler) (call : StyleCall) : Text :=
  key c.settings.style call.constants call.source

lemma isKey_keyOf (c : StyleCompiler) (call : StyleCall) : ContentCache.IsKey (c.keyOf call) :=
  ContentCache.isKey_key _

/-- What a call gives if nothing is kept. -/
def fresh (c : StyleCompiler) (call : StyleCall) (w : StyleWorkspace) :
    Except StylesheetError Text :=
  (c.withoutCache.compile call.constants call.source w).1

/-- A build fails and changes nothing, or it parses one source.  What it gives does not depend on
what was done before. -/
lemma build_cases (hstyle : c.styles.has c.settings.style = true) (call : StyleCall) :
    (∃ e, (∀ w, c.fresh call w = .error e) ∧
        ∀ w, c.build call.constants call.source w = (.error e, w)) ∨
      ∃ css warnings, (∀ w, c.fresh call w = .ok css) ∧
        ∀ w, c.build call.constants call.source w
          = (.ok css, ⟨w.files, w.builds + 1, w.warnings ++ warnings⟩) := by
  have hfresh : ∀ w, c.fresh call w = (c.build call.constants call.source w).1 := by
    intro w
    simp only [fresh, compile, withoutCache, hstyle]
    rfl
  obtain ⟨renderer, hrenderer⟩ := Option.isSome_iff_exists.1 hstyle
  cases hparse : parseStyles c.settings.indent call.constants call.source with
  | error fault =>
      have hbuild : ∀ w, c.build call.constants call.source w = (.error (.calculation fault), w) :=
        fun w => by simp only [build, parse, hparse]
      exact .inl ⟨_, fun w => by rw [hfresh, hbuild], hbuild⟩
  | ok parsed =>
      have hbuild : ∀ w, c.build call.constants call.source w
          = (.ok (Text.trimEnd (renderer.render parsed.outline)),
            ⟨w.files, w.builds + 1, w.warnings ++ parsed.warnings⟩) :=
        fun w => by simp only [build, parse, hparse, renderOutline, hrenderer]
      exact .inr ⟨_, _, fun w => by rw [hfresh, hbuild], hbuild⟩

/-- The texts among the answers, under their keys. -/
def answered (answers : List (Text × Except StylesheetError Text)) : List (Text × Text) :=
  answers.filterMap fun (k, answer) => answer.toOption.map fun css => (k, css)

lemma lookup_append_singleton (kept : List (Text × Text)) (k css other : Text) :
    (kept ++ [(k, css)]).lookup other
      = (kept.lookup other).or (if other = k then some css else none) := by
  rw [List.lookup_append, List.lookup_cons]
  by_cases hother : other = k
  · simp [hother]
  · simp [hother, beq_false_of_ne hother]

/-- An answer that does not tell of an artifact that could not be written. -/
def Written (answer : Except StylesheetError Text) : Prop :=
  ∀ path cause, answer ≠ .error (.artifact (.write path cause))

/-- The accounts agree: the artifacts are the texts that were answered first under their keys, and
for each of them one source was parsed. -/
structure Accounts (c : StyleCompiler) (cache : ContentCache) (w₀ : StyleWorkspace)
    (calls : List StyleCall) (kept : List (Text × Text)) (w : StyleWorkspace) : Prop where
  current : w.files.current = w₀.files.current
  clock : w.files.clock = w₀.files.clock
  builds : w.builds = w₀.builds + (kept.map Prod.fst).toFinset.card
  file : ∀ l contents time, w₀.files.leadsTo cache.directory <+: l →
    (w.files.entry? l = some (.file contents time) ↔
      ∃ k css, kept.lookup k = some css ∧ l = w₀.files.leadsTo (cache.artifactPath k) ∧
        contents = .text css ∧ time = w₀.files.clock)
  found : ∀ k css, kept.lookup k = some css →
    w.files.locate (cache.artifactPath k) = .ok (w₀.files.leadsTo (cache.artifactPath k))
  compiled : ∀ k css, kept.lookup k = some css →
    ∃ call ∈ calls, c.keyOf call = k ∧ c.fresh call w₀ = .ok css

namespace Accounts

variable {calls : List StyleCall} {kept : List (Text × Text)}

lemma start (hempty : ∀ l, w.files.leadsTo cache.directory <+: l → w.files.NoFileAt l) :
    Accounts c cache w [] [] w where
  current := rfl
  clock := rfl
  builds := rfl
  found := by simp
  compiled := by simp
  file l contents time hl := by
    rcases hempty l hl with hnone | hdirectory
    · simp [hnone]
    · simp [hdirectory]

lemma isKey (h : Accounts c cache w₀ calls kept w) {k css : Text} (hk : kept.lookup k = some css) :
    ContentCache.IsKey k := by
  obtain ⟨call, -, rfl, -⟩ := h.compiled k css hk
  exact c.isKey_keyOf call

lemma leadsTo (h : Accounts c cache w₀ calls kept w) (p : FilePath) :
    w.files.leadsTo p = w₀.files.leadsTo p :=
  FileStore.leadsTo_congr h.current p

/-- What is kept under a key is found again. -/
lemma lookup_of_kept (h : Accounts c cache w₀ calls kept w) (hstays : cache.StaysBelow)
    {k css : Text} (hk : kept.lookup k = some css) :
    cache.lookup w.files k = .ok (some (Text.trimStart css)) := by
  have hlocate := h.found k css hk
  have hentry := (h.file _ (.text css) w₀.files.clock
    (ContentCache.directory_prefix_leadsTo hstays (h.isKey hk))).2 ⟨k, css, hk, rfl, rfl, rfl⟩
  have hfile : w.files.isFile (cache.artifactPath k) = true := by
    simp only [FileStore.isFile, FileStore.found?, hlocate, hentry]
  have hread : w.files.readText (cache.artifactPath k) = .ok css := by
    simp only [FileStore.readText, hlocate, bind, Except.bind, hentry]
    rfl
  rw [ContentCache.lookup, if_pos hfile, hread]

/-- Under a key that has no answer yet nothing is found. -/
lemma lookup_of_not_kept (h : Accounts c cache w₀ calls kept w) (hstays : cache.StaysBelow)
    {k : Text} (hkey : ContentCache.IsKey k) (hk : kept.lookup k = none) :
    cache.lookup w.files k = .ok none := by
  have hfile : w.files.isFile (cache.artifactPath k) = false := by
    by_contra hfile
    rw [Bool.not_eq_false, FileStore.isFile, FileStore.found?] at hfile
    cases hlocate : w.files.locate (cache.artifactPath k) with
    | error e => simp [hlocate] at hfile
    | ok l =>
        obtain rfl := FileStore.eq_leadsTo_of_locate hlocate
        rw [h.leadsTo] at hlocate
        cases hentry : w.files.entry? (w₀.files.leadsTo (cache.artifactPath k)) with
        | none => simp [hlocate, hentry] at hfile
        | some entry =>
            cases entry with
            | directory => simp [hlocate, hentry] at hfile
            | file contents time =>
                -- The file is the artifact of a key, and this key can be no other.
                obtain ⟨other, css, hother, hplace, -⟩ := (h.file _ _ _
                  (ContentCache.directory_prefix_leadsTo hstays hkey)).1 hentry
                obtain rfl :=
                  ContentCache.eq_of_leadsTo_artifactPath hstays hkey (h.isKey hother) hplace
                rw [hk] at hother
                cases hother
  rw [ContentCache.lookup, hfile, if_neg Bool.false_ne_true]

/-- What can become of a call: it finds what is kept, or it fails, or it is compiled and kept. -/
lemma compile_cases (h : Accounts c cache w₀ calls kept w) (hcache : c.cache = some cache)
    (hstays : cache.StaysBelow) (call : StyleCall)
    (hwritten : Written (c.compile call.constants call.source w).1) :
    (∃ css, kept.lookup (c.keyOf call) = some css ∧
      c.compile call.constants call.source w = (.ok (Text.trimStart css), w)) ∨
    (∃ e, c.fresh call w₀ = .error e ∧
      c.compile call.constants call.source w = (.error e, w)) ∨
    ∃ css warnings files, kept.lookup (c.keyOf call) = none ∧ c.fresh call w₀ = .ok css ∧
      cache.store w.files (c.keyOf call) css = (.ok (), files) ∧
      c.compile call.constants call.source w
        = (.ok css, ⟨files, w.builds + 1, w.warnings ++ warnings⟩) := by
  cases hstyle : c.styles.has c.settings.style with
  | false =>
      refine .inr (.inl ⟨.unknownStyle c.settings.style, ?_, ?_⟩)
      · simp [fresh, compile, withoutCache, hstyle]
      · simp [compile, hstyle]
  | true =>
      cases hkept : kept.lookup (c.keyOf call) with
      | some css =>
          have hlookup := h.lookup_of_kept hstays hkept
          rw [keyOf] at hlookup
          exact .inl ⟨css, rfl, by simp [compile, hstyle, hcache, hlookup]⟩
      | none =>
          have hlookup := h.lookup_of_not_kept hstays (c.isKey_keyOf call) hkept
          rw [keyOf] at hlookup
          right
          rcases build_cases hstyle call with ⟨e, hfresh, hbuild⟩ | ⟨css, warnings, hfresh, hbuild⟩
          · exact .inl ⟨e, hfresh w₀, by simp [compile, hstyle, hcache, hlookup, hbuild]⟩
          · right
            cases hstore : cache.store w.files (c.keyOf call) css with
            | mk result files =>
                rw [keyOf] at hstore
                cases result with
                | ok u =>
                    exact ⟨css, warnings, files, rfl, hfresh w₀, hstore,
                      by simp [compile, hstyle, hcache, hlookup, hbuild, hstore]⟩
                | error e =>
                    obtain ⟨path, cause, rfl⟩ := ContentCache.exists_write_of_store hstore
                    refine absurd ?_ (hwritten path cause)
                    simp [compile, hstyle, hcache, hlookup, hbuild, hstore]

/-- A call that fails, or that finds what is kept, changes nothing. -/
lemma append (h : Accounts c cache w₀ calls kept w) (call : StyleCall) :
    Accounts c cache w₀ (calls ++ [call]) kept w :=
  { h with
    compiled := fun k css hk => by
      obtain ⟨other, hmem, hother⟩ := h.compiled k css hk
      exact ⟨other, List.mem_append_left _ hmem, hother⟩ }

/-- What is answered again under a key does not count. -/
lemma again (h : Accounts c cache w₀ calls kept w) {k css : Text} (hk : kept.lookup k = some css)
    (more : Text) : Accounts c cache w₀ calls (kept ++ [(k, more)]) w := by
  have hlookup : ∀ other, (kept ++ [(k, more)]).lookup other = kept.lookup other := by
    intro other
    rw [lookup_append_singleton]
    split_ifs with hother
    · rw [hother, hk]
      rfl
    · rw [Option.or_none]
  have hkeys : (List.map Prod.fst (kept ++ [(k, more)])).toFinset
      = (kept.map Prod.fst).toFinset := by
    obtain ⟨pair, hpair, heq⟩ := List.lookup_isSome_iff.1 (Option.isSome_of_mem hk)
    have hmem : k ∈ kept.map Prod.fst := eq_of_beq heq ▸ List.mem_map_of_mem hpair
    ext other
    simp only [List.map_append, List.map_cons, List.map_nil, List.toFinset_append,
      Finset.mem_union, List.mem_toFinset, List.mem_singleton]
    exact or_iff_left_of_imp fun heq => heq ▸ hmem
  exact ⟨h.current, h.clock, hkeys ▸ h.builds, by simpa only [hlookup] using h.file,
    by simpa only [hlookup] using h.found, by simpa only [hlookup] using h.compiled⟩

section Store

variable {call : StyleCall} {css : Text} {files : FileStore}

lemma lookup_new (hnew : kept.lookup (c.keyOf call) = none) (k : Text) :
    (kept ++ [(c.keyOf call, css)]).lookup k
      = if k = c.keyOf call then some css else kept.lookup k := by
  rw [lookup_append_singleton]
  split_ifs with hk
  · rw [hk, hnew, Option.none_or]
  · rw [Option.or_none]

/-- The new artifact is a file beside those of the other keys. -/
lemma file_of_store (h : Accounts c cache w₀ calls kept w) (hstays : cache.StaysBelow)
    (hnew : kept.lookup (c.keyOf call) = none)
    (hstore : cache.store w.files (c.keyOf call) css = (.ok (), files)) {l : Location}
    (hl : w₀.files.leadsTo cache.directory <+: l) (contents : Contents) (time : Nat) :
    files.entry? l = some (.file contents time) ↔
      ∃ k out, (kept ++ [(c.keyOf call, css)]).lookup k = some out ∧
        l = w₀.files.leadsTo (cache.artifactPath k) ∧ contents = .text out ∧
        time = w₀.files.clock := by
  have hkey := c.isKey_keyOf call
  rw [FileStore.file_iff_of_writeArtifact hstore, h.leadsTo, h.clock, h.file l contents time hl]
  simp only [lookup_new hnew]
  generalize c.keyOf call = key at *
  split_ifs with hplace
  · constructor
    · rintro ⟨rfl, rfl⟩
      exact ⟨key, css, if_pos rfl, hplace, rfl, rfl⟩
    · rintro ⟨k, out, hout, hthere, rfl, rfl⟩
      split_ifs at hout with hk
      · cases hout
        exact ⟨rfl, rfl⟩
      · exact absurd (ContentCache.eq_of_leadsTo_artifactPath hstays (h.isKey hout) hkey
          (hthere.symm.trans hplace)) hk
  · constructor
    · rintro ⟨k, out, hout, hthere⟩
      refine ⟨k, out, ?_, hthere⟩
      rw [if_neg, hout]
      rintro rfl
      exact hplace hthere.1
    · rintro ⟨k, out, hout, hthere⟩
      refine ⟨k, out, ?_, hthere⟩
      rwa [if_neg] at hout
      rintro rfl
      exact hplace hthere.1

/-- What is compiled is kept beside the other artifacts. -/
lemma store (h : Accounts c cache w₀ calls kept w) (hstays : cache.StaysBelow)
    (hnew : kept.lookup (c.keyOf call) = none) (hfresh : c.fresh call w₀ = .ok css)
    (hstore : cache.store w.files (c.keyOf call) css = (.ok (), files))
    (warnings : List StyleWarning) :
    Accounts c cache w₀ (calls ++ [call]) (kept ++ [(c.keyOf call, css)])
      ⟨files, w.builds + 1, warnings⟩ := by
  have hkeeps := FileStore.keepsDirectories_of_writeArtifact hstore
  have hfile := fun l => h.file_of_store hstays hnew hstore (l := l)
  refine ⟨hkeeps.current.trans h.current,
    (FileStore.clock_of_writeArtifact hstore).trans h.clock, ?_, fun l contents time hl =>
      hfile l hl contents time, ?_, ?_⟩
  · have hnot : c.keyOf call ∉ (kept.map Prod.fst).toFinset := by
      rw [List.mem_toFinset, List.mem_map]
      rintro ⟨pair, hpair, hk⟩
      simpa [hk] using List.lookup_eq_none_iff.1 hnew pair hpair
    simp only [h.builds, List.map_append, List.map_cons, List.map_nil, List.toFinset_append]
    rw [Finset.card_union_of_disjoint (by simpa using hnot)]
    simp [Nat.add_assoc]
  · intro k out hout
    have hthere := hout
    rw [lookup_new hnew] at hout
    split_ifs at hout with hk
    · rw [hk, ← h.leadsTo]
      exact FileStore.locate_of_writeArtifact hstore
    · refine FileStore.locate_of_file hkeeps (h.found k out hout) ?_
      rw [(hfile _ (ContentCache.directory_prefix_leadsTo hstays (h.isKey hout)) _ _).2
        ⟨k, out, hthere, rfl, rfl, rfl⟩, Option.isSome_some]
  · intro k out hout
    rw [lookup_new hnew] at hout
    split_ifs at hout with hk
    · cases hout
      exact ⟨call, by simp, hk.symm, hfresh⟩
    · exact (h.append call).compiled k out hout

end Store

/-- **A call.**  However it ends, the accounts agree with what it is answered; if it fails, it
changes nothing, and it would fail if nothing were kept. -/
lemma step (h : Accounts c cache w₀ calls kept w) (hcache : c.cache = some cache)
    (hstays : cache.StaysBelow) (call : StyleCall)
    (hwritten : Written (c.compile call.constants call.source w).1) :
    Accounts c cache w₀ (calls ++ [call])
        (kept ++ answered [(c.keyOf call, (c.compile call.constants call.source w).1)])
        (c.compile call.constants call.source w).2 ∧
      ∀ e, (c.compile call.constants call.source w).1 = .error e →
        (c.compile call.constants call.source w).2 = w ∧ c.fresh call w₀ = .error e := by
  rcases h.compile_cases hcache hstays call hwritten with
    ⟨css, hkept, hresult⟩ | ⟨e, hfresh, hresult⟩ |
    ⟨css, warnings, files, hnew, hfresh, hstore, hresult⟩
  · rw [hresult]
    exact ⟨(h.append call).again hkept _, fun e he => nomatch he⟩
  · rw [hresult]
    refine ⟨?_, ?_⟩
    · exact (List.append_nil kept).symm ▸ h.append call
    · rintro _ ⟨⟩
      exact ⟨rfl, hfresh⟩
  · rw [hresult]
    exact ⟨h.store hstays hnew hfresh hstore _, fun e he => nomatch he⟩

end Accounts

/-! ## A run -/

/-- What comes of one call after the other: the key of each with its answer, and the workspace
after the last. -/
def runCalls (c : StyleCompiler) : List StyleCall → StyleWorkspace →
    List (Text × Except StylesheetError Text) × StyleWorkspace
  | [], w => ([], w)
  | call :: rest, w =>
    let first := c.compile call.constants call.source w
    let after := c.runCalls rest first.2
    ((c.keyOf call, first.1) :: after.1, after.2)

lemma runCalls_append (c : StyleCompiler) (first second : List StyleCall) (w : StyleWorkspace) :
    c.runCalls (first ++ second) w
      = ((c.runCalls first w).1 ++ (c.runCalls second (c.runCalls first w).2).1,
        (c.runCalls second (c.runCalls first w).2).2) := by
  induction first generalizing w with
  | nil => rfl
  | cons call rest ih => simp only [List.cons_append, runCalls, ih]

/-- After every run the accounts agree. -/
lemma accounts_runCalls (hcache : c.cache = some cache) (hstays : cache.StaysBelow)
    (hempty : ∀ l, w.files.leadsTo cache.directory <+: l → w.files.NoFileAt l)
    {calls : List StyleCall} (hwritten : ∀ entry ∈ (c.runCalls calls w).1, Written entry.2) :
    Accounts c cache w calls (answered (c.runCalls calls w).1) (c.runCalls calls w).2 := by
  induction calls using List.reverseRecOn with
  | nil => exact .start hempty
  | append_singleton calls call ih =>
      rw [runCalls_append] at hwritten ⊢
      have hbefore := ih fun entry hentry => hwritten entry (List.mem_append_left _ hentry)
      rw [answered, List.filterMap_append]
      exact (hbefore.step hcache hstays call
        (hwritten _ (List.mem_append_right _ List.mem_cons_self))).1

/-- **What is kept is what was answered.**  Let a compiler that keeps its output in a directory
without files answer any calls, and let no artifact fail to be written.

If the extension leads out of what is named after the key, all artifacts are in one place.  If it
does not, then the files below the directory are the artifacts of the keys that a call was answered
under, each in a place of its own, with the text that was answered first, as it is compiled; for
each of these keys one source was parsed; and every call that fails has left everything as it was,
and would fail if nothing were kept. -/
theorem runCalls_accounts (c : StyleCompiler) (cache : ContentCache) (hcache : c.cache = some cache)
    (w : StyleWorkspace)
    (hempty : ∀ l, w.files.leadsTo cache.directory <+: l → w.files.NoFileAt l)
    (calls : List StyleCall) (hwritten : ∀ entry ∈ (c.runCalls calls w).1, Written entry.2) :
    let kept := answered (c.runCalls calls w).1
    let place := fun k => w.files.leadsTo (cache.artifactPath k)
    (¬cache.StaysBelow → ∀ call₁ call₂, place (c.keyOf call₁) = place (c.keyOf call₂)) ∧
    (cache.StaysBelow →
      (∀ l contents time, w.files.leadsTo cache.directory <+: l →
        ((c.runCalls calls w).2.files.entry? l = some (.file contents time) ↔
          ∃ k css, kept.lookup k = some css ∧ l = place k ∧ contents = .text css ∧
            time = w.files.clock)) ∧
      (∀ call₁ call₂, place (c.keyOf call₁) = place (c.keyOf call₂) →
        c.keyOf call₁ = c.keyOf call₂) ∧
      (∀ k css, kept.lookup k = some css →
        w.files.leadsTo cache.directory <+: place k ∧
        ∃ call ∈ calls, c.keyOf call = k ∧ c.fresh call w = .ok css) ∧
      (c.runCalls calls w).2.builds = w.builds + (kept.map Prod.fst).toFinset.card ∧
      ∀ before call after, calls = before ++ call :: after →
        ∀ e, (c.compile call.constants call.source (c.runCalls before w).2).1 = .error e →
          (c.compile call.constants call.source (c.runCalls before w).2).2
              = (c.runCalls before w).2 ∧
            c.fresh call w = .error e) := by
  intro kept place
  refine ⟨fun hout call₁ call₂ => ContentCache.leadsTo_artifactPath_congr hout (c.isKey_keyOf _)
    (c.isKey_keyOf _), fun hstays => ?_⟩
  have haccounts := accounts_runCalls hcache hstays hempty hwritten
  refine ⟨haccounts.file, fun call₁ call₂ => ContentCache.eq_of_leadsTo_artifactPath hstays
    (c.isKey_keyOf _) (c.isKey_keyOf _), fun k css hk => ⟨?_, haccounts.compiled k css hk⟩,
    haccounts.builds, ?_⟩
  · exact ContentCache.directory_prefix_leadsTo hstays (haccounts.isKey hk)
  · rintro before call after rfl e he
    rw [runCalls_append] at hwritten
    have hbefore := accounts_runCalls hcache hstays hempty fun entry hentry =>
      hwritten entry (List.mem_append_left _ hentry)
    exact (hbefore.step hcache hstays call
      (hwritten _ (List.mem_append_right _ List.mem_cons_self))).2 e he

/-- Calls for two stylesheets, one of them twice, and for one that cannot be compiled. -/
def mixedCalls : List StyleCall :=
  [⟨[], "a\n  :top 0"⟩, ⟨[], "a\n  :top = 1 / 0"⟩, ⟨[], "a\n  :top 0"⟩,
    ⟨[("up", "2px")], "a\n  :top = !up * 2"⟩]

/-- Calls for two stylesheets, with the first one again after the second. -/
def returningCalls : List StyleCall :=
  [⟨[], "a\n  :top 0"⟩, ⟨[], "b\n  :top 1"⟩, ⟨[], "a\n  :top 0"⟩]

/-- A compiler with an extension that leads out of what is named after the key. -/
def misled : StyleCompiler :=
  (ofSettings { StyleSettings.standard with cacheExtension := "x/../y" }
    emptyWorkspace.files).withCacheDirectory "kept"

/-- Of the mixed calls two are kept.  With the extension that leads out, the second stylesheet
takes the place of the first, and is answered where the first is called for again. -/
theorem runCalls_accounts_mixedCalls :
    ((keeping.runCalls mixedCalls emptyWorkspace).1.map Prod.snd
        = [.ok "a \x7b\n  top: 0; \x7d", .error (.calculation ⟨2, .divisionByZero "1 / 0"⟩),
          .ok "a \x7b\n  top: 0; \x7d", .ok "a \x7b\n  top: 4px; \x7d"] ∧
      (ContentCache.mk "kept" "css").StaysBelow ∧
      (keeping.runCalls mixedCalls emptyWorkspace).2.builds = 0 + 2 ∧
      FileStore.entry? (keeping.runCalls mixedCalls emptyWorkspace).2.files
          ["kept", keeping.keyOf ⟨[], "a\n  :top 0"⟩ ++ ".css"]
        = some (.file (.text "a \x7b\n  top: 0; \x7d") 0)) ∧
    ((misled.runCalls returningCalls emptyWorkspace).1.map Prod.snd
        = [.ok "a \x7b\n  top: 0; \x7d", .ok "b \x7b\n  top: 1; \x7d",
          .ok "b \x7b\n  top: 1; \x7d"] ∧
      ¬(ContentCache.mk "kept" "x/../y").StaysBelow ∧
      emptyWorkspace.files.leadsTo ((ContentCache.mk "kept" "x/../y").artifactPath
          (misled.keyOf ⟨[], "a\n  :top 0"⟩))
        = emptyWorkspace.files.leadsTo ((ContentCache.mk "kept" "x/../y").artifactPath
          (misled.keyOf ⟨[], "b\n  :top 1"⟩))) := by
  have hempty : ∀ l, emptyWorkspace.files.NoFileAt l := by
    intro l
    cases l with
    | nil => exact .inr rfl
    | cons name rest => exact .inl rfl
  have hwritten : ∀ {c : StyleCompiler} {calls answers},
      (c.runCalls calls emptyWorkspace).1.map Prod.snd = answers →
      (∀ path cause, Except.error (.artifact (.write path cause)) ∉ answers) →
      ∀ entry ∈ (c.runCalls calls emptyWorkspace).1, Written entry.2 := by
    rintro c calls _ rfl hnone entry hentry path cause heq
    exact hnone path cause (heq ▸ List.mem_map_of_mem hentry)
  constructor
  · have hanswers : (keeping.runCalls mixedCalls emptyWorkspace).1.map Prod.snd
        = [.ok "a \x7b\n  top: 0; \x7d", .error (.calculation ⟨2, .divisionByZero "1 / 0"⟩),
          .ok "a \x7b\n  top: 0; \x7d", .ok "a \x7b\n  top: 4px; \x7d"] := by
      decide +kernel
    have hstays : (ContentCache.mk "kept" "css").StaysBelow := by decide
    obtain ⟨hfile, -, -, hbuilds, -⟩ := (runCalls_accounts keeping ⟨"kept", "css"⟩ rfl
      emptyWorkspace (fun l _ => hempty l) mixedCalls (hwritten hanswers (by simp))).2 hstays
    refine ⟨hanswers, hstays, hbuilds.trans (by decide +kernel), ?_⟩
    exact (hfile _ _ _ (by decide +kernel)).2 ⟨keeping.keyOf ⟨[], "a\n  :top 0"⟩,
      "a \x7b\n  top: 0; \x7d", by decide +kernel, by decide +kernel, rfl, rfl⟩
  · have hanswers : (misled.runCalls returningCalls emptyWorkspace).1.map Prod.snd
        = [.ok "a \x7b\n  top: 0; \x7d", .ok "b \x7b\n  top: 1; \x7d",
          .ok "b \x7b\n  top: 1; \x7d"] := by
      decide +kernel
    have hleaves : ¬(ContentCache.mk "kept" "x/../y").StaysBelow := by decide
    exact ⟨hanswers, hleaves, (runCalls_accounts misled ⟨"kept", "x/../y"⟩ rfl emptyWorkspace
      (fun l _ => hempty l) returningCalls (hwritten hanswers (by simp))).1 hleaves _ _⟩

end StyleCompiler

end Offside
