import Mathlib
import Offside.Proofs.ClearedArtifacts
import Offside.Proofs.Includes
import Offside.Template.Engine

/-!
# Kept code is never stale

Templates are written and compiled and kept code is cleared, in any order, while the time never goes
back.  Compiling a file then gives what compiling it without kept code gives.

**Sources.**  The code of a source that includes no file depends on nothing but the source
(`compileNamed_eq`).

**What has to be apart.**  Where the code of a template is kept depends on the file store alone, and
only through where the directory of sources leads (`KeptAt`).  Kept code has to be apart from other
kept code and from the templates, and must have a name (`Layout`).

**The invariant.**  Code that is newer than its template was made from what the template holds now
(`Current`).  Writing a template at a time makes it at least as new as any code there is, since no
code is newer than the present.  Storing code at the same time as its template makes code that does
not count.  Each step keeps the invariant, and what a step does is said once for all templates.
-/

namespace Offside

open FilePath Location FileStore

/-! ## Sources that include nothing -/

/-- A file system without files. -/
def FileStore.bare : FileStore := ⟨[], [], [], 0⟩

lemma FileStore.isFile_bare (p : FilePath) : bare.isFile p = false := by
  have hentry : ∀ l, bare.entry? l = some .directory ∨ bare.entry? l = none := by
    intro l
    cases l with
    | nil => exact .inl rfl
    | cons name rest => exact .inr rfl
  rw [isFile, found?]
  cases bare.locate p with
  | error e => rfl
  | ok l => rcases hentry l with h | h <;> simp [h]

namespace SourceReader

variable (r : SourceReader)

/-- The reader that finds no files. -/
def unaided : SourceReader := { r with files := .bare }

/-- Whether a source is read without looking for a file. -/
def IncludesNothing (source : Text) : Prop :=
  ∀ path, r.unaided.lines source ≠ .error (.sourceNotFound path)

variable {r}

lemma replaceLine_of_unaided {force : Override} {line : OriginLine}
    (h : ∀ path, r.unaided.replaceLine force line ≠ .error (.sourceNotFound path)) :
    r.replaceLine force line = r.unaided.replaceLine force line := by
  simp only [replaceLine] at h ⊢
  split_ifs at h ⊢ with hblank
  · rfl
  · cases hinclude : staticInclude? (withoutOverride line.text) with
    | none => rfl
    | some name =>
        simp only [hinclude, includeLines] at h
        rw [if_neg (by simp [unaided, isFile_bare])] at h
        exact absurd rfl (h _)

lemma resolveOnce_of_unaided {force : Override} {lines : List OriginLine}
    (h : ∀ path, r.unaided.resolveOnce force lines ≠ .error (.sourceNotFound path)) :
    r.resolveOnce force lines = r.unaided.resolveOnce force lines := by
  induction lines generalizing force with
  | nil => rfl
  | cons line rest ih =>
      rw [resolveOnce_cons] at h
      rw [resolveOnce_cons, resolveOnce_cons]
      cases hhere : r.unaided.replaceLine force line with
      | error e =>
          rw [replaceLine_of_unaided, hhere]
          · rfl
          · rw [hhere] at h ⊢
            exact h
      | ok here =>
          rw [hhere] at h
          have hafter : ∀ path, r.unaided.resolveOnce
              (forceAfter r.settings.indent force line.text) rest
                ≠ .error (.sourceNotFound path) := by
            intro path hpath
            exact h path (by simp [unaided] at hpath ⊢; simp [hpath, bind, Except.bind])
          rw [replaceLine_of_unaided (by simp [hhere]), hhere, ih hafter]
          rfl

lemma resolve_of_unaided {passes : Nat} {lines : List OriginLine}
    (h : ∀ path, r.unaided.resolve passes lines ≠ .error (.sourceNotFound path)) :
    r.resolve passes lines = r.unaided.resolve passes lines := by
  induction passes generalizing lines with
  | zero => rw [resolve, resolve]; rfl
  | succ passes ih =>
      rw [resolve] at h
      rw [resolve, resolve]
      split_ifs at h ⊢ with hdone
      · rfl
      · cases hpass : r.unaided.resolveOnce ⟨0, 0⟩ lines with
        | error e =>
            rw [resolveOnce_of_unaided, hpass]
            · rfl
            · rw [hpass] at h ⊢
              exact h
        | ok next =>
            rw [hpass] at h
            rw [resolveOnce_of_unaided (by simp [hpass]), hpass]
            exact ih h

lemma lines_of_includesNothing {source : Text} (h : r.IncludesNothing source) :
    r.lines source = r.unaided.lines source :=
  resolve_of_unaided h

end SourceReader

namespace Engine

variable {σ : Type} {e : Engine σ} {s s₀ s₁ : FileStore} {p path : FilePath} {l : Location}

/-- The reader of an engine, without files. -/
def reader (e : Engine σ) : SourceReader := ⟨e.settings, e.root, .bare⟩

/-- The code of a source that includes no files. -/
def codeOf (e : Engine σ) (source : Text) : Except TemplateError Text := do
  let lines ← e.reader.lines source
  let code ← templateCode e.settings e.blocks (templateOutline e.settings.indent lines) lines
  return e.applyFilters code

lemma compileNamed_eq (hdebug : e.settings.debug = false) {source : Text}
    (hplain : e.reader.IncludesNothing source) (name : Text) (w : Workspace σ) :
    (e.compileNamed name source w).1 = (e.codeOf source).map (⟨name, ·, none⟩) ∧
      (e.compileNamed name source w).2.files = w.files := by
  have hlines : SourceReader.lines ⟨e.settings, e.root, w.files⟩ source = e.reader.lines source :=
    SourceReader.lines_of_includesNothing (r := ⟨e.settings, e.root, w.files⟩) hplain
  simp only [compileNamed, codeOf, hlines]
  cases e.reader.lines source with
  | error cause => exact ⟨rfl, rfl⟩
  | ok lines =>
      simp only [bind, Except.bind, hdebug, Bool.false_eq_true, if_false]
      cases templateCode e.settings e.blocks (templateOutline e.settings.indent lines) lines with
      | error cause => exact ⟨rfl, rfl⟩
      | ok code => exact ⟨rfl, rfl⟩

/-- What a file with some contents compiles to. -/
def compiledFrom (e : Engine σ) (p : FilePath) : Contents → Except TemplateError CompiledTemplate
  | .text t => (e.codeOf t).map (⟨p, ·, none⟩)
  | .bytes _ => .error (.unreadable p .notText)

/-- Compiling a file without kept code is compiling what it holds. -/
lemma compileFresh_eq (hdebug : e.settings.debug = false) (w : Workspace σ)
    {source : Contents} {written : Nat} (hlocate : w.files.locate p = .ok l)
    (hsource : w.files.entry? l = some (.file source written))
    (hplain : ∀ t, source = .text t → e.reader.IncludesNothing t) :
    (e.compileFresh p w).1 = e.compiledFrom p source ∧
      (e.compileFresh p w).2.files = w.files := by
  cases source with
  | text t =>
      have hread : w.files.readText p = .ok t := by
        simp [readText, hlocate, hsource, bind, Except.bind, pure, Except.pure]
      simp only [compileFresh, hread]
      exact compileNamed_eq hdebug (hplain t rfl) p w
  | bytes value =>
      have hread : w.files.readText p = .error .notText := by
        simp [readText, hlocate, hsource, bind, Except.bind]
      simp only [compileFresh, hread]
      exact ⟨rfl, trivial⟩

/-! ## Templates and the places of their code -/

/-- A store that came about from another one while no directories were removed. -/
structure Since (s₀ s : FileStore) : Prop where
  keeps : KeepsDirectories s₀ s
  temporary : s.temporary = s₀.temporary
  sound : s.Sound

/-- The code of the template at a place can be kept under a path. -/
def KeptAt (e : Engine σ) (s₀ : FileStore) (l : Location) (a : FilePath) : Prop :=
  ∃ s p, Since s₀ s ∧ s.locate p = .ok l ∧ s.isFile p = true ∧ a = (e.artifacts s).artifactPath s p

/-- The code of templates can be kept: it has a name, nothing is where it is kept at first, and it
is apart from the other code and from the templates. -/
structure Layout (e : Engine σ) (s₀ : FileStore) (templates : Set Location) : Prop where
  /-- The templates are outside of the directory of artifacts. -/
  outside : ∀ l ∈ templates, ¬s₀.leadsTo (e.artifacts s₀).artifacts <+: l
  /-- The paths of kept code end in names. -/
  named : ∀ l ∈ templates, ∀ a, e.KeptAt s₀ l a → ∃ pre name, EndsIn a pre name
  /-- The code of different templates is kept at different places. -/
  distinct : ∀ l ∈ templates, ∀ l' ∈ templates, ∀ a a', e.KeptAt s₀ l a → e.KeptAt s₀ l' a' →
    s₀.leadsTo a = s₀.leadsTo a' → l = l'
  /-- No kept code is on the way to other kept code. -/
  passable : ∀ l ∈ templates, ∀ l' ∈ templates, ∀ a a', e.KeptAt s₀ l a → e.KeptAt s₀ l' a' →
    s₀.leadsTo a ∉ s₀.wayTo a'
  /-- No template is where code is kept or on the way there. -/
  apart : ∀ l ∈ templates, ∀ l' ∈ templates, ∀ a, e.KeptAt s₀ l a →
    l' ≠ s₀.leadsTo a ∧ l' ∉ s₀.wayTo a
  /-- Nothing is kept yet, and nothing is in the way. -/
  empty : ∀ l ∈ templates, ∀ a, e.KeptAt s₀ l a →
    s₀.entry? (s₀.leadsTo a) = none ∧ ∀ place ∈ s₀.wayTo a, s₀.NoFileAt place

/-- Kept code that is newer than its template is the code of what the template holds. -/
structure Current (e : Engine σ) (s₀ : FileStore) (templates : Set Location) (s : FileStore) :
    Prop where
  since : Since s₀ s
  /-- The code of a template can be kept. -/
  room : ∀ l ∈ templates, ∀ a, e.KeptAt s₀ l a →
    s.entry? (s₀.leadsTo a) ≠ some .directory ∧ ∀ place ∈ s₀.wayTo a, s.NoFileAt place
  plain : ∀ l ∈ templates, ∀ t written, s.entry? l = some (.file (.text t) written) →
    e.reader.IncludesNothing t
  code : ∀ l ∈ templates, ∀ a, e.KeptAt s₀ l a → ∀ contents made,
    s.entry? (s₀.leadsTo a) = some (.file contents made) → made ≤ s.clock ∧
      ∃ code, contents = .text code ∧ ∀ source written, s.entry? l = some (.file source written) →
        written < made → ∃ t, source = .text t ∧ e.codeOf t = .ok code

variable {templates : Set Location}

lemma current_start (hs : s₀.Sound) (hlayout : e.Layout s₀ templates)
    (hplain : ∀ l ∈ templates, ∀ t written, s₀.entry? l = some (.file (.text t) written) →
      e.reader.IncludesNothing t) : e.Current s₀ templates s₀ where
  since := ⟨⟨rfl, fun _ h => h⟩, rfl, hs⟩
  room l hl a ha := by
    obtain ⟨hnone, hway⟩ := hlayout.empty l hl a ha
    exact ⟨by simp [hnone], hway⟩
  plain := hplain
  code l hl a ha contents made hfile := by
    rw [(hlayout.empty l hl a ha).1] at hfile
    cases hfile

/-- The time goes on. -/
lemma Current.wait (h : e.Current s₀ templates s) {time : Nat} (htime : s.clock ≤ time) :
    e.Current s₀ templates { s with clock := time } where
  since := ⟨⟨h.since.keeps.current, h.since.keeps.directory⟩, h.since.temporary,
    ⟨h.since.sound.nodup, h.since.sound.root, h.since.sound.named, h.since.sound.parent,
      h.since.sound.current⟩⟩
  room := h.room
  plain := h.plain
  code l hl a ha contents made hfile :=
    ⟨(h.code l hl a ha contents made hfile).1.trans htime, (h.code l hl a ha contents made hfile).2⟩

/-- A template is written. -/
lemma Current.write (h : e.Current s₀ templates s) (hlayout : e.Layout s₀ templates)
    {source : Contents} (htemplate : s.leadsTo path ∈ templates)
    (hplain : ∀ t, source = .text t → e.reader.IncludesNothing t)
    (hwrite : s.writeAt path source s.clock = .ok s₁) :
    e.Current s₀ templates s₁ ∧ ∀ l, s₁.entry? l =
      if l = s.leadsTo path then some (.file source s.clock) else s.entry? l := by
  obtain ⟨place, hplace, hfree, rfl⟩ := exists_of_writeAt hwrite
  obtain rfl := leadsTo_of_walk (walk_of_place hplace).2
  have hentry := entry?_insert s (ne_nil_of_not_directory hfree) (.file source s.clock)
  have hkeeps := keepsDirectories_insert hfree (.file source s.clock)
  obtain ⟨hnamed, hparent⟩ := h.since.sound.of_place hplace
  refine ⟨⟨⟨⟨h.since.keeps.current, fun l hl => hkeeps.directory l (h.since.keeps.directory l hl)⟩,
    h.since.temporary, h.since.sound.insert hnamed hparent hfree _⟩, ?_, ?_, ?_⟩, hentry⟩
  · intro l hl a ha
    obtain ⟨hne, hway⟩ := hlayout.apart l hl _ htemplate a ha
    rw [hentry, if_neg (Ne.symm hne)]
    refine ⟨(h.room l hl a ha).1, fun q hq => ?_⟩
    have hpassed : q ≠ s.leadsTo path := by
      rintro rfl
      exact hway hq
    rw [NoFileAt, hentry, if_neg hpassed]
    exact (h.room l hl a ha).2 q hq
  · intro l hl t written hfile
    rw [hentry] at hfile
    split_ifs at hfile with heq
    · cases hfile
      exact hplain t rfl
    · exact h.plain l hl t written hfile
  · intro l hl a ha contents made hfile
    obtain ⟨hne, -⟩ := hlayout.apart l hl _ htemplate a ha
    rw [hentry, if_neg (Ne.symm hne)] at hfile
    obtain ⟨hmade, code, hcode, hfresh⟩ := h.code l hl a ha contents made hfile
    refine ⟨hmade, code, hcode, ?_⟩
    intro source' written hsource hnewer
    rw [hentry] at hsource
    split_ifs at hsource with heq
    · -- No code is newer than what is written now.
      cases hsource
      omega
    · exact hfresh source' written hsource hnewer

/-- Files other than templates are removed. -/
lemma Current.forget (h : e.Current s₀ templates s) (hsound : s₁.Sound)
    (hcurrent : s₁.current = s.current) (htemporary : s₁.temporary = s.temporary)
    (hclock : s₁.clock = s.clock)
    (hentry : ∀ l, s₁.entry? l = s.entry? l ∨
      s₁.entry? l = none ∧ s.entry? l ≠ some .directory ∧ l ∉ templates) :
    e.Current s₀ templates s₁ ∧ ∀ l ∈ templates, s₁.entry? l = s.entry? l := by
  have htemplate : ∀ l ∈ templates, s₁.entry? l = s.entry? l := by
    intro l hl
    rcases hentry l with hsame | ⟨-, -, hnot⟩
    · exact hsame
    · exact absurd hl hnot
  refine ⟨⟨⟨⟨hcurrent.trans h.since.keeps.current, ?_⟩, htemporary.trans h.since.temporary, hsound⟩,
    ?_, ?_, ?_⟩, htemplate⟩
  · intro l hl
    have hdirectory := h.since.keeps.directory l hl
    rcases hentry l with hsame | ⟨-, hnot, -⟩
    · rw [hsame, hdirectory]
    · exact absurd hdirectory hnot
  · intro l hl a ha
    obtain ⟨hend, hway⟩ := h.room l hl a ha
    constructor
    · rcases hentry (s₀.leadsTo a) with hsame | ⟨hnone, -⟩
      · rw [hsame]
        exact hend
      · simp [hnone]
    · intro q hq
      rcases hentry q with hsame | ⟨hnone, -⟩
      · rw [NoFileAt, hsame]
        exact hway q hq
      · exact .inl hnone
  · intro l hl t written hfile
    exact h.plain l hl t written (htemplate l hl ▸ hfile)
  · intro l hl a ha contents made hfile
    rcases hentry (s₀.leadsTo a) with hsame | ⟨hnone, -⟩
    · rw [hclock, htemplate l hl]
      exact h.code l hl a ha contents made (hsame ▸ hfile)
    · rw [hnone] at hfile
      cases hfile

lemma Since.artifacts_eq (h : Since s₀ s) : e.artifacts s = e.artifacts s₀ := by
  simp only [artifacts, TemplateSettings.cacheRoot, h.temporary]

/-- Kept code is cleared. -/
lemma Current.clear (h : e.Current s₀ templates s) (hlayout : e.Layout s₀ templates) :
    e.Current s₀ templates ((e.artifacts s).clear s).2 ∧
      ∀ l ∈ templates, FileStore.entry? ((e.artifacts s).clear s).2 l = s.entry? l := by
  obtain ⟨entries, heq⟩ := TimeCache.exists_clear_eq (c := e.artifacts s) h.since.sound
  refine h.forget (TimeCache.sound_clear h.since.sound) ?_ ?_ ?_ fun l => ?_
  · rw [heq]
  · rw [heq]
  · rw [heq]
  · rw [TimeCache.entry?_clear h.since.sound]
    split_ifs with hstored
    · right
      obtain ⟨-, hprefix, -⟩ := (TimeCache.mem_stored h.since.sound).1 hstored
      refine ⟨rfl, TimeCache.not_directory_of_mem_stored h.since.sound hstored,
        fun hl => hlayout.outside l hl ?_⟩
      rw [TimeCache.leadsTo_artifactDirectory, h.since.artifacts_eq,
        leadsTo_congr h.since.keeps.current] at hprefix
      exact (List.prefix_append _ _).trans hprefix
    · exact .inl rfl

/-! ## Looking up and keeping code -/

lemma isFile_iff : s.isFile p = true ↔
    ∃ l contents time, s.locate p = .ok l ∧ s.entry? l = some (.file contents time) := by
  rw [isFile, found?]
  cases s.locate p with
  | error e => simp
  | ok l =>
      cases hentry : s.entry? l with
      | none => simp [hentry]
      | some entry => cases entry <;> simp [hentry]

lemma keptAt_artifactPath (hsince : Since s₀ s) {source : Contents} {written : Nat}
    (hlocate : s.locate p = .ok l) (hsource : s.entry? l = some (.file source written)) :
    e.KeptAt s₀ l ((e.artifacts s).artifactPath s p) :=
  ⟨s, p, hsince, hlocate, isFile_iff.2 ⟨l, source, written, hlocate, hsource⟩, rfl⟩

lemma writtenAt_eq {contents : Contents} {time : Nat} (hlocate : s.locate p = .ok l)
    (hfile : s.entry? l = some (.file contents time)) : TimeCache.writtenAt s p = .ok time := by
  simp [TimeCache.writtenAt, modified, hlocate, hfile, bind, Except.bind, pure, Except.pure]

/-- What looking for the code of a template comes to: code that is there is the code of the
template, or there is none afterwards that could be mistaken for it. -/
lemma Current.lookup (h : e.Current s₀ templates s) (hlayout : e.Layout s₀ templates)
    (hl : l ∈ templates) (hlocate : s.locate p = .ok l) {source : Contents} {written : Nat}
    (hsource : s.entry? l = some (.file source written)) :
    (∃ t code, source = .text t ∧ e.codeOf t = .ok code ∧
      (e.artifacts s).lookup s p = (.ok (some code), s)) ∨
    ∃ s₁, (e.artifacts s).lookup s p = (.ok none, s₁) ∧ e.Current s₀ templates s₁ ∧
      s₁.locate p = .ok l ∧ ∀ l' ∈ templates, s₁.entry? l' = s.entry? l' := by
  have ha := keptAt_artifactPath (e := e) h.since hlocate hsource
  by_cases hthere : s.isFile ((e.artifacts s).artifactPath s p) = true
  · obtain ⟨place, contents, made, hplace, hfile⟩ := isFile_iff.1 hthere
    have hleads : place = s₀.leadsTo ((e.artifacts s).artifactPath s p) := by
      rw [eq_leadsTo_of_locate hplace, leadsTo_congr h.since.keeps.current]
    obtain ⟨-, code, rfl, hfresh⟩ := h.code l hl _ ha contents made (hleads ▸ hfile)
    by_cases hnewer : written < made
    · left
      obtain ⟨t, ht, hcode⟩ := hfresh source written hsource hnewer
      refine ⟨t, code, ht, hcode, ?_⟩
      simp [TimeCache.lookup, hthere, writtenAt_eq hplace hfile, writtenAt_eq hlocate hsource,
        hnewer, readText, hplace, hfile, bind, Except.bind, pure, Except.pure]
    · right
      have hfree : s.entry? place ≠ some .directory := by simp [hfile]
      have hentry := entry?_erase s (ne_nil_of_not_directory hfree)
      have hnot : ∀ l' ∈ templates, l' ≠ place := fun l' hl' =>
        hleads ▸ (hlayout.apart l hl l' hl' _ ha).1
      obtain ⟨hcurrent, htemplates⟩ :=
        h.forget (h.since.sound.erase hfree) rfl rfl rfl fun l' => by
          rw [hentry]
          split_ifs with heq
          · exact .inr ⟨rfl, heq ▸ hfree, fun hl' => hnot l' hl' heq⟩
          · exact .inl rfl
      refine ⟨s.erase place, ?_, hcurrent, ?_, htemplates⟩
      · simp [TimeCache.lookup, hthere, writtenAt_eq hplace hfile, writtenAt_eq hlocate hsource,
          hnewer, remove, hplace, hfile, bind, Except.bind, pure, Except.pure]
      · obtain ⟨hp, hwalk, -⟩ := locate_eq_ok.1 hlocate
        refine locate_eq_ok.2 ⟨hp, (keepsDirectories_erase hfree).walk hwalk, ?_⟩
        rw [htemplates l hl, hsource, Option.isSome_some]
  · right
    exact ⟨s, by simp [TimeCache.lookup, hthere], h, hlocate, fun _ _ => rfl⟩

/-- The code of a template is put where it is kept, in directories that are made for it. -/
lemma Current.put (h : e.Current s₀ templates s) (hlayout : e.Layout s₀ templates)
    (hl : l ∈ templates) {a : FilePath} (ha : e.KeptAt s₀ l a) {t code : Text} {written : Nat}
    (hsource : s.entry? l = some (.file (.text t) written)) (hcode : e.codeOf t = .ok code)
    (hadds : AddsDirectories (s₀.wayTo a) s s₁)
    (hfree : s₁.entry? (s₀.leadsTo a) ≠ some .directory)
    (hsound : Sound (s₁.insert (s₀.leadsTo a) (.file (.text code) s.clock))) :
    e.Current s₀ templates (s₁.insert (s₀.leadsTo a) (.file (.text code) s.clock)) ∧
      ∀ l' ∈ templates, FileStore.entry?
        (s₁.insert (s₀.leadsTo a) (.file (.text code) s.clock)) l' = s.entry? l' := by
  have hentry := entry?_insert s₁ (ne_nil_of_not_directory hfree) (.file (.text code) s.clock)
  have hkeeps := keepsDirectories_insert hfree (.file (.text code) s.clock)
  -- Where neither this code is nor the way to it, everything is as before.
  have hsame : ∀ l', l' ≠ s₀.leadsTo a → l' ∉ s₀.wayTo a →
      FileStore.entry? (s₁.insert (s₀.leadsTo a) (.file (.text code) s.clock)) l'
        = s.entry? l' := by
    intro l' hne hpassed
    rw [hentry, if_neg hne]
    rcases hadds.entry l' with heq | ⟨hmem, -⟩
    · exact heq
    · exact absurd hmem hpassed
  have htemplates : ∀ l' ∈ templates,
      FileStore.entry? (s₁.insert (s₀.leadsTo a) (.file (.text code) s.clock)) l'
        = s.entry? l' := fun l' hl' =>
    hsame l' (hlayout.apart l hl l' hl' a ha).1 (hlayout.apart l hl l' hl' a ha).2
  refine ⟨⟨⟨⟨?_, ?_⟩, ?_, hsound⟩, ?_, ?_, ?_⟩, htemplates⟩
  · exact hadds.current.trans h.since.keeps.current
  · exact fun l' hl' => hkeeps.directory l' (hadds.keeps (h.since.keeps.directory l' hl'))
  · exact hadds.temporary.trans h.since.temporary
  · intro l' hl' a' ha'
    constructor
    · by_cases heq : s₀.leadsTo a' = s₀.leadsTo a
      · rw [heq, hentry, if_pos rfl]
        simp
      · rw [hsame _ heq (hlayout.passable l' hl' l hl a' a ha' ha)]
        exact (h.room l' hl' a' ha').1
    · intro q hq
      have hne : q ≠ s₀.leadsTo a := by
        rintro rfl
        exact hlayout.passable l hl l' hl' a a' ha ha' hq
      rw [NoFileAt, hentry, if_neg hne]
      exact hadds.noFileAt ((h.room l' hl' a' ha').2 q hq)
  · intro l' hl' t' written' hfile
    exact h.plain l' hl' t' written' (htemplates l' hl' ▸ hfile)
  · intro l' hl' a' ha' contents made hfile
    by_cases heq : s₀.leadsTo a' = s₀.leadsTo a
    · -- The code that was just kept is of this template and of no other.
      obtain rfl := hlayout.distinct l' hl' l hl a' a ha' ha heq
      rw [heq, hentry, if_pos rfl] at hfile
      cases hfile
      refine ⟨hadds.clock.ge, code, rfl, ?_⟩
      intro source written' hsource' _
      rw [htemplates l' hl', hsource] at hsource'
      cases hsource'
      exact ⟨t, rfl, hcode⟩
    · rw [hsame _ heq (hlayout.passable l' hl' l hl a' a ha' ha)] at hfile
      rw [htemplates l' hl']
      obtain ⟨hmade, hrest⟩ := h.code l' hl' a' ha' contents made hfile
      exact ⟨hmade.trans hadds.clock.ge, hrest⟩

/-- The code of a template can be kept, and then it is the code of what the template holds. -/
lemma Current.writeArtifact (h : e.Current s₀ templates s) (hlayout : e.Layout s₀ templates)
    (hl : l ∈ templates) {a : FilePath} (ha : e.KeptAt s₀ l a) {t code : Text} {written : Nat}
    (hsource : s.entry? l = some (.file (.text t) written)) (hcode : e.codeOf t = .ok code) :
    ∃ s₁, writeArtifact s a code = (.ok (), s₁) ∧ e.Current s₀ templates s₁ ∧
      ∀ l' ∈ templates, s₁.entry? l' = s.entry? l' := by
  obtain ⟨pre, name, hends⟩ := hlayout.named l hl a ha
  have hleads := leadsTo_congr h.since.keeps.current a
  have hway := wayTo_congr h.since.keeps.current a
  have hroom := h.room l hl a ha
  have hpassed := hlayout.passable l hl l hl a a ha ha
  rw [← hleads, ← hway] at hroom hpassed
  obtain ⟨s₁, hwrite⟩ :=
    hends.exists_writeArtifact h.since.sound hroom.2 hroom.1 hpassed code
  refine ⟨s₁, hwrite, ?_⟩
  have hsound := hends.sound_writeArtifact h.since.sound hwrite
  obtain ⟨s₂, hadds, -, hfree, rfl⟩ := hends.of_writeArtifact hwrite
  rw [hleads] at hfree hsound ⊢
  rw [hway] at hadds
  exact h.put hlayout hl ha hsource hcode hadds hfree hsound

/-! ## Compiling -/

lemma isFile_of_resolve (h : e.resolve path s = .ok p) : s.isFile p = true := by
  simp only [resolve] at h
  split at h
  · next found hfound =>
      cases h
      exact List.find?_some hfound
  · cases h

lemma Current.plain_source (h : e.Current s₀ templates s) (hl : l ∈ templates)
    {source : Contents} {written : Nat} (hsource : s.entry? l = some (.file source written)) :
    ∀ t, source = .text t → e.reader.IncludesNothing t := by
  rintro t rfl
  exact h.plain l hl t written hsource

/-- A template that is compiled gives its code, and that is what is kept. -/
lemma Current.compileAndKeep {w : Workspace σ} (h : e.Current s₀ templates w.files)
    (hlayout : e.Layout s₀ templates) (hdebug : e.settings.debug = false) (hl : l ∈ templates)
    (hlocate : w.files.locate p = .ok l) {source : Contents} {written : Nat}
    (hsource : w.files.entry? l = some (.file source written)) :
    (e.compileAndKeep p w).1 = e.compiledFrom p source ∧
    e.Current s₀ templates (e.compileAndKeep p w).2.files ∧
    ∀ l ∈ templates, FileStore.entry? (e.compileAndKeep p w).2.files l = w.files.entry? l := by
  obtain ⟨hresult, hfiles⟩ :=
    compileFresh_eq hdebug w hlocate hsource (h.plain_source hl hsource)
  rw [Engine.compileAndKeep]
  cases hcompiled : e.compileFresh p w with
  | mk result w₁ =>
      rw [hcompiled] at hresult hfiles
      simp only at hresult hfiles
      cases result with
      | error cause =>
          simp only [hfiles]
          exact ⟨hresult, h, fun _ _ => trivial⟩
      | ok template =>
          cases source with
          | bytes value => cases hresult
          | text t =>
              cases hcode : e.codeOf t with
              | error cause => simp [compiledFrom, hcode, Except.map] at hresult
              | ok code =>
                  simp only [compiledFrom, hcode, Except.map, Except.ok.injEq] at hresult ⊢
                  have ha := keptAt_artifactPath (e := e) h.since hlocate hsource
                  obtain ⟨s₁, hwrite, hcurrent, hsame⟩ :=
                    h.writeArtifact hlayout hl ha hsource hcode
                  rw [hresult]
                  simp only [hfiles, TimeCache.store, hwrite]
                  exact ⟨trivial, hcurrent, hsame⟩

/-- Compiling gives what compiling without kept code gives, and what is kept afterwards is the code
of what the templates hold. -/
lemma Current.compileFile {w : Workspace σ} (h : e.Current s₀ templates w.files)
    (hlayout : e.Layout s₀ templates) (hcache : e.keepsArtifacts = true)
    (htemplate : ∀ p, e.resolve path w.files = .ok p → w.files.leadsTo p ∈ templates) :
    (e.compileFile path w).1 = (e.resolve path w.files).bind (fun p => (e.compileFresh p w).1) ∧
    e.Current s₀ templates (e.compileFile path w).2.files ∧
    ∀ l ∈ templates, FileStore.entry? (e.compileFile path w).2.files l = w.files.entry? l := by
  have hdebug : e.settings.debug = false := by
    simp only [keepsArtifacts, Bool.and_eq_true, Bool.not_eq_true'] at hcache
    exact hcache.2
  cases hresolve : e.resolve path w.files with
  | error cause =>
      simp only [Engine.compileFile, hresolve]
      exact ⟨rfl, h, fun _ _ => trivial⟩
  | ok p =>
      obtain ⟨l, source, written, hlocate, hsource⟩ := isFile_iff.1 (isFile_of_resolve hresolve)
      have hl : l ∈ templates := eq_leadsTo_of_locate hlocate ▸ htemplate p hresolve
      have hfresh := (compileFresh_eq hdebug w hlocate hsource (h.plain_source hl hsource)).1
      simp only [Except.bind, hfresh, Engine.compileFile, hresolve, hcache, Bool.not_true,
        Bool.false_eq_true, if_false]
      rcases h.lookup hlayout hl hlocate hsource with
        ⟨t, code, rfl, hcode, hlookup⟩ | ⟨s₁, hlookup, hcurrent, hlocate₁, hsame⟩
      · simp only [hlookup, compiledFrom, hcode, Except.map]
        exact ⟨trivial, h, fun _ _ => trivial⟩
      · -- There is no code to use: the template is compiled and its code is kept.
        simp only [hlookup]
        obtain ⟨hresult, hkept, hsame₁⟩ := Current.compileAndKeep (w := { w with files := s₁ })
          hcurrent hlayout hdebug hl hlocate₁ ((hsame l hl).trans hsource)
        exact ⟨hresult, hkept, fun l' hl' => (hsame₁ l' hl').trans (hsame l' hl')⟩

end Engine

/-! ## Sessions -/

/-- What a place holds, if it is a file. -/
def FileStore.contentsAt (s : FileStore) (l : Location) : Option Contents :=
  match s.entry? l with
  | some (.file contents _) => some contents
  | _ => none

lemma FileStore.contentsAt_congr {s s' : FileStore} {l : Location}
    (h : s'.entry? l = s.entry? l) : s'.contentsAt l = s.contentsAt l := by
  rw [contentsAt, contentsAt, h]

/-- The same at a later time. -/
def Workspace.at {σ : Type} (w : Workspace σ) (time : Nat) : Workspace σ :=
  { w with files := { w.files with clock := time } }

namespace Engine

variable {σ : Type} {e : Engine σ} {templates : Set Location} {w₀ w : Workspace σ}
  {last : Location → Option Contents}

/-- The states that are reached by writing templates that include nothing, compiling templates and
clearing kept code, while the time does not go back.  With each goes what was last written to every
place. -/
inductive Session (e : Engine σ) (templates : Set Location) (w₀ : Workspace σ) :
    Workspace σ → (Location → Option Contents) → Prop
  | start : Session e templates w₀ w₀ w₀.files.contentsAt
  | write {w : Workspace σ} {last : Location → Option Contents} {time : Nat} {path : FilePath}
      {source : Contents} {files : FileStore} (h : Session e templates w₀ w last)
      (htime : w.files.clock ≤ time) (htemplate : w.files.leadsTo path ∈ templates)
      (hplain : ∀ t, source = .text t → e.reader.IncludesNothing t)
      (hwrite : (w.at time).files.writeAt path source time = .ok files) :
      Session e templates w₀ { w with files := files }
        (Function.update last (w.files.leadsTo path) (some source))
  | compile {w : Workspace σ} {last : Location → Option Contents} {time : Nat} {path : FilePath}
      (h : Session e templates w₀ w last) (htime : w.files.clock ≤ time)
      (htemplate : ∀ p, e.resolve path (w.at time).files = .ok p →
        w.files.leadsTo p ∈ templates) :
      Session e templates w₀ (e.compileFile path (w.at time)).2 last
  | clear {w : Workspace σ} {last : Location → Option Contents} {time : Nat}
      (h : Session e templates w₀ w last) (htime : w.files.clock ≤ time) :
      Session e templates w₀ (e.clearCompiled (w.at time)).2 last

lemma Session.current (h : e.Session templates w₀ w last) (hcache : e.keepsArtifacts = true)
    (hs : w₀.files.Sound) (hlayout : e.Layout w₀.files templates)
    (hplain : ∀ l ∈ templates, ∀ t written,
      w₀.files.entry? l = some (.file (.text t) written) → e.reader.IncludesNothing t) :
    e.Current w₀.files templates w.files ∧ ∀ l ∈ templates, w.files.contentsAt l = last l := by
  induction h with
  | start => exact ⟨current_start hs hlayout hplain, fun _ _ => rfl⟩
  | @write w last time path source files _ htime htemplate hsource hwrite ih =>
      obtain ⟨hcurrent, hlast⟩ := ih
      obtain ⟨hwritten, hentry⟩ :=
        (hcurrent.wait htime).write hlayout htemplate hsource hwrite
      replace hentry : ∀ l, files.entry? l = if l = w.files.leadsTo path
          then some (.file source time) else w.files.entry? l := hentry
      refine ⟨hwritten, fun l hl => ?_⟩
      rw [Function.update_apply]
      split_ifs with heq
      · rw [contentsAt, hentry, if_pos heq]
      · rw [contentsAt_congr ((hentry l).trans (if_neg heq)), hlast l hl]
  | @compile w last time path _ htime htemplate ih =>
      obtain ⟨hcurrent, hlast⟩ := ih
      obtain ⟨-, hcompiled, hsame⟩ := Current.compileFile (w := w.at time) (hcurrent.wait htime)
        hlayout hcache htemplate
      exact ⟨hcompiled, fun l hl => (contentsAt_congr (hsame l hl)).trans (hlast l hl)⟩
  | @clear w last time _ htime ih =>
      obtain ⟨hcurrent, hlast⟩ := ih
      obtain ⟨hcleared, hsame⟩ := (hcurrent.wait htime).clear hlayout
      exact ⟨hcleared, fun l hl => (contentsAt_congr (hsame l hl)).trans (hlast l hl)⟩

/-- **Kept code is never stale.**  However templates were written and compiled and kept code was
cleared, a template compiles to what it compiles to without kept code, and its file holds what was
last written to it.

This needs that kept code has a name and is apart from the templates, which is more than that it is
apart from other kept code: a template whose extension is that of kept code is lost when there is no
directory of sources, for then its code is kept in its own place. -/
theorem compileFile_eq_compileFresh (hcache : e.keepsArtifacts = true) (hs : w₀.files.Sound)
    (hlayout : e.Layout w₀.files templates)
    (hplain : ∀ l ∈ templates, ∀ t written,
      w₀.files.entry? l = some (.file (.text t) written) → e.reader.IncludesNothing t)
    (hsession : e.Session templates w₀ w last) {time : Nat} (htime : w.files.clock ≤ time)
    {path : FilePath}
    (htemplate : ∀ p, e.resolve path (w.at time).files = .ok p →
      w.files.leadsTo p ∈ templates) :
    (e.compileFile path (w.at time)).1
      = (e.resolve path (w.at time).files).bind (fun p => (e.compileFresh p (w.at time)).1) ∧
    ∀ l ∈ templates, w.files.contentsAt l = last l := by
  obtain ⟨hcurrent, hlast⟩ := hsession.current hcache hs hlayout hplain
  refine ⟨?_, hlast⟩
  exact (Current.compileFile (w := w.at time) (hcurrent.wait htime) hlayout hcache htemplate).1

/-! ## A site -/

/-- Where the code of a template is kept that is below a directory of sources that is there. -/
lemma KeptAt.eq_of_directory {s₀ : FileStore} {r below : Location} {a : FilePath}
    (hroot : s₀.locate e.root = .ok r) (hdirectory : s₀.entry? r = some .directory)
    (h : e.KeptAt s₀ (r ++ below) a) :
    a = opened (e.artifacts s₀).artifacts ++ Text.join "/"
      (renameLast (TimeCache.tag r.path :: below) e.settings.compiledExtension) := by
  obtain ⟨s, p, hsince, hlocate, -, rfl⟩ := h
  obtain ⟨hp, hwalk, -⟩ := locate_eq_ok.1 hroot
  have hthere := hsince.keeps.directory r hdirectory
  have hstill : s.locate (e.artifacts s).sources = .ok r := by
    refine locate_eq_ok.2 ⟨hp, ?_, by rw [hthere, Option.isSome_some]⟩
    rw [start_congr hsince.keeps.current]
    exact hsince.keeps.walk hwalk
  have hnamed := hsince.sound.named _ (locate_eq_ok.1 hlocate).2.2
  have hr : Named r := fun name hname => hnamed name (List.mem_append_left _ hname)
  have hbelow : Named below := fun name hname => hnamed name (List.mem_append_right _ hname)
  have hparts : parts (s.canonical (e.artifacts s).sources) = ['/'] :: r := by
    rw [canonical_of_locate hstill, parts_path hr]
  have hsplit := TimeCache.split_below (canonical_of_locate hlocate) hnamed hparts rfl
  rw [TimeCache.artifactPath_of_split hbelow (by rw [hsplit]), hsplit, canonical_of_locate hstill,
    hsince.artifacts_eq]
  rfl

lemma includesNothing_of_isOk {r : SourceReader} {source : Text}
    (h : (r.unaided.lines source).isOk = true) : r.IncludesNothing source := by
  intro path herror
  rw [herror] at h
  cases h

lemma eq_ok_toOption_getD {ε α : Type} {x : Except ε α} (h : x.isOk = true) (other : α) :
    x = .ok (x.toOption.getD other) := by
  cases x with
  | error cause => cases h
  | ok a => rfl

/-- An engine for the templates of a directory. -/
def siteEngine : Engine Unit :=
  .ofSettings { TemplateSettings.standard with cacheDirectory := some "/out" } "/site"

/-- A directory with one template that is there and room for another. -/
def siteWorkspace : Workspace Unit := ⟨TimeCache.smallSite, 0, ()⟩

/-- The place of the template that is there. -/
def homePage : Location := ["site", "home.haml"]

/-- The place of the other template. -/
def aboutPage : Location := ["site", "pages", "about.haml"]

/-- The places of the two templates. -/
def sitePages : Set Location := {homePage, aboutPage}

lemma mem_sitePages {l : Location} : l ∈ sitePages ↔ l = homePage ∨ l = aboutPage := Iff.rfl

lemma keptAt_sitePages {l : Location} (hl : l ∈ sitePages) {a : FilePath}
    (h : siteEngine.KeptAt siteWorkspace.files l a) :
    (l = homePage ∧ a = "/out/61f461fe44f7e2fe/home.tpl") ∨
    (l = aboutPage ∧ a = "/out/61f461fe44f7e2fe/pages/about.tpl") := by
  have hroot : siteWorkspace.files.locate siteEngine.root = .ok ["site"] := rfl
  rcases mem_sitePages.1 hl with rfl | rfl
  · left
    have hbelow : siteEngine.KeptAt siteWorkspace.files (["site"] ++ ["home.haml"]) a := h
    refine ⟨rfl, ?_⟩
    rw [hbelow.eq_of_directory hroot rfl]
    decide +kernel
  · right
    have hbelow : siteEngine.KeptAt siteWorkspace.files (["site"] ++ ["pages", "about.haml"]) a := h
    refine ⟨rfl, ?_⟩
    rw [hbelow.eq_of_directory hroot rfl]
    decide +kernel

lemma layout_sitePages : siteEngine.Layout siteWorkspace.files sitePages where
  outside := by
    intro l hl
    rcases mem_sitePages.1 hl with rfl | rfl <;> decide +kernel
  named := by
    intro l hl a ha
    rcases keptAt_sitePages hl ha with ⟨-, rfl⟩ | ⟨-, rfl⟩
    · refine ⟨"/out/61f461fe44f7e2fe/", "home.tpl", rfl, by decide +kernel, ?_⟩
      simp
    · refine ⟨"/out/61f461fe44f7e2fe/pages/", "about.tpl", rfl, by decide +kernel, ?_⟩
      simp
  distinct := by
    intro l hl l' hl' a a' ha ha'
    rcases keptAt_sitePages hl ha with ⟨rfl, rfl⟩ | ⟨rfl, rfl⟩ <;>
      rcases keptAt_sitePages hl' ha' with ⟨rfl, rfl⟩ | ⟨rfl, rfl⟩ <;> decide +kernel
  passable := by
    intro l hl l' hl' a a' ha ha'
    rcases keptAt_sitePages hl ha with ⟨rfl, rfl⟩ | ⟨rfl, rfl⟩ <;>
      rcases keptAt_sitePages hl' ha' with ⟨rfl, rfl⟩ | ⟨rfl, rfl⟩ <;> decide +kernel
  apart := by
    intro l hl l' hl' a ha
    rcases keptAt_sitePages hl ha with ⟨rfl, rfl⟩ | ⟨rfl, rfl⟩ <;>
      rcases mem_sitePages.1 hl' with rfl | rfl <;> decide +kernel
  empty := by
    intro l hl a ha
    rcases keptAt_sitePages hl ha with ⟨rfl, rfl⟩ | ⟨rfl, rfl⟩ <;> decide +kernel

/-- The state after a template was compiled at a time. -/
def compiledOnce : Workspace Unit :=
  (siteEngine.compileFile "/site/home.haml" (siteWorkspace.at 5)).2

/-- The state after it was then written anew at the same time. -/
def rewrittenOnce : Workspace Unit :=
  { compiledOnce with files := ((compiledOnce.at 5).files.writeAt "/site/home.haml"
      (.text "%p y") 5).toOption.getD compiledOnce.files }

/-- A template that is written anew within the same tick of the clock is compiled anew. -/
theorem compileFile_eq_compileFresh_rewritten :
    (∃ last, siteEngine.Session sitePages siteWorkspace rewrittenOnce last ∧
      last homePage = some (.text "%p y")) ∧
    (siteEngine.compileFile "/site/home.haml" (rewrittenOnce.at 5)).1
      = .ok ⟨"/site/home.haml", "<p>y</p>\n", none⟩ := by
  have hplain : ∀ l ∈ sitePages, ∀ t written,
      siteWorkspace.files.entry? l = some (.file (.text t) written) →
        siteEngine.reader.IncludesNothing t := by
    intro l hl t written hfile
    rcases mem_sitePages.1 hl with rfl | rfl
    · cases hfile
      exact includesNothing_of_isOk (by decide +kernel)
    · cases hfile
  have hcompile : siteEngine.Session sitePages siteWorkspace compiledOnce
      siteWorkspace.files.contentsAt := by
    refine .compile .start (by decide) fun p hp => ?_
    have hresolve : siteEngine.resolve "/site/home.haml" (siteWorkspace.at 5).files
        = .ok "/site/home.haml" := by decide +kernel
    rw [hresolve] at hp
    cases hp
    exact mem_sitePages.2 (.inl (by decide +kernel))
  have hplace : compiledOnce.files.leadsTo "/site/home.haml" = homePage := by
    decide +kernel
  have hrewrite : siteEngine.Session sitePages siteWorkspace rewrittenOnce
      (Function.update siteWorkspace.files.contentsAt
        (compiledOnce.files.leadsTo "/site/home.haml") (some (.text "%p y"))) := by
    refine .write hcompile (by decide +kernel) (mem_sitePages.2 (.inl hplace)) ?_
      (eq_ok_toOption_getD (by decide +kernel) _)
    rintro t ⟨⟩
    exact includesNothing_of_isOk (by decide +kernel)
  constructor
  · exact ⟨_, hrewrite, by rw [hplace, Function.update_self]⟩
  · refine (compileFile_eq_compileFresh (by decide) TimeCache.sound_smallSite layout_sitePages
      hplain hrewrite (by decide +kernel) fun p hp => ?_).1.trans (by decide +kernel)
    have hresolve : siteEngine.resolve "/site/home.haml" (rewrittenOnce.at 5).files
        = .ok "/site/home.haml" := by decide +kernel
    rw [hresolve] at hp
    cases hp
    exact mem_sitePages.2 (.inl (by decide +kernel))

end Engine

end Offside
