import Mathlib
import Offside.Template.Engine

/-!
# Programs of a host runtime

What a runtime does with the code of a template is up to the host.  All that is said about it here
is that it calls finitely many functions, and, where it is needed, that rendering fails if a call
does.

**Executions.**  An execution is a tree (`Execution`): it is done, it calls a function and goes on
with the answer, or it looks at the workspace and changes it.  Trees have no infinite paths, so
every run ends.  A program gives an execution to every code, from the values and the names of the
functions alone, and makes a runtime (`HostProgram.runtime`).  It is strict if a call that fails
makes rendering fail (`HostProgram.Strict`).  The runtime that renders pages carries out a strict
program (`pageRuntime_eq`, `strict_pageProgram`).

**Functions.**  The functions of a rendering are those of the engine and `include`, whose place in
the registry does not depend on what it does (`Engine.answer_renderFunctions`).

**Compiling.**  Compiling a file reads and changes files and counts, and nothing of the host
(`Engine.uniform_compileFile`).
-/

namespace Offside

variable {σ : Type}

/-! ## Actions -/

namespace HostAction

variable {α β : Type} {w w' : Workspace σ}

lemma run_bind (action : HostAction σ α) (next : α → HostAction σ β) (w : Workspace σ) :
    (action >>= next).run w = ExceptT.bindCont next (action.run w).1 (action.run w).2 := rfl

lemma run_bind_ok {action : HostAction σ α} {value : α} (h : action.run w = (.ok value, w'))
    (next : α → HostAction σ β) : (action >>= next).run w = (next value).run w' := by
  rw [run_bind, h]
  rfl

lemma run_bind_error {action : HostAction σ α} {cause : Text}
    (h : action.run w = (.error cause, w')) (next : α → HostAction σ β) :
    (action >>= next).run w = (.error cause, w') := by
  rw [run_bind, h]
  rfl

end HostAction

/-! ## Executions -/

/-- Rendering failed, not reading or compiling a file. -/
def RenderingFailed (result : Except TemplateError Text) : Prop :=
  ∃ name cause, result = .error (.rendering name cause)

/-- What a runtime does when it runs a code. -/
inductive Execution (σ : Type) where
  | done (result : Except TemplateError Text)
  | call (function : Text) (arguments : Fields) (next : Except Text Json → Execution σ)
  | step (change : Workspace σ → Workspace σ) (next : Workspace σ → Execution σ)

namespace Execution

/-- Carry out an execution, with the functions that have the given names. -/
def run (answer : Text → HostFunction σ) :
    Execution σ → Workspace σ → Except TemplateError Text × Workspace σ
  | done result, w => (result, w)
  | call function arguments next, w =>
    let answered := (answer function arguments).run w
    (next answered.1).run answer answered.2
  | step change next, w => (next w).run answer (change w)

/-- Whatever it is told, rendering fails. -/
def Fails : Execution σ → Prop
  | done result => RenderingFailed result
  | call _ _ next => ∀ answer, (next answer).Fails
  | step _ next => ∀ w, (next w).Fails

/-- Once a call fails, rendering does. -/
def Strict : Execution σ → Prop
  | done _ => True
  | call _ _ next => (∀ cause, (next (.error cause)).Fails) ∧ ∀ value, (next (.ok value)).Strict
  | step _ next => ∀ w, (next w).Strict

lemma Fails.run {execution : Execution σ} (h : execution.Fails) (answer : Text → HostFunction σ)
    (w : Workspace σ) : RenderingFailed (execution.run answer w).1 := by
  induction execution generalizing w with
  | done result => exact h
  | call function arguments next ih => exact ih _ (h _) _
  | step change next ih => exact ih w (h w) (change w)

end Execution

/-- The execution of a code under a name, from the values and the names of the functions. -/
abbrev HostProgram (σ : Type) := Text → Text → Fields → List Text → Execution σ

/-- The runtime that carries out a program. -/
def HostProgram.runtime (program : HostProgram σ) : HostRuntime σ :=
  fun name code bindings functions w =>
    (program name code bindings functions.names).run functions.answer w

/-- A call that fails makes every rendering fail. -/
def HostProgram.Strict (program : HostProgram σ) : Prop :=
  ∀ name code bindings functions, (program name code bindings functions).Strict

/-- The calls of a page as an execution. -/
def HostCalls.execution (name : Text) : HostCalls Text → Execution σ
  | done value => .done (.ok value)
  | fail cause => .done (.error (.rendering name cause))
  | call function arguments next => .call function arguments fun
    | .ok value => (next value).execution name
    | .error cause => .done (.error (.rendering name cause))

/-- The program that renders pages. -/
def pageProgram : HostProgram σ := fun name code bindings functions =>
  (renderPage functions bindings code).execution name

lemma HostCalls.run_execution (functions : Registry (HostFunction σ)) (name : Text)
    (calls : HostCalls Text) (w : Workspace σ) :
    (calls.execution name).run functions.answer w
      = match (calls.run functions).run w with
        | (.ok written, w) => (.ok written, w)
        | (.error cause, w) => (.error (.rendering name cause), w) := by
  induction calls generalizing w with
  | done value => rfl
  | fail cause => rfl
  | call function arguments next ih =>
      rw [HostCalls.execution, Execution.run, HostCalls.run]
      cases hanswer : (functions.answer function arguments).run w with
      | mk result w' =>
          cases result with
          | error cause =>
              rw [HostAction.run_bind_error hanswer]
              rfl
          | ok value =>
              rw [HostAction.run_bind_ok hanswer]
              exact ih value w'

lemma HostCalls.strict_execution (name : Text) (calls : HostCalls Text) :
    (calls.execution name : Execution σ).Strict := by
  induction calls with
  | done value => trivial
  | fail cause => trivial
  | call function arguments next ih =>
      rw [HostCalls.execution, Execution.Strict]
      exact ⟨fun cause => ⟨name, cause, rfl⟩, ih⟩

/-- Rendering pages is carrying out a program. -/
lemma pageRuntime_eq : (pageRuntime : HostRuntime σ) = pageProgram.runtime := by
  funext name code bindings functions w
  exact ((renderPage functions.names bindings code).run_execution functions name w).symm

lemma strict_pageProgram : (pageProgram : HostProgram σ).Strict :=
  fun name code bindings functions => (renderPage functions bindings code).strict_execution name

/-! ## Registries -/

namespace Registry

variable {α β : Type} {r : Registry α}

/-- Replace every thing of a registry. -/
def map (f : α → β) (r : Registry α) : Registry β :=
  ⟨r.entries.map fun (name, value) => (name, f value)⟩

lemma names_map (f : α → β) (r : Registry α) : (r.map f).names = r.names := by
  simp [names, map]

lemma get?_map (f : α → β) (r : Registry α) (name : Text) :
    (r.map f).get? name = (r.get? name).map f := by
  simp only [get?, map, List.find?_map, Option.map_map]
  rfl

lemma has_map (f : α → β) (r : Registry α) (name : Text) : (r.map f).has name = r.has name := by
  rw [has, has, get?_map, Option.isSome_map]

lemma map_register (f : α → β) (r : Registry α) (name : Text) (value : α) :
    (r.register name value).map f = (r.map f).register name (f value) := by
  obtain ⟨entries⟩ := r
  simp only [register, map, mk.injEq]
  induction entries with
  | nil => rfl
  | cons entry rest ih =>
      simp only [registerIn, List.map_cons]
      split_ifs
      · rfl
      · rw [List.map_cons, ih]

lemma get?_register_self (r : Registry α) (name : Text) (value : α) :
    (r.register name value).get? name = some value := by
  obtain ⟨entries⟩ := r
  simp only [register, get?]
  induction entries with
  | nil => simp [registerIn]
  | cons entry rest ih =>
      simp only [registerIn]
      split_ifs with hname
      · simp [hname]
      · rw [List.find?_cons_of_neg (by simpa using hname), ih]

lemma get?_register_of_ne {name other : Text} (h : other ≠ name) (r : Registry α) (value : α) :
    (r.register name value).get? other = r.get? other := by
  obtain ⟨entries⟩ := r
  simp only [register, get?]
  induction entries with
  | nil => simp [registerIn, Ne.symm h]
  | cons entry rest ih =>
      simp only [registerIn]
      split_ifs with hname
      · have hne : (entry.1 == other) = false := by
          rw [beq_iff_eq.1 hname]
          simpa using Ne.symm h
        simp only [List.find?_cons, hne]
      · rw [List.find?_cons, List.find?_cons]
        cases entry.1 == other with
        | true => rfl
        | false => exact ih

/-- The names after a registration depend on the names before it. -/
lemma names_register_congr {r : Registry α} {r' : Registry β} (h : r'.names = r.names)
    (name : Text) (value : α) (value' : β) :
    (r'.register name value').names = (r.register name value).names := by
  have hforget : ∀ {γ : Type} (r : Registry γ),
      r.map (fun _ => ()) = ⟨r.names.map fun name => (name, ())⟩ := fun r => by
    simp [map, names, Function.comp_def]
  rw [← names_map (fun _ => ()) (r'.register name value'),
    ← names_map (fun _ => ()) (r.register name value), map_register, map_register, hforget r,
    hforget r', h]

end Registry

namespace Engine

variable {e : Engine σ}

/-- Compile a file and render it, where includes in it can nest so deep. -/
def fetchWithin (e : Engine σ) (bindings : Fields) (depth : Nat) (path : FilePath)
    (w : Workspace σ) : Except TemplateError Text × Workspace σ :=
  match e.compileFile path w with
  | (.error cause, w) => (.error cause, w)
  | (.ok template, w) => e.renderWithin bindings depth template w

lemma fetch_eq (e : Engine σ) (path : FilePath) (w : Workspace σ) :
    e.fetch path w = e.fetchWithin e.bindings e.settings.maxPasses path w := rfl

/-- What includes a template, where includes can nest so deep. -/
def within (e : Engine σ) (bindings : Fields) :
    Nat → Option (FilePath → Workspace σ → Except TemplateError Text × Workspace σ)
  | 0 => none
  | depth + 1 => some (e.fetchWithin bindings depth)

/-- However deep includes can nest, rendering is running the code. -/
lemma renderWithin_eq (e : Engine σ) (bindings : Fields) (depth : Nat)
    (template : CompiledTemplate) (w : Workspace σ) :
    e.renderWithin bindings depth template w
      = e.execute template bindings (e.renderFunctions (e.within bindings depth)) w := by
  cases depth <;> rfl

/-- The functions of a rendering besides `include`. -/
def ownFunctions (e : Engine σ) : Registry (HostFunction σ) :=
  (if e.functions.has e.settings.translateFunction then e.functions
    else e.functions.register e.settings.translateFunction (.pure identityTranslation)).register
    "object_attributes" (.pure objectAttributes)

lemma renderFunctions_eq (e : Engine σ)
    (fetch? : Option (FilePath → Workspace σ → Except TemplateError Text × Workspace σ)) :
    e.renderFunctions fetch? = e.ownFunctions.register "include" (includeFunction fetch?) := rfl

/-- Only `include` depends on what renders included templates. -/
lemma answer_renderFunctions (e : Engine σ)
    (fetch? : Option (FilePath → Workspace σ → Except TemplateError Text × Workspace σ))
    (name : Text) : (e.renderFunctions fetch?).answer name
      = if name = "include".toList then includeFunction fetch? else e.ownFunctions.answer name := by
  funext arguments
  rw [renderFunctions_eq, Registry.answer]
  split_ifs with hname
  · rw [hname, Registry.get?_register_self]
  · rw [Registry.get?_register_of_ne hname]
    rfl

/-! ## Including -/

/-- The name of the template that a call of `include` asks for. -/
def includedName? (arguments : Fields) : Option Text :=
  (Table.get? arguments "name").bind Json.asText?

/-- What a call of `include` is told where includes nest too deep. -/
def includeRefusal (arguments : Fields) : Text :=
  match includedName? arguments with
  | none => "include requires a string \x60name\x60 argument"
  | some name => "include depth exceeded while including '" ++ name ++ "'"

/-- The value of a call of `include`. -/
def includedValue (arguments : Fields) (written : Text) : Json :=
  .string (indentLines (((Table.get? arguments "indent").bind Json.asNat?).getD 0) written)

/-- Where includes nest too deep, the answer depends on nothing but the arguments, and nothing is
changed. -/
lemma run_includeFunction_none (arguments : Fields) (w : Workspace σ) :
    (includeFunction none arguments).run w = (.error (includeRefusal arguments), w) := by
  simp only [includeFunction, includeRefusal, includedName?]
  cases (Table.get? arguments "name").bind Json.asText? <;> rfl

lemma run_includeFunction_unnamed {arguments : Fields} (h : includedName? arguments = none)
    (fetch? : Option (FilePath → Workspace σ → Except TemplateError Text × Workspace σ))
    (w : Workspace σ) :
    (includeFunction fetch? arguments).run w = (.error (includeRefusal arguments), w) := by
  rw [includedName?] at h
  simp only [includeFunction, includeRefusal, includedName?, h]
  rfl

/-- A template is included by rendering it. -/
lemma run_includeFunction_some {arguments : Fields} {name : Text}
    (h : includedName? arguments = some name)
    (fetch : FilePath → Workspace σ → Except TemplateError Text × Workspace σ) (w : Workspace σ) :
    (includeFunction (some fetch) arguments).run w
      = match fetch name w with
        | (.error cause, w) => (.error cause.message, w)
        | (.ok written, w) => (.ok (includedValue arguments written), w) := by
  have hget : (get : HostAction σ (Workspace σ)).run w = (.ok w, w) := rfl
  rw [includedName?] at h
  simp only [includeFunction, h]
  rw [HostAction.run_bind_ok hget]
  cases fetch name w with
  | mk result w' => cases result <;> rfl

/-! ## Compiling -/

/-- Engines that find and compile the same sources. -/
structure SameSources {τ : Type} (e : Engine σ) (e' : Engine τ) : Prop where
  settings : e'.settings = e.settings
  root : e'.root = e.root
  blocks : e'.blocks = e.blocks
  filters : e'.filters = e.filters

/-- A way to compile for every host, as it is done by engines with the same sources. -/
abbrev Compiling := ∀ τ : Type, Engine τ → Workspace τ →
  Except TemplateError CompiledTemplate × Workspace τ

/-- Compiling gives the same and does the same to the same files, whatever the host. -/
def Uniform (e : Engine σ) (files : FileStore) (compile : Compiling) : Prop :=
  ∃ result files' count, ∀ (τ : Type) (e' : Engine τ), e.SameSources e' → ∀ w : Workspace τ,
    w.files = files → compile τ e' w = (result, ⟨files', w.builds + count, w.host⟩)

variable (e : Engine σ) (files : FileStore)

lemma uniform_compileNamed (name source : Text) :
    e.Uniform files fun _ e' w => e'.compileNamed name source w := by
  cases hlines : SourceReader.lines ⟨e.settings, e.root, files⟩ source with
  | error cause =>
      refine ⟨.error cause, files, 0, fun τ e' h w hw => ?_⟩
      subst hw
      simp only [compileNamed, h.settings, h.root, hlines, Nat.add_zero]
  | ok lines =>
      cases hcode : templateCode e.settings e.blocks (templateOutline e.settings.indent lines)
          lines with
      | error cause =>
          refine ⟨.error cause, files, 1, fun τ e' h w hw => ?_⟩
          simp [compileNamed, h.settings, h.root, h.blocks, hw, hlines, hcode]
      | ok code =>
          refine ⟨.ok ⟨name, e.applyFilters code,
            if e.settings.debug then some (listingFrom 1 lines) else none⟩, files, 1,
            fun τ e' h w hw => ?_⟩
          simp [compileNamed, h.settings, h.root, h.blocks, hw, hlines, hcode, applyFilters,
            h.filters]

lemma uniform_compileFresh (path : FilePath) :
    e.Uniform files fun _ e' w => e'.compileFresh path w := by
  cases hread : files.readText path with
  | error cause =>
      refine ⟨.error (.unreadable path cause), files, 0, fun τ e' _ w hw => ?_⟩
      subst hw
      simp only [compileFresh, hread, Nat.add_zero]
  | ok source =>
      obtain ⟨result, files', count, heq⟩ := e.uniform_compileNamed files path source
      refine ⟨result, files', count, fun τ e' h w hw => ?_⟩
      simp only [compileFresh, hw, hread]
      exact heq τ e' h w hw

lemma artifacts_eq {τ : Type} {e' : Engine τ} (h : e.SameSources e') (files : FileStore) :
    e'.artifacts files = e.artifacts files := by
  rw [artifacts, artifacts, h.settings, h.root]

lemma uniform_compileAndKeep (path : FilePath) :
    e.Uniform files fun _ e' w => e'.compileAndKeep path w := by
  obtain ⟨result, files', count, heq⟩ := e.uniform_compileFresh files path
  cases result with
  | error cause =>
      refine ⟨.error cause, files', count, fun τ e' h w hw => ?_⟩
      simp only [compileAndKeep, heq τ e' h w hw]
  | ok template =>
      cases hstore : (e.artifacts files').store files' path template.code with
      | mk stored files'' =>
          cases stored with
          | error cause =>
              refine ⟨.error (.artifact cause), files'', count, fun τ e' h w hw => ?_⟩
              simp only [compileAndKeep, heq τ e' h w hw, e.artifacts_eq h, hstore]
          | ok _ =>
              refine ⟨.ok template, files'', count, fun τ e' h w hw => ?_⟩
              simp only [compileAndKeep, heq τ e' h w hw, e.artifacts_eq h, hstore]

lemma uniform_compileFile (path : FilePath) :
    e.Uniform files fun _ e' w => e'.compileFile path w := by
  have hresolve : ∀ {τ : Type} {e' : Engine τ}, e.SameSources e' →
      e'.resolve path files = e.resolve path files := fun h => by
    rw [resolve, resolve, h.settings, h.root]
  have hkeeps : ∀ {τ : Type} {e' : Engine τ}, e.SameSources e' →
      e'.keepsArtifacts = e.keepsArtifacts := fun h => by
    rw [keepsArtifacts, keepsArtifacts, h.settings]
  cases hfound : e.resolve path files with
  | error cause =>
      refine ⟨.error cause, files, 0, fun τ e' h w hw => ?_⟩
      subst hw
      simp only [compileFile, hresolve h, hfound, Nat.add_zero]
  | ok found =>
      cases hcache : e.keepsArtifacts with
      | false =>
          obtain ⟨result, files', count, heq⟩ := e.uniform_compileFresh files found
          refine ⟨result, files', count, fun τ e' h w hw => ?_⟩
          simp only [compileFile, hw, hresolve h, hfound, hkeeps h, hcache, Bool.not_false, if_true]
          exact heq τ e' h w hw
      | true =>
          cases hlookup : (e.artifacts files).lookup files found with
          | mk looked files₁ =>
              cases looked with
              | error cause =>
                  refine ⟨.error (.artifact cause), files₁, 0, fun τ e' h w hw => ?_⟩
                  simp [compileFile, hw, hresolve h, hfound, hkeeps h, hcache, e.artifacts_eq h,
                    hlookup]
              | ok kept =>
                  cases kept with
                  | some code =>
                      refine ⟨.ok ⟨found, code, none⟩, files₁, 0, fun τ e' h w hw => ?_⟩
                      simp [compileFile, hw, hresolve h, hfound, hkeeps h, hcache,
                        e.artifacts_eq h, hlookup]
                  | none =>
                      obtain ⟨result, files', count, heq⟩ := e.uniform_compileAndKeep files₁ found
                      refine ⟨result, files', count, fun τ e' h w hw => ?_⟩
                      simp only [compileFile, hw, hresolve h, hfound, hkeeps h, hcache,
                        e.artifacts_eq h, hlookup, Bool.not_true, Bool.false_eq_true, if_false]
                      exact heq τ e' h { w with files := files₁ } rfl

end Engine

end Offside
