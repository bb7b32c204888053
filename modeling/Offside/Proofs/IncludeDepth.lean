import Mathlib
import Offside.Proofs.HostPrograms

/-!
# How deep includes nest

A template can include others while it is rendered, also itself.  However the files include each
other and whatever the runtime does, includes nest at most as deep as the settings say, and an
include that would nest deeper fails without looking for a file.

**Watching.**  How deep includes nest is counted from outside: the runtime is made to count the
calls of `include` that are going on and to note each call with its answer (`HostProgram.watched`).
The engine itself is the same, and takes no notice of being watched (`Follows`).

**Depth.**  An include that is noted at some level was answered with as many levels left as the
settings leave at it (`Engine.Answers`).  This is kept by every step of an execution, and so by
every rendering (`Engine.follows_renderWithin`).

**Cycles.**  If the templates of some names all come to include a template of these names
(`Execution.Reaches`, `Engine.Circular`), rendering one of them cannot succeed: each include fails
because the one below it does, down to the one that is refused (`Engine.rendering_of_reaches`).
That the templates stay so while files and the host may change is an invariant (`Engine.Keeps`).
-/

namespace Offside

variable {σ : Type}

/-! ## Watching -/

/-- A call of `include` that was made. -/
structure IncludeCall (σ : Type) where
  /-- How many calls of `include` were going on, with this one. -/
  level : Nat
  arguments : Fields
  before : Workspace σ
  /-- The answer, with the workspace after it. -/
  answer : Except Text Json × Workspace σ

/-- What a watched host keeps. -/
structure Watch (σ : Type) where
  host : σ
  /-- How many calls of `include` are going on. -/
  level : Nat
  /-- The calls that were answered, in the order of their answers. -/
  calls : List (IncludeCall σ)

namespace Workspace

/-- A workspace without its watch. -/
def plain (w : Workspace (Watch σ)) : Workspace σ := ⟨w.files, w.builds, w.host.host⟩

/-- Replace what is watched. -/
def put (w : Workspace (Watch σ)) (inner : Workspace σ) : Workspace (Watch σ) :=
  ⟨inner.files, inner.builds, { w.host with host := inner.host }⟩

/-- A workspace that is watched from now on. -/
def watched (w : Workspace σ) : Workspace (Watch σ) := ⟨w.files, w.builds, ⟨w.host, 0, []⟩⟩

/-- A call of `include` begins. -/
def enter (w : Workspace (Watch σ)) : Workspace (Watch σ) :=
  { w with host := { w.host with level := w.host.level + 1 } }

/-- A call of `include` was answered. -/
def leave (w : Workspace (Watch σ)) (call : IncludeCall σ) : Workspace (Watch σ) :=
  { w with host := { w.host with level := call.level - 1, calls := w.host.calls ++ [call] } }

@[simp] lemma plain_watched (w : Workspace σ) : w.watched.plain = w := rfl

end Workspace

/-- A result without the watch. -/
def plainResult {α : Type} (result : α × Workspace (Watch σ)) : α × Workspace σ :=
  (result.1, result.2.plain)

/-- A function that takes no notice of being watched. -/
def HostFunction.lift (function : HostFunction σ) : HostFunction (Watch σ) := fun arguments =>
  ExceptT.mk fun w =>
    let result := (function arguments).run w.plain
    (result.1, w.put result.2)

/-- An execution that takes no notice of being watched. -/
def Execution.lift : Execution σ → Execution (Watch σ)
  | done result => .done result
  | call function arguments next => .call function arguments fun answer => (next answer).lift
  | step change next => .step (fun w => w.put (change w.plain)) fun w => (next w.plain).lift

/-- Note the calls of a function. -/
def HostFunction.noted (function : HostFunction (Watch σ)) : HostFunction (Watch σ) :=
  fun arguments => ExceptT.mk fun w =>
    let result := (function arguments).run w.enter
    (result.1, result.2.leave ⟨w.host.level + 1, arguments, w.plain, plainResult result⟩)

/-- Note the calls of `include` among those of all functions. -/
def notingIncludes (answer : Text → HostFunction (Watch σ)) (name : Text) :
    HostFunction (Watch σ) :=
  if name = "include".toList then (answer name).noted else answer name

/-- The runtime that carries out a program and notes the calls of `include`. -/
def HostProgram.watched (program : HostProgram σ) : HostRuntime (Watch σ) :=
  fun name code bindings functions w =>
    (program name code bindings functions.names).lift.run (notingIncludes functions.answer) w

/-- The same engine with a runtime that notes the calls of `include`. -/
def Engine.watched (e : Engine σ) (program : HostProgram σ) : Engine (Watch σ) where
  settings := e.settings
  root := e.root
  blocks := e.blocks
  filters := e.filters
  functions := e.functions.map HostFunction.lift
  bindings := e.bindings
  runtime := program.watched

/-! ## What is noted -/

/-- Calls with a property were noted, and all of them have been answered. -/
structure Adds (p : IncludeCall σ → Prop) (w w' : Workspace (Watch σ)) : Prop where
  level : w'.host.level = w.host.level
  calls : ∃ new, w'.host.calls = w.host.calls ++ new ∧ ∀ call ∈ new, p call

namespace Adds

variable {p : IncludeCall σ → Prop} {w w₁ w₂ : Workspace (Watch σ)}

lemma put (p : IncludeCall σ → Prop) (w : Workspace (Watch σ)) (inner : Workspace σ) :
    Adds p w (w.put inner) := ⟨rfl, [], by simp [Workspace.put], by simp⟩

lemma refl (p : IncludeCall σ → Prop) (w : Workspace (Watch σ)) : Adds p w w := put p w w.plain

lemma trans (h : Adds p w w₁) (h₁ : Adds p w₁ w₂) : Adds p w w₂ := by
  obtain ⟨new, hnew, hall⟩ := h.calls
  obtain ⟨new₁, hnew₁, hall₁⟩ := h₁.calls
  refine ⟨h₁.level.trans h.level, new ++ new₁, by rw [hnew₁, hnew, List.append_assoc], ?_⟩
  intro call hcall
  rcases List.mem_append.1 hcall with hcall | hcall
  · exact hall call hcall
  · exact hall₁ call hcall

/-- A call that is noted itself, after those that were made for its answer. -/
lemma leave (h : Adds p w.enter w₁) {call : IncludeCall σ} (hlevel : call.level = w.host.level + 1)
    (hcall : p call) : Adds p w (w₁.leave call) := by
  obtain ⟨new, hnew, hall⟩ := h.calls
  refine ⟨by simp [Workspace.leave, hlevel], new ++ [call], ?_, ?_⟩
  · simp only [Workspace.leave, hnew, Workspace.enter, List.append_assoc]
  · intro other hother
    rcases List.mem_append.1 hother with hother | hother
    · exact hall other hother
    · exact List.mem_singleton.1 hother ▸ hcall

end Adds

/-- A watched result is the one without a watch, and calls with a property were noted. -/
structure Follows {α : Type} (p : IncludeCall σ → Prop) (w : Workspace (Watch σ))
    (result : α × Workspace (Watch σ)) (plain : α × Workspace σ) : Prop where
  plain : plainResult result = plain
  adds : Adds p w result.2

namespace Follows

variable {α β : Type} {p : IncludeCall σ → Prop} {w w₁ : Workspace (Watch σ)}
  {result : α × Workspace (Watch σ)} {plain : α × Workspace σ}

lemma refl (p : IncludeCall σ → Prop) (w : Workspace (Watch σ)) (value : α) :
    Follows p w (value, w) (value, w.plain) := ⟨rfl, .refl p w⟩

lemma after (h : Adds p w w₁) (h₁ : Follows p w₁ result plain) : Follows p w result plain :=
  ⟨h₁.plain, h.trans h₁.adds⟩

lemma map (h : Follows p w result plain) (f : α → β) :
    Follows p w (f result.1, result.2) (f plain.1, plain.2) := by
  refine ⟨?_, h.adds⟩
  rw [← h.plain]
  rfl

end Follows

lemma follows_lift (p : IncludeCall σ → Prop) (function : HostFunction σ) (arguments : Fields)
    (w : Workspace (Watch σ)) :
    Follows p w ((function.lift arguments).run w) ((function arguments).run w.plain) :=
  ⟨rfl, .put p w _⟩

/-- A call that is noted is answered as it is without a watch. -/
lemma Follows.noted {p : IncludeCall σ → Prop} {w : Workspace (Watch σ)}
    {function : HostFunction (Watch σ)} {arguments : Fields}
    {plain : Except Text Json × Workspace σ}
    (h : Follows p w.enter ((function arguments).run w.enter) plain)
    (hcall : p ⟨w.host.level + 1, arguments, w.plain, plain⟩) :
    Follows p w ((function.noted arguments).run w) plain := by
  obtain ⟨hplain, hadds⟩ := h
  subst hplain
  exact ⟨rfl, hadds.leave rfl hcall⟩

/-- An execution follows the one without a watch if its calls do. -/
lemma Execution.follows_run {p : IncludeCall σ → Prop} {level : Nat}
    {watched : Text → HostFunction (Watch σ)} {answer : Text → HostFunction σ}
    (h : ∀ function arguments (w : Workspace (Watch σ)), w.host.level = level →
      Follows p w ((watched function arguments).run w) ((answer function arguments).run w.plain))
    (execution : Execution σ) {w : Workspace (Watch σ)} (hw : w.host.level = level) :
    Follows p w (execution.lift.run watched w) (execution.run answer w.plain) := by
  induction execution generalizing w with
  | done result => exact .refl p w result
  | call function arguments next ih =>
      obtain ⟨hplain, hadds⟩ := h function arguments w hw
      rw [lift, run, run, ← hplain]
      exact .after hadds (ih _ (hadds.level.trans hw))
  | step change next ih =>
      rw [lift, run, run]
      exact .after (.put p w (change w.plain)) (ih w.plain hw)

/-! ## Depth -/

namespace Engine

variable {e : Engine σ} {program : HostProgram σ} {bindings : Fields}

/-- A call of `include` at a level that can be, answered with the levels that are left at it. -/
structure Answers (e : Engine σ) (bindings : Fields) (call : IncludeCall σ) : Prop where
  pos : 1 ≤ call.level
  le : call.level ≤ e.settings.maxPasses + 1
  answer : call.answer = (includeFunction
    (e.within bindings (e.settings.maxPasses + 1 - call.level)) call.arguments).run call.before

/-- Compiling takes no notice of being watched. -/
lemma follows_compileFile (p : IncludeCall σ → Prop) (e : Engine σ) (program : HostProgram σ)
    (path : FilePath) (w : Workspace (Watch σ)) :
    Follows p w ((e.watched program).compileFile path w) (e.compileFile path w.plain) := by
  obtain ⟨result, files, count, heq⟩ := e.uniform_compileFile w.files path
  have hwatched : (e.watched program).compileFile path w
      = (result, ⟨files, w.builds + count, w.host⟩) :=
    heq (Watch σ) (e.watched program) ⟨rfl, rfl, rfl, rfl⟩ w rfl
  have hplain : e.compileFile path w.plain
      = (result, ⟨files, w.plain.builds + count, w.plain.host⟩) :=
    heq σ e ⟨rfl, rfl, rfl, rfl⟩ w.plain rfl
  rw [hwatched, hplain]
  exact ⟨rfl, .put p w ⟨files, w.builds + count, w.host.host⟩⟩

lemma ownFunctions_watched (e : Engine σ) (program : HostProgram σ) :
    (e.watched program).ownFunctions = e.ownFunctions.map HostFunction.lift := by
  have hpure : ∀ f : Fields → Except Text Json,
      (HostFunction.pure f : HostFunction σ).lift = .pure f := fun f => rfl
  have hfunctions : (e.watched program).functions = e.functions.map HostFunction.lift := rfl
  have hsettings : (e.watched program).settings = e.settings := rfl
  rw [ownFunctions, ownFunctions, Registry.map_register, hpure, hfunctions, hsettings,
    Registry.has_map]
  split_ifs
  · rfl
  · rw [Registry.map_register, hpure]

lemma names_renderFunctions (e : Engine σ) (program : HostProgram σ)
    (fetch? : Option (FilePath → Workspace σ → Except TemplateError Text × Workspace σ))
    (watched? : Option (FilePath → Workspace (Watch σ) →
      Except TemplateError Text × Workspace (Watch σ))) :
    ((e.watched program).renderFunctions watched?).names = (e.renderFunctions fetch?).names := by
  have hown : (e.watched program).ownFunctions.names = e.ownFunctions.names := by
    rw [ownFunctions_watched, Registry.names_map]
  exact Registry.names_register_congr hown _ _ _

lemma answer_map_lift (r : Registry (HostFunction σ)) (name : Text) :
    (r.map HostFunction.lift).answer name = (r.answer name).lift := by
  funext arguments
  rw [Registry.answer, Registry.get?_map]
  cases hget : r.get? name with
  | none =>
      have hnone : r.answer name = fun _ => throw ("function not found: " ++ name) := by
        funext arguments
        rw [Registry.answer, hget]
      rw [hnone]
      rfl
  | some function =>
      have hsome : r.answer name = function := by
        funext arguments
        rw [Registry.answer, hget]
      rw [hsome]
      rfl

/-- What is written once the code of a template has been run. -/
def finished (e : Engine σ) (template : CompiledTemplate) (written : Text) : Text :=
  let written := if e.settings.compress then compress written else written
  match template.listing with
  | some listing => written ++ "\n" ++ listing
  | none => written

lemma execute_eq (e : Engine σ) (template : CompiledTemplate) (bindings : Fields)
    (functions : Registry (HostFunction σ)) (w : Workspace σ) :
    e.execute template bindings functions w
      = ((e.runtime template.name template.code bindings functions w).1.map (e.finished template),
        (e.runtime template.name template.code bindings functions w).2) := by
  rw [execute]
  cases e.runtime template.name template.code bindings functions w with
  | mk result w' =>
      cases result with
      | error cause => rfl
      | ok written =>
          simp only [finished, Except.map]
          cases template.listing <;> rfl

/-- Fetching follows the same without a watch if rendering does. -/
lemma follows_fetchWithin {p : IncludeCall σ → Prop} {depth : Nat} {w : Workspace (Watch σ)}
    (h : ∀ template (w₁ : Workspace (Watch σ)), w₁.host.level = w.host.level →
      Follows p w₁ ((e.watched program).renderWithin bindings depth template w₁)
        (e.renderWithin bindings depth template w₁.plain)) (path : FilePath) :
    Follows p w ((e.watched program).fetchWithin bindings depth path w)
      (e.fetchWithin bindings depth path w.plain) := by
  obtain ⟨hplain, hadds⟩ := follows_compileFile p e program path w
  rw [fetchWithin, fetchWithin, ← hplain]
  cases hcompiled : (e.watched program).compileFile path w with
  | mk compiled w₁ =>
      rw [hcompiled] at hadds
      cases compiled with
      | error cause => exact ⟨rfl, hadds⟩
      | ok template => exact .after hadds (h template w₁ hadds.level)

/-- An include follows the one without a watch if fetching does. -/
lemma follows_includeFunction {p : IncludeCall σ → Prop} {w : Workspace (Watch σ)}
    {fetch : FilePath → Workspace σ → Except TemplateError Text × Workspace σ}
    {watched : FilePath → Workspace (Watch σ) → Except TemplateError Text × Workspace (Watch σ)}
    (h : ∀ path, Follows p w (watched path w) (fetch path w.plain)) (arguments : Fields) :
    Follows p w ((includeFunction (some watched) arguments).run w)
      ((includeFunction (some fetch) arguments).run w.plain) := by
  cases hname : includedName? arguments with
  | none =>
      rw [run_includeFunction_unnamed hname, run_includeFunction_unnamed hname]
      exact .refl p w _
  | some name =>
      obtain ⟨hplain, hadds⟩ := h name
      rw [run_includeFunction_some hname, run_includeFunction_some hname, ← hplain]
      cases hresult : watched name w with
      | mk result w₁ =>
          rw [hresult] at hadds
          cases result <;> exact ⟨rfl, hadds⟩

/-- **Renderings take no notice of being watched**, and each include is answered with the levels
that are left at it. -/
lemma follows_renderWithin (hruntime : e.runtime = program.runtime) (bindings : Fields)
    (depth : Nat) {w : Workspace (Watch σ)} (hw : w.host.level + depth = e.settings.maxPasses)
    (template : CompiledTemplate) :
    Follows (e.Answers bindings) w ((e.watched program).renderWithin bindings depth template w)
      (e.renderWithin bindings depth template w.plain) := by
  induction depth using Nat.strong_induction_on generalizing w template with
  | _ depth ih =>
      rw [renderWithin_eq, renderWithin_eq, execute_eq, execute_eq, hruntime]
      refine Follows.map ?_ _
      rw [HostProgram.runtime, ← names_renderFunctions e program (e.within bindings depth)
        ((e.watched program).within bindings depth)]
      refine Execution.follows_run ?_ _ rfl
      intro function arguments w₁ hw₁
      rw [notingIncludes, answer_renderFunctions, answer_renderFunctions]
      split_ifs
      · -- One more level is used up by the call, and one less is left for what it includes.
        refine Follows.noted ?_ ⟨by simp, ?_, ?_⟩
        · cases depth with
          | zero =>
              rw [within, within, run_includeFunction_none, run_includeFunction_none]
              exact .refl _ w₁.enter _
          | succ rest =>
              refine follows_includeFunction (follows_fetchWithin ?_) arguments
              intro inner w₂ hw₂
              refine ih rest (Nat.lt_succ_self rest) ?_ inner
              rw [hw₂]
              simp only [Workspace.enter]
              omega
        · simp only
          omega
        · have hleft : e.settings.maxPasses + 1 - (w₁.host.level + 1) = depth := by omega
          simp only [hleft]
      · rw [ownFunctions_watched, answer_map_lift]
        exact follows_lift _ _ arguments w₁

lemma follows_fetch (hruntime : e.runtime = program.runtime) (path : FilePath)
    (w : Workspace σ) :
    Follows (e.Answers e.bindings) w.watched ((e.watched program).fetch path w.watched)
      (e.fetch path w) := by
  rw [fetch_eq, fetch_eq, ← w.plain_watched]
  refine follows_fetchWithin (fun template w₁ hw₁ => ?_) path
  refine follows_renderWithin hruntime e.bindings _ ?_ template
  rw [hw₁]
  exact Nat.zero_add _

end Engine

/-! ## What renderings keep -/

section Keeps

variable {inv : Workspace σ → Prop}

/-- Calls of a function keep a property of the workspace. -/
def HostFunction.Keeps (inv : Workspace σ → Prop) (function : HostFunction σ) : Prop :=
  ∀ arguments w, inv w → inv ((function arguments).run w).2

lemma HostFunction.keeps_pure (f : Fields → Except Text Json) :
    (HostFunction.pure f : HostFunction σ).Keeps inv := by
  intro arguments w hw
  rw [HostFunction.pure]
  cases f arguments <;> exact hw

lemma Registry.keeps_answer {r : Registry (HostFunction σ)}
    (h : ∀ name function, r.get? name = some function → function.Keeps inv) (name : Text) :
    (r.answer name).Keeps inv := by
  intro arguments w hw
  rw [Registry.answer]
  cases hget : r.get? name with
  | none => exact hw
  | some function => exact h name function hget arguments w hw

/-- Whatever an execution does to the workspace besides calls keeps a property of it. -/
def Execution.Keeps (inv : Workspace σ → Prop) : Execution σ → Prop
  | done _ => True
  | call _ _ next => ∀ answer, (next answer).Keeps inv
  | step change next => (∀ w, inv w → inv (change w)) ∧ ∀ w, (next w).Keeps inv

lemma Execution.Keeps.run {execution : Execution σ} (h : execution.Keeps inv)
    {answer : Text → HostFunction σ} (hanswer : ∀ name, (answer name).Keeps inv)
    {w : Workspace σ} (hw : inv w) : inv (execution.run answer w).2 := by
  induction execution generalizing w with
  | done result => exact hw
  | call function arguments next ih => exact ih _ (h _) (hanswer function arguments w hw)
  | step change next ih => exact ih w (h.2 w) (h.1 w hw)

/-- All that a page does to the workspace is to call functions. -/
lemma HostCalls.keeps_execution (name : Text) (calls : HostCalls Text) :
    (calls.execution name : Execution σ).Keeps inv := by
  induction calls with
  | done value => trivial
  | fail cause => trivial
  | call function arguments next ih =>
      rw [HostCalls.execution]
      rintro (cause | value)
      · trivial
      · exact ih value

/-- What an engine does besides rendering keeps a property of the workspace. -/
structure Engine.Keeps (e : Engine σ) (program : HostProgram σ) (inv : Workspace σ → Prop) :
    Prop where
  compile : ∀ path w, inv w → inv (e.compileFile path w).2
  functions : ∀ name function, e.functions.get? name = some function → function.Keeps inv
  execution : ∀ name code bindings functions, (program name code bindings functions).Keeps inv

namespace Engine

variable {e : Engine σ} {program : HostProgram σ}

lemma Keeps.ownFunctions (h : e.Keeps program inv) (name : Text) :
    (e.ownFunctions.answer name).Keeps inv := by
  have hregister : ∀ {r : Registry (HostFunction σ)},
      (∀ name function, r.get? name = some function → function.Keeps inv) →
      ∀ other f name function, (r.register other (.pure f)).get? name = some function →
        function.Keeps inv := by
    intro r hr other f name function hget
    by_cases hname : name = other
    · rw [hname, Registry.get?_register_self, Option.some_inj] at hget
      exact hget ▸ HostFunction.keeps_pure f
    · rw [Registry.get?_register_of_ne hname] at hget
      exact hr name function hget
  refine Registry.keeps_answer (hregister ?_ _ _) name
  split_ifs
  · exact h.functions
  · exact hregister h.functions _ _

lemma keeps_includeFunction
    {fetch? : Option (FilePath → Workspace σ → Except TemplateError Text × Workspace σ)}
    (h : ∀ fetch ∈ fetch?, ∀ path w, inv w → inv (fetch path w).2) :
    (includeFunction fetch?).Keeps inv := by
  intro arguments w hw
  cases fetch? with
  | none =>
      rw [run_includeFunction_none]
      exact hw
  | some fetch =>
      cases hname : includedName? arguments with
      | none =>
          rw [run_includeFunction_unnamed hname]
          exact hw
      | some name =>
          have hfetch := h fetch rfl name w hw
          rw [run_includeFunction_some hname]
          cases hresult : fetch name w with
          | mk result w₁ =>
              rw [hresult] at hfetch
              cases result <;> exact hfetch

lemma Keeps.fetchWithin (h : e.Keeps program inv) {bindings : Fields} {depth : Nat}
    (hrender : ∀ template w, inv w → inv (e.renderWithin bindings depth template w).2)
    (path : FilePath) {w : Workspace σ} (hw : inv w) :
    inv (e.fetchWithin bindings depth path w).2 := by
  have hcompile := h.compile path w hw
  rw [Engine.fetchWithin]
  cases hcompiled : e.compileFile path w with
  | mk compiled w₁ =>
      rw [hcompiled] at hcompile
      cases compiled with
      | error cause => exact hcompile
      | ok template => exact hrender template w₁ hcompile

/-- The functions of a rendering keep what renderings with fewer levels keep. -/
lemma Keeps.answer (h : e.Keeps program inv) {bindings : Fields} {depth : Nat}
    (hrender : ∀ rest < depth, ∀ template w, inv w →
      inv (e.renderWithin bindings rest template w).2) (name : Text) :
    ((e.renderFunctions (e.within bindings depth)).answer name).Keeps inv := by
  rw [answer_renderFunctions]
  split_ifs
  · refine keeps_includeFunction ?_
    cases depth with
    | zero => exact fun fetch hfetch => nomatch hfetch
    | succ rest =>
        rintro fetch ⟨⟩ path w hw
        exact h.fetchWithin (hrender rest (Nat.lt_succ_self rest)) path hw
  · exact h.ownFunctions name

lemma Keeps.renderWithin (h : e.Keeps program inv) (hruntime : e.runtime = program.runtime)
    (bindings : Fields) (depth : Nat) (template : CompiledTemplate) {w : Workspace σ}
    (hw : inv w) : inv (e.renderWithin bindings depth template w).2 := by
  induction depth using Nat.strong_induction_on generalizing template w with
  | _ depth ih =>
      rw [renderWithin_eq, execute_eq, hruntime]
      exact (h.execution _ _ _ _).run
        (h.answer fun rest hrest template w hw => ih rest hrest template hw) hw

end Engine

end Keeps

/-! ## Cycles -/

/-- Whatever it is told, an execution comes to include a template of some names, unless a call
fails before. -/
inductive Execution.Reaches (names : Set Text) : Execution σ → Prop
  | here {arguments : Fields} {name : Text} {next : Except Text Json → Execution σ}
    (hname : Engine.includedName? arguments = some name) (hmem : name ∈ names) :
    Reaches names (.call "include".toList arguments next)
  | call {function : Text} {arguments : Fields} {next : Except Text Json → Execution σ}
    (h : ∀ value, Reaches names (next (.ok value))) :
    Reaches names (.call function arguments next)
  | step {change : Workspace σ → Workspace σ} {next : Workspace σ → Execution σ}
    (h : ∀ w, Reaches names (next w)) : Reaches names (.step change next)

lemma Execution.Reaches.run {inv : Workspace σ → Prop} {names : Set Text}
    {execution : Execution σ} (h : execution.Reaches names) (hstrict : execution.Strict)
    (hkeeps : execution.Keeps inv) {answer : Text → HostFunction σ}
    (hanswer : ∀ name, (answer name).Keeps inv)
    (hinclude : ∀ arguments name, Engine.includedName? arguments = some name → name ∈ names →
      ∀ w, inv w → ∃ cause, ((answer "include".toList arguments).run w).1 = .error cause)
    {w : Workspace σ} (hw : inv w) : RenderingFailed (execution.run answer w).1 := by
  induction h generalizing w with
  | here hname hmem =>
      obtain ⟨cause, hcause⟩ := hinclude _ _ hname hmem w hw
      rw [Execution.run, hcause]
      exact (hstrict.1 cause).run answer _
  | @call function arguments next _ ih =>
      have hkept := hanswer function arguments w hw
      rw [Execution.run]
      cases hanswered : ((answer function arguments).run w).1 with
      | error cause => exact (hstrict.1 cause).run answer _
      | ok value => exact ih value (hstrict.2 value) (hkeeps _) hkept
  | step _ ih => exact ih w (hstrict w) (hkeeps.2 w) (hkeeps.1 w hw)

namespace Engine

variable {e : Engine σ} {program : HostProgram σ} {inv : Workspace σ → Prop} {names : Set Text}

/-- What the runtime does with a template that is fetched. -/
def execution (e : Engine σ) (program : HostProgram σ) (template : CompiledTemplate) :
    Execution σ :=
  program template.name template.code e.bindings (e.renderFunctions none).names

/-- While a property of the workspace is kept, the templates of some names all come to include one
of them. -/
def Circular (e : Engine σ) (program : HostProgram σ) (inv : Workspace σ → Prop)
    (names : Set Text) : Prop :=
  ∀ name ∈ names, ∀ w w' template, inv w → e.compileFile name w = (.ok template, w') →
    (e.execution program template).Reaches names

/-- Fetching a template of a cycle fails if rendering does. -/
lemma fetchWithin_fails (hkeeps : e.Keeps program inv) (hcircular : e.Circular program inv names)
    {depth : Nat}
    (hrender : ∀ template w, inv w → (e.execution program template).Reaches names →
      RenderingFailed (e.renderWithin e.bindings depth template w).1)
    {name : Text} (hmem : name ∈ names) {w : Workspace σ} (hw : inv w) :
    ∃ cause, (e.fetchWithin e.bindings depth name w).1 = .error cause := by
  have hcompile := hkeeps.compile name w hw
  rw [fetchWithin]
  cases hcompiled : e.compileFile name w with
  | mk compiled w₁ =>
      rw [hcompiled] at hcompile
      cases compiled with
      | error cause => exact ⟨cause, rfl⟩
      | ok template =>
          obtain ⟨failed, cause, hfailed⟩ := hrender template w₁ hcompile
            (hcircular name hmem w w₁ template hw hcompiled)
          exact ⟨_, hfailed⟩

/-- An include of a template of a cycle fails if rendering with fewer levels does. -/
lemma includeFunction_fails (hkeeps : e.Keeps program inv)
    (hcircular : e.Circular program inv names) {depth : Nat}
    (hrender : ∀ rest < depth, ∀ template w, inv w → (e.execution program template).Reaches names →
      RenderingFailed (e.renderWithin e.bindings rest template w).1)
    {arguments : Fields} {name : Text} (hname : includedName? arguments = some name)
    (hmem : name ∈ names) {w : Workspace σ} (hw : inv w) :
    ∃ cause, ((includeFunction (e.within e.bindings depth) arguments).run w).1 = .error cause := by
  cases depth with
  | zero =>
      rw [within, run_includeFunction_none]
      exact ⟨_, rfl⟩
  | succ rest =>
      obtain ⟨cause, hcause⟩ := fetchWithin_fails hkeeps hcircular
        (hrender rest (Nat.lt_succ_self rest)) hmem hw
      rw [within, run_includeFunction_some hname]
      cases hresult : e.fetchWithin e.bindings rest name w with
      | mk result w₁ =>
          rw [hresult] at hcause
          dsimp only at hcause
          rw [hcause]
          exact ⟨_, rfl⟩

/-- **A template that comes to include one of a cycle is not rendered**, however many levels there
are. -/
lemma rendering_of_reaches (hruntime : e.runtime = program.runtime) (hstrict : program.Strict)
    (hkeeps : e.Keeps program inv) (hcircular : e.Circular program inv names) (depth : Nat)
    {template : CompiledTemplate} (h : (e.execution program template).Reaches names)
    {w : Workspace σ} (hw : inv w) :
    RenderingFailed (e.renderWithin e.bindings depth template w).1 := by
  induction depth using Nat.strong_induction_on generalizing template w with
  | _ depth ih =>
      have hnames : (e.renderFunctions (e.within e.bindings depth)).names
          = (e.renderFunctions none).names := Registry.names_register_congr rfl _ _ _
      have hfailed : RenderingFailed (program.runtime template.name template.code e.bindings
          (e.renderFunctions (e.within e.bindings depth)) w).1 := by
        rw [HostProgram.runtime, hnames]
        refine h.run (hstrict _ _ _ _) (hkeeps.execution _ _ _ _)
          (hkeeps.answer fun rest _ inner w hw =>
            hkeeps.renderWithin hruntime e.bindings rest inner hw) ?_ hw
        -- What is included has fewer levels left, and at none the include is refused.
        intro arguments name hname hmem w₁ hw₁
        rw [answer_renderFunctions, if_pos rfl]
        exact includeFunction_fails hkeeps hcircular
          (fun rest hrest inner w₂ hw₂ hinner => ih rest hrest hinner hw₂) hname hmem hw₁
      obtain ⟨name, cause, hcause⟩ := hfailed
      rw [renderWithin_eq, execute_eq, hruntime, hcause]
      exact ⟨name, cause, rfl⟩

/-- **Includes nest at most as deep as the settings say**, whatever the files and the values are and
whatever the runtime does, as long as its executions are finite.  Every call of `include` that is
made is one of at most `maxPasses + 1` that go on, and the last of so many is refused: its answer
depends on its arguments alone and nothing is changed.  And where the templates of some names come
to include each other without end, fetching a template that comes to include one of them fails in
rendering. -/
theorem fetch_includes_bounded (hruntime : e.runtime = program.runtime) (hstrict : program.Strict)
    (path : FilePath) (w : Workspace σ) :
    plainResult ((e.watched program).fetch path w.watched) = e.fetch path w ∧
    (∀ call ∈ ((e.watched program).fetch path w.watched).2.host.calls,
      e.Answers e.bindings call ∧
      (call.level = e.settings.maxPasses + 1 →
        call.answer = (.error (includeRefusal call.arguments), call.before))) ∧
    ∀ (inv : Workspace σ → Prop) (names : Set Text), e.Keeps program inv → inv w →
      e.Circular program inv names → ∀ template w', e.compileFile path w = (.ok template, w') →
        (e.execution program template).Reaches names → RenderingFailed (e.fetch path w).1 := by
  obtain ⟨hplain, -, new, hcalls, hall⟩ := e.follows_fetch hruntime path w
  refine ⟨hplain, fun call hcall => ?_, ?_⟩
  · have hanswers : e.Answers e.bindings call := by
      rw [hcalls] at hcall
      exact hall call hcall
    refine ⟨hanswers, fun hlevel => ?_⟩
    rw [hanswers.answer, hlevel, Nat.sub_self, within, run_includeFunction_none]
  · intro inv names hkeeps hw hcircular template w' hcompiled hreaches
    have hw' : inv w' := by simpa only [hcompiled] using hkeeps.compile path w hw
    have hfetch : e.fetch path w = e.render template e.bindings w' := by rw [fetch, hcompiled]
    rw [hfetch]
    exact rendering_of_reaches hruntime hstrict hkeeps hcircular e.settings.maxPasses hreaches hw'

/-! ## A cycle of two templates -/

lemma files_compileFresh (e : Engine σ) (path : FilePath) (w : Workspace σ) :
    (e.compileFresh path w).2.files = w.files := by
  rw [compileFresh]
  cases w.files.readText path with
  | error cause => rfl
  | ok source =>
      simp only [compileNamed]
      cases SourceReader.lines ⟨e.settings, e.root, w.files⟩ source with
      | error cause => rfl
      | ok lines =>
          cases hcode : templateCode e.settings e.blocks (templateOutline e.settings.indent lines)
            lines <;> simp only [hcode]

/-- Engines that keep no code and have no functions of their own render pages without changing
files. -/
lemma keeps_files (hkeeps : e.keepsArtifacts = false) (hfunctions : e.functions = .empty)
    (files : FileStore) : e.Keeps pageProgram fun w => w.files = files where
  compile := by
    rintro path w rfl
    rw [compileFile]
    cases e.resolve path w.files with
    | error cause => rfl
    | ok found =>
        simp only [hkeeps, Bool.not_false, if_true]
        exact e.files_compileFresh found w
  functions := by
    intro name function hget
    rw [hfunctions] at hget
    cases hget
  execution := fun name code bindings functions =>
    (renderPage functions bindings code).keeps_execution name

/-- The template that an execution includes before it calls anything else. -/
def firstIncluded? : Execution σ → Option Text
  | .call function arguments _ =>
    if function = "include".toList then includedName? arguments else none
  | _ => none

lemma reaches_of_firstIncluded? {execution : Execution σ} {name : Text}
    (h : firstIncluded? execution = some name) (hmem : name ∈ names) : execution.Reaches names := by
  cases execution with
  | done result => cases h
  | step change next => cases h
  | call function arguments next =>
      rw [firstIncluded?] at h
      split_ifs at h with hfunction
      subst hfunction
      exact .here h hmem

/-- Two templates that include each other, and one that includes the first. -/
def ringFiles : FileStore where
  entries := [(["site"], .directory),
    (["site", "home.haml"], .file (.text "%p\n\t!!= \"left\"\n") 1),
    (["site", "left.haml"], .file (.text "!!= \"right\"\n") 1),
    (["site", "right.haml"], .file (.text "!!= \"left\"\n") 1)]
  current := []
  temporary := "/tmp"
  clock := 2

/-- An engine that lets includes nest three deep. -/
def ringEngine : Engine Unit :=
  .ofSettings { TemplateSettings.standard with noCache := true, maxPasses := 3 } "/site"

def ringWorkspace : Workspace Unit := ⟨ringFiles, 0, ()⟩

/-- The names of the templates that include each other. -/
def ringNames : Set Text := {"left".toList, "right".toList}

/-- What a template includes first is found out by compiling it. -/
lemma reaches_ring {path : FilePath} {name : Text}
    (hfirst : (ringEngine.compileFile path ringWorkspace).1.toOption.bind
      (fun template => firstIncluded? (ringEngine.execution pageProgram template)) = some name)
    (hmem : name ∈ ringNames) {w w' : Workspace Unit} {template : CompiledTemplate}
    (hw : w.files = ringFiles) (hcompiled : ringEngine.compileFile path w = (.ok template, w')) :
    (ringEngine.execution pageProgram template).Reaches ringNames := by
  obtain ⟨result, files, count, heq⟩ := ringEngine.uniform_compileFile ringFiles path
  have hring : ringEngine.compileFile path ringWorkspace = (result, ⟨files, 0 + count, ()⟩) :=
    heq Unit ringEngine ⟨rfl, rfl, rfl, rfl⟩ ringWorkspace rfl
  have hresult : ringEngine.compileFile path w = (result, ⟨files, w.builds + count, w.host⟩) :=
    heq Unit ringEngine ⟨rfl, rfl, rfl, rfl⟩ w hw
  rw [hcompiled] at hresult
  rw [hring, ← (Prod.mk.inj hresult).1] at hfirst
  exact reaches_of_firstIncluded? hfirst hmem

lemma circular_ring :
    ringEngine.Circular pageProgram (fun w => w.files = ringFiles) ringNames := by
  have hleft : (ringEngine.compileFile "left" ringWorkspace).1.toOption.bind
      (fun template => firstIncluded? (ringEngine.execution pageProgram template))
      = some "right".toList := by decide +kernel
  have hright : (ringEngine.compileFile "right" ringWorkspace).1.toOption.bind
      (fun template => firstIncluded? (ringEngine.execution pageProgram template))
      = some "left".toList := by decide +kernel
  rintro name (rfl | rfl) w w' template hw hcompiled
  · exact reaches_ring hleft (.inr rfl) hw hcompiled
  · exact reaches_ring hright (.inl rfl) hw hcompiled

/-- The fourth include is refused, and so rendering fails. -/
theorem fetch_includes_bounded_ring :
    (((ringEngine.watched pageProgram).fetch "home" ringWorkspace.watched).2.host.calls.map
      fun call => (call.level, includedName? call.arguments))
      = [(4, some "right".toList), (3, some "left".toList), (2, some "right".toList),
        (1, some "left".toList)] ∧
    (∀ call ∈ ((ringEngine.watched pageProgram).fetch "home" ringWorkspace.watched).2.host.calls,
      call.level = 4 → call.answer = (.error (includeRefusal call.arguments), call.before)) ∧
    RenderingFailed (ringEngine.fetch "home" ringWorkspace).1 := by
  obtain ⟨-, hcalls, hcycle⟩ := fetch_includes_bounded (e := ringEngine)
    pageRuntime_eq strict_pageProgram "home" ringWorkspace
  refine ⟨by decide +kernel, fun call hcall => (hcalls call hcall).2, ?_⟩
  have hkeeps := ringEngine.keeps_files (by decide) rfl ringFiles
  have hhome : (ringEngine.compileFile "home" ringWorkspace).1.isOk = true := by decide +kernel
  cases hcompiled : ringEngine.compileFile "home" ringWorkspace with
  | mk compiled w' =>
      rw [hcompiled] at hhome
      cases compiled with
      | error cause => cases hhome
      | ok template =>
          have hfirst : (ringEngine.compileFile "home" ringWorkspace).1.toOption.bind
              (fun template => firstIncluded? (ringEngine.execution pageProgram template))
              = some "left".toList := by decide +kernel
          exact hcycle _ ringNames hkeeps rfl circular_ring template w' hcompiled
            (reaches_ring hfirst (.inl rfl) rfl hcompiled)

end Engine

end Offside
