import Offside.Files.Store
import Offside.Json.Basic

/-!
# Functions that a template can call

A function takes named arguments and gives a value, or tells why it cannot.  It may also use and
change the workspace: including a template reads files and may compile one.  The workspace has room
for whatever the host keeps of its own.
-/

namespace Offside

/-- What a run of the template engine changes. -/
structure Workspace (σ : Type) where
  files : FileStore
  /-- How many templates have been compiled. -/
  builds : Nat
  /-- What the host keeps. -/
  host : σ

/-- A step of a rendering: a value or the text of an error, and the changed workspace. -/
abbrev HostAction (σ : Type) := ExceptT Text (StateM (Workspace σ))

/-- A function that a template can call. -/
abbrev HostFunction (σ : Type) := Fields → HostAction σ Json

/-- A function that leaves the workspace alone. -/
def HostFunction.pure {σ : Type} (f : Fields → Except Text Json) : HostFunction σ :=
  fun arguments => ExceptT.mk (Pure.pure (f arguments))

end Offside
