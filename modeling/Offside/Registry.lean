import Offside.Text.Quoted

/-!
# Registries

Output styles, text blocks, output filters and functions are all found by name.  A registry keeps
them in the order in which their names were first registered; registering a name again replaces what
it stands for and leaves it in its place.
-/

namespace Offside

/-- Named things, each name once, in the order of their first registration. -/
structure Registry (α : Type) where
  entries : List (Text × α)

namespace Registry

variable {α : Type}

/-- Nothing registered. -/
def empty : Registry α := ⟨[]⟩

/-- Put a thing under a name in a list of named things. -/
def registerIn (name : Text) (value : α) : List (Text × α) → List (Text × α)
  | [] => [(name, value)]
  | (known, old) :: rest =>
    if known == name then (known, value) :: rest else (known, old) :: registerIn name value rest

/-- Register a thing under a name, replacing what had that name. -/
def register (r : Registry α) (name : Text) (value : α) : Registry α :=
  ⟨registerIn name value r.entries⟩

/-- Remove a name. -/
def unregister (r : Registry α) (name : Text) : Registry α :=
  ⟨r.entries.filter fun (known, _) => known != name⟩

/-- What a name stands for. -/
def get? (r : Registry α) (name : Text) : Option α :=
  (r.entries.find? fun (known, _) => known == name).map (·.2)

/-- Whether a name is registered. -/
def has (r : Registry α) (name : Text) : Bool := (r.get? name).isSome

/-- The names, in the order of their first registration. -/
def names (r : Registry α) : List Text := r.entries.map (·.1)

/-- The names in the order of their code points. -/
def sortedNames (r : Registry α) : List Text := Text.sort r.names

end Registry

/-- A list of names, each in quotes. -/
def describedNames (names : List Text) : Text :=
  "[" ++ Text.join ", " (names.map Text.quoted) ++ "]"

end Offside
