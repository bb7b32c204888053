import Offside.Text.Basic

/-!
# Tables

A table gives values to names.  It is kept in the order of the names, each name once, so that two
tables with the same values are equal and are written the same way.
-/

namespace Offside

/-- Values by name, in the order of the names. -/
abbrev Table (α : Type) := List (Text × α)

namespace Table

variable {α : Type}

/-- Give a name a value, in its place in the order of names. -/
def insert (name : Text) (value : α) : Table α → Table α
  | [] => [(name, value)]
  | (known, old) :: rest =>
    if known == name then (name, value) :: rest
    else if Text.before name known then (name, value) :: (known, old) :: rest
    else (known, old) :: insert name value rest

/-- The value of a name. -/
def get? (table : Table α) (name : Text) : Option α :=
  (table.find? fun (known, _) => known == name).map (·.2)

/-- Whether a name has a value. -/
def has (table : Table α) (name : Text) : Bool := (get? table name).isSome

/-- Give names values one after the other; the last value of a name counts. -/
def insertAll (values : List (Text × α)) (table : Table α) : Table α :=
  values.foldl (fun table (name, value) => insert name value table) table

/-- The table of the given values; the last value of a name counts. -/
def ofList (values : List (Text × α)) : Table α := insertAll values []

end Table

end Offside
