import Offside.Json.Basic

/-!
# Tables of a TOML document

A table of a document is filled by keys, and opened by a header or by a dotted key.  Each name is
given once: a key is not given twice, a table is not opened by two headers, and a table that a
dotted key opened is only filled by dotted keys.  A table on the way to a deeper header may still
get a header of its own, and a dotted key may pass through it but not fill it.
-/

namespace Offside.Toml

/-- How a table came to be. -/
inductive TableKind where
  /-- On the way to a deeper header. -/
  | passed
  /-- By a header of its own. -/
  | header
  /-- By a dotted key. -/
  | dotted
  deriving Repr, DecidableEq

/-- What a name stands for. -/
inductive Node where
  | value (json : Json)
  | table (kind : TableKind) (entries : List (Text × Node))

/-- What the names of a table stand for. -/
abbrev Entries := List (Text × Node)

namespace Entries

/-- What a name stands for. -/
def get? (entries : Entries) (name : Text) : Option Node :=
  (entries.find? fun (known, _) => known == name).map (·.2)

/-- Let a name stand for a node. -/
def set (entries : Entries) (name : Text) (node : Node) : Entries :=
  if (get? entries name).isSome then
    entries.map fun (known, old) => if known == name then (known, node) else (known, old)
  else entries ++ [(name, node)]

/-- Give a dotted key a value. -/
def addKey (value : Json) : List Text → Entries → Option Entries
  | [], _ => none
  | [name], entries =>
    match get? entries name with
    | none => some (set entries name (.value value))
    | some _ => none
  | name :: rest, entries =>
    match get? entries name with
    | none => (addKey value rest []).map fun inner => set entries name (.table .dotted inner)
    | some (.table .dotted old) =>
      (addKey value rest old).map fun inner => set entries name (.table .dotted inner)
    | some (.table .passed old) =>
      if rest.length < 2 then none
      else (addKey value rest old).map fun inner => set entries name (.table .passed inner)
    | some _ => none

/-- Open the table of a header. -/
def openHeader : List Text → Entries → Option Entries
  | [], _ => none
  | [name], entries =>
    match get? entries name with
    | none => some (set entries name (.table .header []))
    | some (.table .passed inner) => some (set entries name (.table .header inner))
    | some _ => none
  | name :: rest, entries =>
    match get? entries name with
    | none => (openHeader rest []).map fun inner => set entries name (.table .passed inner)
    | some (.table kind old) =>
      (openHeader rest old).map fun inner => set entries name (.table kind inner)
    | some (.value _) => none

/-- Give a dotted key a value in the table that a path leads to. -/
def addUnder (key : List Text) (value : Json) : List Text → Entries → Option Entries
  | [], entries => addKey value key entries
  | name :: rest, entries =>
    match get? entries name with
    | some (.table kind old) =>
      (addUnder key value rest old).map fun inner => set entries name (.table kind inner)
    | _ => none

end Entries

mutual

/-- The data value of a node. -/
def Node.toJson : Node → Json
  | .value json => json
  | .table _ entries => .object (Table.ofList (fieldsOf entries))

/-- The data values of entries. -/
def fieldsOf : List (Text × Node) → List (Text × Json)
  | [] => []
  | (name, node) :: rest => (name, node.toJson) :: fieldsOf rest

end

end Offside.Toml
