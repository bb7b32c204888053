import Offside.Settings.Field
import Offside.Text.Case
import Offside.Toml.Reader

/-!
# Settings in layers

Settings are put together from layers: the standard settings, then files, and last single keys that
are set from outside.  The later layer wins, key by key.  Upper and lower case make no difference in
keys.

A key that is set from outside is written with dots between its names, and a number in brackets for
an item of a list.  A key at the top of a file is read in the same way where it can be.
-/

namespace Offside

/-- The settings of both compilers. -/
structure Settings where
  styles : StyleSettings
  templates : TemplateSettings
  deriving Repr, DecidableEq

/-- A layer of settings. -/
inductive SettingsLayer where
  /-- A file that has to be there. -/
  | file (path : FilePath)
  /-- A file that is used if it is there. -/
  | optionalFile (path : FilePath)
  /-- A single key of a section. -/
  | key (name key : Text) (value : Json)

/-! ## Keys -/

/-- A part of a key. -/
inductive KeyPart where
  | name (value : Text)
  | index (value : Int)
  deriving Repr, DecidableEq

/-- Whether a character can stand in a name. -/
def isSettingChar (c : Char) : Bool := c.isAlphanum || c == ' ' || c == '_' || c == '-'

/-- Whether a character can stand around the number in brackets. -/
def isIndexPadding (c : Char) : Bool := c == ' ' || c == '\t'

/-- The number in brackets, perhaps negative, if it has at most 64 bits. -/
def indexOf? (t : Text) : Option Int :=
  let t := Text.dropEndWhile isIndexPadding (t.dropWhile isIndexPadding)
  let value : Option Int :=
    match t with
    | '-' :: digits => (Text.natValue? digits).map fun n => -(n : Int)
    | _ => (Text.natValue? t).map fun n => (n : Int)
  value.filter fun i => -0x8000000000000000 ≤ i && i < 0x8000000000000000

/-- The parts of a key after its first name; `steps` bounds their number. -/
def keyPartsAfter : Nat → Text → Option (List KeyPart)
  | _, [] => some []
  | 0, _ => none
  | steps + 1, '.' :: rest =>
    let name := rest.takeWhile isSettingChar
    if name.isEmpty then none
    else (keyPartsAfter steps (rest.dropWhile isSettingChar)).map (.name name :: ·)
  | steps + 1, '[' :: rest => do
    let (written, rest) ← Text.splitOnce? ']' rest
    let index ← indexOf? written
    let parts ← keyPartsAfter steps rest
    return .index index :: parts
  | _, _ => none

/-- The parts of a key. -/
def keyParts? (key : Text) : Option (List KeyPart) := keyPartsAfter (key.length + 1) ('.' :: key)

/-- A name in lower case. -/
def lowerName (name : Text) : Text :=
  name.flatMap fun c => if Text.isUpper c then Text.lowerOfUpper c else [c]

/-! ## Merging -/

/-- The fields of a value; what is not a table has none. -/
def fieldsOrNone (value : Option Json) : Fields := (value.bind Json.asFields?).getD []

/-- The items of a value; what is not a list has none. -/
def itemsOrNone : Option Json → List Json
  | some (.array items) => items
  | _ => []

mutual

/-- Put a value over what was there.  The fields of a table go one by one over the fields that were
there, so a table without fields changes nothing; any other value takes the place of what was
there. -/
def mergeOver (old : Option Json) : Json → Json
  | .object [] => old.getD (.object [])
  | .object (field :: rest) => .object (mergeFields (fieldsOrNone old) (field :: rest))
  | value => value

/-- Put fields over others. -/
def mergeFields (old : Fields) : List (Text × Json) → Fields
  | [] => old
  | (name, value) :: rest =>
    let name := lowerName name
    mergeFields (Table.insert name (mergeOver (Table.get? old name) value) old) rest

end

/-- Change one item of a list, which is filled up with nulls to have it.  A negative index counts
from the end. -/
def changeItem (change : Option Json → Json) (index : Int) (items : List Json) : List Json :=
  let i := (if index < 0 then items.length + index else index).toNat
  let items := items ++ List.replicate (i + 1 - items.length) .null
  items.set i (change items[i]?)

/-- The value that a key of the given parts makes of what was there. -/
def setParts (value : Json) : List KeyPart → Option Json → Json
  | [], old => mergeOver old value
  | .name name :: rest, old =>
    let fields := fieldsOrNone old
    let name := lowerName name
    .object (Table.insert name (setParts value rest (Table.get? fields name)) fields)
  | [.index i], old => .array (changeItem (fun _ => value) i (itemsOrNone old))
  | .index i :: rest, old => .array (changeItem (setParts value rest) i (itemsOrNone old))

/-! ## Loading -/

/-- The fields that have a value. -/
def presentFields (fields : Fields) : Fields :=
  fields.filter fun (_, value) =>
    match value with
    | .null => false
    | _ => true

/-- The layer below all others. -/
def standardValues : Json :=
  .object (Table.ofList [
    (StyleSettings.sectionName, .object (presentFields StyleSettings.standard.fields)),
    (TemplateSettings.sectionName, .object (presentFields TemplateSettings.standard.fields))])

/-- The file that a path names: the path itself, or the path with the extension of settings. -/
def settingsFile? (files : FileStore) (path : FilePath) : Option FilePath :=
  let path := FilePath.join files.current.path path
  [path, path.addExtension "toml"].find? files.isFile

/-- Put the contents of a file over what is there already. -/
def addContents (all : Json) (contents : Fields) : Json :=
  contents.foldl (fun (all : Json) (name, value) =>
    setParts value ((keyParts? name).getD [.name name]) (some all)) all

/-- Put a file over what is there already. -/
def addFile (files : FileStore) (isRequired : Bool) (path : FilePath) (all : Json) :
    Except SettingsError Json :=
  match settingsFile? files path with
  | none => if isRequired then .error (.missingFile path) else .ok all
  | some found =>
    match files.readAnyText found with
    | .error cause => if isRequired then .error (.unreadableFile found cause) else .ok all
    | .ok t =>
      match Toml.read? (Text.withoutMark t) with
      | some contents => .ok (addContents all contents)
      | none => .error (.brokenFile found)

/-- The single keys of layers, with the parts of their names. -/
def keysOf : List SettingsLayer → Except SettingsError (List (List KeyPart × Json))
  | [] => .ok []
  | .key name key value :: rest =>
    match keyParts? (name ++ "." ++ key) with
    | some parts => do
      let rest ← keysOf rest
      return (parts, value) :: rest
    | none => .error (.brokenKey (name ++ "." ++ key))
  | _ :: rest => keysOf rest

/-- The files of layers, the later over the earlier. -/
def filesOf (files : FileStore) (all : Json) : List SettingsLayer → Except SettingsError Json
  | [] => .ok all
  | .file path :: rest => do
    let all ← addFile files true path all
    filesOf files all rest
  | .optionalFile path :: rest => do
    let all ← addFile files false path all
    filesOf files all rest
  | .key .. :: rest => filesOf files all rest

/-- The settings that layers give. -/
def loadSettings (files : FileStore) (layers : List SettingsLayer) :
    Except SettingsError Settings := do
  let keys ← keysOf layers
  let all ← filesOf files standardValues layers
  let all := keys.foldl (fun (all : Json) (parts, value) => setParts value parts (some all)) all
  let fields := fieldsOrNone (some all)
  let styles ← StyleSettings.ofSection (Table.get? fields StyleSettings.sectionName)
  let templates ← TemplateSettings.ofSection (Table.get? fields TemplateSettings.sectionName)
  return ⟨styles, templates⟩

end Offside
