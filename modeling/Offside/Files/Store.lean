import Offside.Files.Path
import Offside.Text.Utf8

/-!
# Files and directories

A file store is what a run can see and change of a file system: directories, files with their
contents and the time they were last written, the directory that relative paths start from, the
directory for temporary files, and the time of day that a written file is stamped with.

A path is followed part by part, as the operating system follows it: each part before the last has
to be a directory that exists, and a double dot goes back up.  The errors are those the operating
system gives.
-/

namespace Offside

/-- What the operating system refuses to do. -/
inductive FileError where
  | notFound
  | alreadyExists
  | notADirectory
  | isADirectory
  | notText
  deriving Repr, DecidableEq

namespace FileError

/-- The text of the error. -/
def message : FileError → Text
  | notFound => "No such file or directory (os error 2)"
  | alreadyExists => "File exists (os error 17)"
  | notADirectory => "Not a directory (os error 20)"
  | isADirectory => "Is a directory (os error 21)"
  | notText => "stream did not contain valid UTF-8"

end FileError

/-- What a file holds: a text, or bytes that are not the UTF-8 form of any text. -/
inductive Contents where
  | text (value : Text)
  | bytes (value : List UInt8)
  deriving Repr, DecidableEq

namespace Contents

/-- The contents that some bytes are. -/
def ofBytes (value : List UInt8) : Contents :=
  match String.fromUTF8? ⟨value.toArray⟩ with
  | some s => text s.toList
  | none => bytes value

/-- The text of the contents, with replacement characters where bytes are not UTF-8. -/
def readable : Contents → Text
  | text value => value
  | bytes value => Text.ofBytes value

end Contents

/-- What is found at a place. -/
inductive FileEntry where
  | directory
  | file (contents : Contents) (modified : Nat)
  deriving Repr, DecidableEq

/-- A place in the file system: the names on the way down from the root. -/
abbrev Location := List Text

namespace Location

/-- The path that leads from the root to a place. -/
def path (l : Location) : FilePath := '/' :: Text.join "/" l

end Location

/-- What a run can see and change of a file system. -/
structure FileStore where
  entries : List (Location × FileEntry)
  /-- Where relative paths start. -/
  current : Location
  /-- The directory for temporary files. -/
  temporary : FilePath
  /-- The time that a written file is stamped with. -/
  clock : Nat

namespace FileStore

/-- What is at a place; the root is always there. -/
def entry? (s : FileStore) (l : Location) : Option FileEntry :=
  if l.isEmpty then some .directory else (s.entries.find? fun (there, _) => there == l).map (·.2)

/-- Put something at a place. -/
def insert (s : FileStore) (l : Location) (e : FileEntry) : FileStore :=
  { s with entries := (l, e) :: s.entries.filter fun (there, _) => there != l }

/-- Take away what is at a place. -/
def erase (s : FileStore) (l : Location) : FileStore :=
  { s with entries := s.entries.filter fun (there, _) => there != l }

/-! ## Following a path -/

/-- Check that a place is a directory. -/
def enter (s : FileStore) (l : Location) : Except FileError Unit :=
  match s.entry? l with
  | some .directory => .ok ()
  | some (.file ..) => .error .notADirectory
  | none => .error .notFound

/-- Follow the parts of a path from a place on. -/
def walk (s : FileStore) (l : Location) : List Text → Except FileError Location
  | [] => .ok l
  | part :: rest => do
    s.enter l
    if part.isEmpty || part == "." then s.walk l rest
    else if part == ".." then s.walk l.dropLast rest
    else s.walk (l ++ [part]) rest

/-- Where a path starts. -/
def start (s : FileStore) (p : FilePath) : Location := if p.isAbsolute then [] else s.current

/-- The place that a path leads to, if something is there. -/
def locate (s : FileStore) (p : FilePath) : Except FileError Location := do
  if p.isEmpty then .error .notFound
  let l ← s.walk (s.start p) (Text.splitOn '/' p)
  if (s.entry? l).isSome then return l else .error .notFound

/-- The place where a file or directory of this path is, or would be made: its directory has to be
there. -/
def place (s : FileStore) (p : FilePath) : Except FileError Location := do
  let pieces := Text.splitOn '/' p
  let name := pieces.getLast?.getD []
  if name.isEmpty || name == "." || name == ".." then s.locate p
  else
    let directory ← s.walk (s.start p) pieces.dropLast
    s.enter directory
    return directory ++ [name]

/-! ## Asking -/

/-- What a path leads to. -/
def found? (s : FileStore) (p : FilePath) : Option FileEntry :=
  match s.locate p with
  | .ok l => s.entry? l
  | .error _ => none

/-- Whether a path leads to a file. -/
def isFile (s : FileStore) (p : FilePath) : Bool :=
  match s.found? p with
  | some (.file ..) => true
  | _ => false

/-- Whether a path leads to a directory. -/
def isDirectory (s : FileStore) (p : FilePath) : Bool :=
  match s.found? p with
  | some .directory => true
  | _ => false

/-- The text of a file. -/
def readText (s : FileStore) (p : FilePath) : Except FileError Text := do
  match s.entry? (← s.locate p) with
  | some (.file (.text t) _) => return t
  | some (.file (.bytes _) _) => .error .notText
  | some .directory => .error .isADirectory
  | none => .error .notFound

/-- The text of a file whose bytes may be anything. -/
def readAnyText (s : FileStore) (p : FilePath) : Except FileError Text := do
  match s.entry? (← s.locate p) with
  | some (.file contents _) => return contents.readable
  | some .directory => .error .isADirectory
  | none => .error .notFound

/-- When a file was last written.  Directories are not timed; each counts as changed just before the
present moment. -/
def modified (s : FileStore) (p : FilePath) : Except FileError Nat := do
  match s.entry? (← s.locate p) with
  | some (.file _ time) => return time
  | some .directory => return s.clock - 1
  | none => .error .notFound

/-- The absolute path of what a path leads to, without dots. -/
def canonical? (s : FileStore) (p : FilePath) : Option FilePath :=
  match s.locate p with
  | .ok l => some l.path
  | .error _ => none

/-- The canonical path, where names that lead to nothing are kept as written below the deepest
directory that is there.  `steps` bounds the number of such names. -/
def canonicalWithin (s : FileStore) : Nat → FilePath → FilePath
  | 0, p => p
  | steps + 1, p =>
    match s.canonical? p with
    | some resolved => resolved
    | none =>
      match p.parent?, p.fileName? with
      | some parent, some name =>
        if parent.isEmpty then p else (s.canonicalWithin steps parent).join name
      | _, _ => p

/-- The canonical form of a path. -/
def canonical (s : FileStore) (p : FilePath) : FilePath := s.canonicalWithin (p.length + 1) p

/-- The names of what is in a directory. -/
def namesIn (s : FileStore) (directory : Location) : List Text :=
  s.entries.filterMap fun (l, _) => if l.dropLast == directory then l.getLast? else none

/-- The names of what is in the directory that a path leads to. -/
def readDirectory (s : FileStore) (p : FilePath) : Except FileError (List Text) := do
  let l ← s.locate p
  s.enter l
  return s.namesIn l

/-- All files, with their places. -/
def files (s : FileStore) : List Location :=
  s.entries.filterMap fun (l, e) =>
    match e with
    | .file .. => some l
    | .directory => none

/-! ## Changing -/

/-- Write contents to a file, stamped with a time. -/
def writeAt (s : FileStore) (p : FilePath) (contents : Contents) (time : Nat) :
    Except FileError FileStore := do
  let l ← s.place p
  match s.entry? l with
  | some .directory => .error .isADirectory
  | _ => return s.insert l (.file contents time)

/-- Write a text to a file, stamped with the time of day. -/
def writeText (s : FileStore) (p : FilePath) (t : Text) : Except FileError FileStore :=
  s.writeAt p (.text t) s.clock

/-- Change the time of a file. -/
def touch (s : FileStore) (p : FilePath) (time : Nat) : Except FileError FileStore := do
  let l ← s.locate p
  match s.entry? l with
  | some (.file contents _) => return s.insert l (.file contents time)
  | some .directory => .error .isADirectory
  | none => .error .notFound

/-- Remove a file. -/
def remove (s : FileStore) (p : FilePath) : Except FileError FileStore := do
  let l ← s.locate p
  match s.entry? l with
  | some (.file ..) => return s.erase l
  | some .directory => .error .isADirectory
  | none => .error .notFound

/-- Make one directory in a directory that is there. -/
def makeDirectory (s : FileStore) (p : FilePath) : Except FileError FileStore := do
  let l ← s.place p
  if (s.entry? l).isSome then .error .alreadyExists else return s.insert l .directory

/-- Make a directory and the directories above it, at most `levels` of them.  What has been made
stays when something further down fails. -/
def makeDirectoriesWithin : Nat → FileStore → FilePath → Except FileError Unit × FileStore
  | 0, s, _ => (.error .notFound, s)
  | levels + 1, s, p =>
    if p.isEmpty then (.ok (), s)
    else
      let retry (s : FileStore) : Except FileError Unit × FileStore :=
        match s.makeDirectory p with
        | .ok made => (.ok (), made)
        | .error e => if s.isDirectory p then (.ok (), s) else (.error e, s)
      match s.makeDirectory p with
      | .error .notFound =>
        match p.parent? with
        | none => (.error .notFound, s)
        | some parent =>
          match makeDirectoriesWithin levels s parent with
          | (.ok (), s) => retry s
          | failed => failed
      | _ => retry s

/-- Make a directory and the directories above it. -/
def makeDirectories (s : FileStore) (p : FilePath) : Except FileError Unit × FileStore :=
  makeDirectoriesWithin (p.length + 1) s p

end FileStore

end Offside
