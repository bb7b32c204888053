import Offside.CommandLine.Run

/-!
# The program

Reads the files that a command can see into a file store, runs the command on it, and writes back
what the command changed.  Of the file system it reads the current directory, the directories of its
arguments, and the directories where compiled output is kept.
-/

namespace Offside

/-- The place that an absolute path leads to. -/
def placeOf (path : String) : Location := (Text.splitOn '/' path.toList).filter (!·.isEmpty)

/-- The directories on the way to a place. -/
def directoriesTo (l : Location) : List (Location × FileEntry) :=
  (List.range l.length).map fun n => (l.take n, FileEntry.directory)

/-- The bytes that contents are written as. -/
def Contents.toBytes : Contents → ByteArray
  | .text t => (String.ofList t).toUTF8
  | .bytes value => ⟨value.toArray⟩

/-- What is at an absolute path, and everything below it; what cannot be read is passed over. -/
partial def readTree (path : String) : IO (List (Location × FileEntry)) := do
  try
    let here ← IO.currentDir
    let info ← (here / path).metadata
    match info.type with
    | .dir =>
      let mut found := [(placeOf path, FileEntry.directory)]
      for entry in ← (here / path).readDir do
        found := found ++ (← readTree entry.path.toString)
      return found
    | .file =>
      let bytes ← IO.FS.readBinFile path
      let time := info.modified.sec.toNat * 1000000000 + info.modified.nsec.toNat
      return [(placeOf path, .file (.ofBytes bytes.toList) time)]
    | _ => return []
  catch _ => return []

/-- An absolute form of a path. -/
def absolutePath (path : Text) : IO String := do
  let here ← IO.currentDir
  return (here / String.ofList path).toString

/-- Add a tree to a file store, with the directories that lead to it. -/
def addTree (s : FileStore) (path : String) : IO FileStore := do
  let tree ← readTree path
  let above := if tree.isEmpty then [] else directoriesTo (placeOf path)
  return (above ++ tree).foldl (fun s (l, e) => s.insert l e) s

/-- The directories that the words of a command line may name, or lie in. -/
def namedDirectories (words : List String) : IO (List String) :=
  words.flatMapM fun word => do
    let value := (word.splitOn "=").getLast?.getD word
    let path ← absolutePath value.toList
    let parent := (FilePath.parent? path.toList).getD []
    return [path, String.ofList parent]

/-- The files that a command can see before its settings are known. -/
def startingStore (words : List String) : IO FileStore := do
  let here := (← IO.currentDir).toString
  let temporary := (← IO.getEnv "TMPDIR").getD "/tmp"
  let empty : FileStore := ⟨[], placeOf here, temporary.toList, 0⟩
  let s ← addTree empty here
  (← namedDirectories words).foldlM (fun s path =>
    if (s.entry? (placeOf path)).isSome then return s else addTree s path) s

/-- Add the directories where compiled output is kept. -/
def withKeptOutput (s : FileStore) (i : Invocation) : IO FileStore := do
  match loadSettings s i.layers with
  | .error _ => return s
  | .ok settings =>
    let s ← addTree s (← absolutePath (settings.styles.cacheRoot s))
    addTree s (← absolutePath (settings.templates.cacheRoot s))

/-- Set the clock later than every file. -/
def setClock (s : FileStore) : FileStore :=
  { s with clock := s.entries.foldl (fun latest (_, e) =>
      match e with
      | .file _ time => max latest (time + 1)
      | .directory => latest) 0 }

/-- Write what has changed back to the file system. -/
def writeChanges (before after : FileStore) : IO Unit := do
  for (l, e) in after.entries.reverse do
    if before.entry? l != some e then
      let path := String.ofList (Location.path l)
      match e with
      | .directory => IO.FS.createDirAll path
      | .file contents _ =>
        IO.FS.createDirAll (String.ofList (Location.path l.dropLast))
        IO.FS.writeBinFile path contents.toBytes
  for (l, e) in before.entries do
    if (after.entry? l).isNone && e != .directory then
      IO.FS.removeFile (String.ofList (Location.path l))

/-- Run a command on the file system; the number is the exit code. -/
def runOnFiles (words : List String) (i : Invocation) : IO UInt32 := do
  let s := setClock (← withKeptOutput (← startingStore words) i)
  let done := i.run s
  writeChanges s done.files
  for warning in done.warnings do
    IO.eprintln (String.ofList ("WARN " ++ warning.message))
  match done.outcome with
  | .ok output =>
    IO.print (String.ofList output)
    return 0
  | .error e =>
    IO.eprintln (String.ofList e.message)
    return 1

end Offside

open Offside in
/-- The command line. -/
def main (words : List String) : IO UInt32 := do
  match Request.ofArguments (words.map String.toList) with
  | .error e =>
    IO.eprintln ("error: " ++ String.ofList e.message)
    return 2
  | .ok .version =>
    IO.print (String.ofList versionText)
    return 0
  | .ok .help =>
    IO.print (String.ofList usageText)
    return 0
  | .ok (.run invocation) => runOnFiles words invocation
