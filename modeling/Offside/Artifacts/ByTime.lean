import Offside.Artifacts.Error
import Offside.Digest.Sha256

/-!
# Artifacts found by where and when

The artifacts of the sources below a directory are laid out like the sources, in a directory named
after the tag of the sources' directory:

```text
<sources>/pages/home.haml    <artifacts>/<tag of sources>/pages/home.<extension>
```

A source elsewhere is kept under the tag of its own directory.  Directories of sources can therefore
share a directory of artifacts.  An artifact counts only while it is newer than its source.

Artifacts are cleared directory by directory: what is in a directory is looked at by name, and the
directories in it come later.  Names are taken in the order of the store, and a directory is read as
a whole before anything in it is removed; an operating system may give them in another order and
while files are removed.  That it may refuse to read a directory or to remove a file for reasons
other than those of `FileError` is left out.
-/

namespace Offside

/-- The artifacts of a directory of sources. -/
structure TimeCache where
  sources : FilePath
  artifacts : FilePath
  extension : Text
  deriving Repr, DecidableEq

namespace TimeCache

/-- The name that stands for a directory: the first sixteen digits of the digest of its path. -/
def tag (directory : FilePath) : Text := (Sha256.ofText directory).take 16

/-- Where the artifacts of the sources are. -/
def artifactDirectory (c : TimeCache) (s : FileStore) : FilePath :=
  FilePath.join c.artifacts (tag (s.canonical c.sources))

/-- The directory a source is kept under, and its path below it. -/
def split (c : TimeCache) (s : FileStore) (source : FilePath) : FilePath × FilePath :=
  let root := s.canonical c.sources
  let source := s.canonical source
  match FilePath.relativeTo? root source with
  | some relative => (root, relative)
  | none => (source.parent?.getD [], source.fileName?.getD "template")

/-- Where the artifact of a source is. -/
def artifactPath (c : TimeCache) (s : FileStore) (source : FilePath) : FilePath :=
  let (directory, relative) := c.split s source
  FilePath.withExtension
    (FilePath.join (FilePath.join c.artifacts (tag directory)) relative) c.extension

/-- When a file was written. -/
def writtenAt (s : FileStore) (path : FilePath) : Except ArtifactError Nat :=
  match s.modified path with
  | .ok time => .ok time
  | .error cause => .error (.inspect path cause)

/-- The artifact of a source, if there is one that is newer than the source.  One that is not is
removed. -/
def lookup (c : TimeCache) (s : FileStore) (source : FilePath) :
    Except ArtifactError (Option Text) × FileStore :=
  let artifact := c.artifactPath s source
  if s.isFile artifact then
    match writtenAt s artifact, writtenAt s source with
    | .error e, _ => (.error e, s)
    | _, .error e => (.error e, s)
    | .ok made, .ok written =>
      if written < made then
        match s.readText artifact with
        | .ok t => (.ok (some t), s)
        | .error cause => (.error (.read artifact cause), s)
      else
        match s.remove artifact with
        | .ok s => (.ok none, s)
        | .error cause => (.error (.write artifact cause), s)
  else (.ok none, s)

/-- Keep the artifact of a source. -/
def store (c : TimeCache) (s : FileStore) (source : FilePath) (payload : Text) :
    Except ArtifactError Unit × FileStore :=
  writeArtifact s (c.artifactPath s source) payload

/-! ## Clearing -/

/-- Clearing that is under way. -/
structure Clearing where
  /-- How many files have been removed. -/
  removed : Nat
  /-- The directories that are still to be gone through, the next one first. -/
  pending : List FilePath
  files : FileStore

/-- Why clearing stopped, and the files as they are then. -/
abbrev ClearFailure := ArtifactError × FileStore

/-- Go on with what has a name in a directory: a directory has to wait, and a file is removed if it
has the extension of artifacts. -/
def clearEntry (c : TimeCache) (directory : FilePath) (state : Clearing) (name : Text) :
    Except ClearFailure Clearing :=
  let path := FilePath.join directory name
  if state.files.isDirectory path then .ok { state with pending := path :: state.pending }
  else if FilePath.extension? path == some c.extension then
    match state.files.remove path with
    | .ok files => .ok { state with removed := state.removed + 1, files := files }
    | .error cause => .error (.write path cause, state.files)
  else .ok state

/-- Go through one directory. -/
def clearDirectory (c : TimeCache) (directory : FilePath) (state : Clearing) :
    Except ClearFailure Clearing :=
  match state.files.readDirectory directory with
  | .ok names => names.foldlM (c.clearEntry directory) state
  | .error cause => .error (.inspect directory cause, state.files)

/-- Go through the directories that are pending, at most `count` of them. -/
def clearPending (c : TimeCache) : Nat → Clearing → Except ClearFailure Clearing
  | 0, state => .ok state
  | count + 1, state =>
    match state.pending with
    | [] => .ok state
    | directory :: rest => do
      c.clearPending count (← c.clearDirectory directory { state with pending := rest })

/-- Remove the artifacts of the sources, and say how many there were.  No directory is gone through
twice, so there are no more steps than entries. -/
def clear (c : TimeCache) (s : FileStore) : Except ArtifactError Nat × FileStore :=
  let directory := c.artifactDirectory s
  if s.isDirectory directory then
    match c.clearPending s.entries.length ⟨0, [directory], s⟩ with
    | .ok state => (.ok state.removed, state.files)
    | .error (cause, files) => (.error cause, files)
  else (.ok 0, s)

end TimeCache

end Offside
