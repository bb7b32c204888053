import Offside.Artifacts.Error
import Offside.Digest.Sha256
import Offside.Text.Blank

/-!
# Artifacts found by what they were made from

An artifact is kept under the digest of its input: `<directory>/<digest>.<extension>`.  The same
input finds it again wherever the input came from.
-/

namespace Offside

/-- A directory of artifacts that are named after the digest of their input. -/
structure ContentCache where
  directory : FilePath
  extension : Text
  deriving Repr, DecidableEq

namespace ContentCache

/-- The key of an input. -/
def key (input : Text) : Text := Sha256.ofText input

/-- Where the artifact of a key is. -/
def artifactPath (c : ContentCache) (key : Text) : FilePath :=
  FilePath.join c.directory (key ++ "." ++ c.extension)

/-- The artifact of a key, without white space at its beginning. -/
def lookup (c : ContentCache) (s : FileStore) (key : Text) : Except ArtifactError (Option Text) :=
  let path := c.artifactPath key
  if s.isFile path then
    match s.readText path with
    | .ok t => .ok (some (Text.trimStart t))
    | .error cause => .error (.read path cause)
  else .ok none

/-- Keep an artifact under a key. -/
def store (c : ContentCache) (s : FileStore) (key payload : Text) :
    Except ArtifactError Unit × FileStore :=
  writeArtifact s (c.artifactPath key) payload

end ContentCache

end Offside
