import Offside.Files.Store

/-!
# Artifacts

Compiled output is kept in files, so that a source that has not changed need not be compiled again.
There are two ways to find the artifact of a source: by what it was made from
(`Offside.ContentCache`) and by where the source is and when it was written
(`Offside.TimeCache`).  They share how an artifact is written and how that can fail.
-/

namespace Offside

/-- Why an artifact could not be used. -/
inductive ArtifactError where
  | read (path : FilePath) (cause : FileError)
  | write (path : FilePath) (cause : FileError)
  | inspect (path : FilePath) (cause : FileError)
  deriving Repr, DecidableEq

namespace ArtifactError

/-- The text of the error. -/
def message : ArtifactError → Text
  | read path cause => "failed to read cached artifact " ++ path ++ ": " ++ cause.message
  | write path cause => "failed to write cached artifact " ++ path ++ ": " ++ cause.message
  | inspect path cause => "failed to inspect " ++ path ++ ": " ++ cause.message

end ArtifactError

/-- Write an artifact, making the directories it needs. -/
def writeArtifact (s : FileStore) (path : FilePath) (payload : Text) :
    Except ArtifactError Unit × FileStore :=
  let directory := path.parent?.getD []
  match s.makeDirectories directory with
  | (.error cause, s) => (.error (.write directory cause), s)
  | (.ok (), s) =>
    match s.writeText path payload with
    | .ok s => (.ok (), s)
    | .error cause => (.error (.write path cause), s)

end Offside
