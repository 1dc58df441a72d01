import Conformance.Digest.Sha256
import Conformance.Files.Tree
import Conformance.Json.Printer

namespace Conformance.Log

open Json

-- A file of a run, with what proves its content.
structure Artifact where
  path : Path
  kind : String
  sha256 : String
  sizeBytes : Nat
deriving DecidableEq, Repr

-- All files of a run.
structure ArtifactIndex where
  runId : String
  generated : String
  artifacts : List Artifact := []
deriving DecidableEq, Repr

namespace ArtifactIndex

def withFile (index : ArtifactIndex) (t : Tree) (cwd : Place) (path : Path) (kind : String) :
    Except IoError ArtifactIndex := do
  let data ← t.readBytes cwd path
  let (sha256, size) := Sha256.fileDigest data
  .ok { index with artifacts := index.artifacts ++ [⟨path, kind, sha256, size⟩] }

def artifactValue (a : Artifact) : Value :=
  .object [
    ("path", .string a.path),
    ("kind", .string a.kind),
    ("sha256", .string a.sha256),
    ("size_bytes", .nat a.sizeBytes)]

def toValue (index : ArtifactIndex) : Value :=
  .object [
    ("index_version", .nat 1),
    ("run_id", .string index.runId),
    ("generated_utc", .string index.generated),
    ("artifacts", .array (index.artifacts.map artifactValue))]

def toJson (index : ArtifactIndex) : String :=
  index.toValue.pretty

end ArtifactIndex

end Conformance.Log
