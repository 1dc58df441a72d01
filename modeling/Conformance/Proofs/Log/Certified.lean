import Conformance.Log.Artifacts
import Conformance.Proofs.Digest.Streaming
import Conformance.Proofs.Files.Writing

namespace Conformance

namespace Log

variable {t t' : Tree} {cwd : Place}

-- An entry that tells what can be read under its path.
def Artifact.Certifies (entry : Artifact) (t : Tree) (cwd : Place) : Prop :=
  ∃ data, t.readBytes cwd entry.path = .ok data ∧
    entry.sha256 = Text.hexOfBytes (Sha256.digest data) ∧ entry.sizeBytes = data.length

theorem Artifact.Certifies.of_writesOnly {entry : Artifact} {paths : List Path}
    (h : entry.Certifies t cwd) (hwrites : Tree.WritesOnly cwd paths t t')
    (hapart : ∀ p ∈ paths, ¬t'.SameFile cwd entry.path p) : entry.Certifies t' cwd := by
  obtain ⟨data, hread, hsum⟩ := h
  exact ⟨data, hwrites.others _ _ hread hapart, hsum⟩

-- Entries for some outputs, each of them a path and its kind.
structure Covers (entries : List Artifact) (outputs : List (Path × String)) (t : Tree)
    (cwd : Place) : Prop where
  outputs : entries.map (fun entry => (entry.path, entry.kind)) = outputs
  certified : ∀ entry ∈ entries, entry.Certifies t cwd

namespace Covers

variable {entries more : List Artifact} {outputs others : List (Path × String)}

theorem nil (t : Tree) (cwd : Place) : Covers [] [] t cwd :=
  ⟨rfl, fun _ hentry => absurd hentry List.not_mem_nil⟩

theorem mem_outputs (h : Covers entries outputs t cwd) {entry : Artifact}
    (hentry : entry ∈ entries) : (entry.path, entry.kind) ∈ outputs := by
  rw [← h.outputs]
  exact List.mem_map_of_mem hentry

theorem append (h : Covers entries outputs t cwd) (h' : Covers more others t cwd) :
    Covers (entries ++ more) (outputs ++ others) t cwd := by
  refine ⟨by rw [List.map_append, h.outputs, h'.outputs], fun entry hentry => ?_⟩
  rcases List.mem_append.mp hentry with hentry | hentry
  · exact h.certified entry hentry
  · exact h'.certified entry hentry

theorem append_iff : Covers entries (outputs ++ others) t cwd ↔
    ∃ first second, entries = first ++ second ∧ Covers first outputs t cwd ∧
      Covers second others t cwd := by
  constructor
  · intro h
    obtain ⟨first, second, rfl, hfirst, hsecond⟩ := List.map_eq_append_iff.mp h.outputs
    exact ⟨first, second, rfl,
      ⟨hfirst, fun entry hentry => h.certified entry (List.mem_append_left second hentry)⟩,
      ⟨hsecond, fun entry hentry => h.certified entry (List.mem_append_right first hentry)⟩⟩
  · rintro ⟨first, second, rfl, hfirst, hsecond⟩
    exact hfirst.append hsecond

end Covers

theorem ArtifactIndex.withFile_eq_ok_iff {index index' : ArtifactIndex} {path : Path}
    {kind : String} : index.withFile t cwd path kind = .ok index' ↔
      ∃ entries, Covers entries [(path, kind)] t cwd ∧
        index' = { index with artifacts := index.artifacts ++ entries } := by
  have hwith : ∀ data, t.readBytes cwd path = .ok data → index.withFile t cwd path kind =
      .ok { index with artifacts := index.artifacts ++
        [⟨path, kind, Text.hexOfBytes (Sha256.digest data), data.length⟩] } := by
    intro data hread
    rw [withFile, hread]
    simp only [bind, Except.bind, Sha256.fileDigest_eq]
  constructor
  · intro h
    cases hread : t.readBytes cwd path with
    | error e =>
        rw [withFile, hread] at h
        cases h
    | ok data =>
        rw [hwith data hread] at h
        refine ⟨_, ⟨rfl, fun entry hentry => ?_⟩, (Except.ok.inj h).symm⟩
        rw [List.mem_singleton.mp hentry]
        exact ⟨data, hread, rfl, rfl⟩
  · rintro ⟨entries, hcovers, rfl⟩
    obtain ⟨⟨path', kind', sha256, size⟩, rfl, hnames⟩ :=
      List.map_eq_singleton_iff.mp hcovers.outputs
    cases hnames
    obtain ⟨data, hread, rfl, rfl⟩ := hcovers.certified _ List.mem_cons_self
    exact hwith data hread

end Log

end Conformance
