import Conformance.Proofs.Files.Steady
import Conformance.Proofs.Fixture.KeptDirectory

namespace Conformance.Scratch

open Conformance.Tree (Grows LinkFree)

variable (host : Host) (config : Config) (f : Fixture) (t : Tree)

-- The directory of a category, which kept directories are in.
def categoryPath : Path :=
  Path.join (parent host config) f.category.name

-- The tree with the directory of all scratch directories in it.
def prepared : Tree :=
  (t.makeDirectories host.cwd (parent host config)).2

theorem grows_prepared (gone : Place → Prop) : Grows gone t (prepared host config t) :=
  t.grows_makeDirectories host.cwd gone (parent host config)

-- Where the directory of a category is then.
def CategoryAt (base : Place) : Prop :=
  (prepared host config t).resolve host.cwd (categoryPath host config f) = .ok base

theorem keptPath_eq {f : Fixture} (hname : f.name ≠ "") :
    keptPath host config f =
      Path.join (categoryPath host config f) ("/".intercalate f.keptNames) := by
  rw [keptPath, Fixture.keptDirectory_eq hname, categoryPath]

section Growth

variable (gone : Place → Prop)

-- Once the old directory is removed, only directories are made.
theorem grows_openKept (dir : Path) :
    Grows gone (t.removeDirectory host.cwd dir).2 (openKept host dir t).2 := by
  have hmade : ∀ t', Grows gone t' (openKept.made host dir t').2 := by
    intro t'
    have hgrows := t'.grows_makeDirectories host.cwd gone dir
    unfold openKept.made
    split
    · rename_i hm
      rwa [hm] at hgrows
    · rename_i hm
      rwa [hm] at hgrows
  unfold openKept
  split
  · rename_i hr
    rw [hr]
    split_ifs
    · exact hmade _
    · exact .refl gone _
  · rename_i hr
    rw [hr]
    exact hmade _

variable (hkeep : config.keepArtifacts = true)

include hkeep

theorem grows_create_of_made
    (hmade : (t.makeDirectories host.cwd (parent host config)).1 = .ok ()) :
    Grows gone ((prepared host config t).removeDirectory host.cwd (keptPath host config f)).2
      (create host config f t).2 := by
  unfold create
  split
  · rename_i hm
    rw [hm] at hmade
    cases hmade
  · rename_i hm
    rw [prepared, hm, if_pos hkeep]
    exact grows_openKept host _ gone _

variable {gone}

theorem grows_create
    (h : Grows gone (prepared host config t)
      ((prepared host config t).removeDirectory host.cwd (keptPath host config f)).2) :
    Grows gone (prepared host config t) (create host config f t).2 := by
  cases hmade : (t.makeDirectories host.cwd (parent host config)).1 with
  | ok _ => exact h.trans (grows_create_of_made host config f t gone hkeep hmade)
  | error e =>
      unfold create
      split
      · rename_i hm
        rw [prepared, hm]
        exact .refl gone _
      · rename_i hm
        rw [hm] at hmade
        cases hmade

end Growth

-- Whatever goes stands where the path of the kept directory leads, or below.
theorem grows_create_entry (hkeep : config.keepArtifacts = true) :
    Grows (fun q => ∃ place,
        (prepared host config t).entry host.cwd (keptPath host config f) = .ok place ∧ place <+: q)
      (prepared host config t) (create host config f t).2 := by
  refine grows_create host config f t hkeep ?_
  cases he : (prepared host config t).entry host.cwd (keptPath host config f) with
  | error e =>
      rw [Tree.removeDirectory_of_entry_error _ _ he]
      exact .refl _ _
  | ok place =>
      exact (Tree.grows_removeDirectory _ _ he).mono fun q hq => ⟨place, rfl, hq⟩

-- What goes stands where the names of the kept directory lead, or below.
theorem grows_create_at {dir : Path} {base : Place} {names : List String}
    (hkeep : config.keepArtifacts = true) (hne : names ≠ [])
    (hnames : ∀ name ∈ names, Path.IsPiece name)
    (hpath : keptPath host config f = Path.join dir ("/".intercalate names))
    (hdir : (prepared host config t).resolve host.cwd dir = .ok base)
    (hfree : (prepared host config t).LinkFree base names) :
    Grows (Tree.descend base names <+: ·) (prepared host config t) (create host config f t).2 := by
  refine (grows_create_entry host config f t hkeep).mono ?_
  rintro q ⟨place, he, hq⟩
  rw [hpath] at he
  rwa [Tree.entry_join_linkFree _ hne hnames hdir hfree he] at hq

end Conformance.Scratch
