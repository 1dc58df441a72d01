import Conformance.Proofs.Fixture.Creation
import Conformance.Proofs.Fixture.Stages
import Conformance.Catalog.Validity

namespace Conformance.Scratch

open Conformance.Tree (Grows LinkFree Below)

variable (host : Host) (config : Config) {f : Fixture} (t : Tree)

section Names

theorem names_keptPath (hname : f.name ≠ "") :
    Tree.names (keptPath host config f) =
      Tree.names (categoryPath host config f) ++ f.keptNames := by
  have hpieces := Fixture.isPiece_of_mem_keptNames hname
  rw [keptPath_eq host config hname, Tree.names_join _ (Path.isAbsolute_intercalate hpieces),
    Tree.names_intercalate hpieces]

-- The way from the category to the kept directory can be read off the path, so
-- no other spelling of it leads down when this one does not.
theorem exists_ordinary_iff (hname : f.name ≠ "") :
    (∃ names, names ≠ [] ∧ (∀ name ∈ names, Path.IsOrdinary name) ∧
      keptPath host config f = Path.join (categoryPath host config f) ("/".intercalate names)) ↔
      ¬f.Unkeepable := by
  constructor
  · rintro ⟨names, -, hnames, hpath⟩ hunkeepable
    have hpieces : ∀ name ∈ names, Path.IsPiece name := fun name hn => (hnames name hn).1
    have hread := names_keptPath host config hname
    rw [hpath, Tree.names_join _ (Path.isAbsolute_intercalate hpieces),
      Tree.names_intercalate hpieces, List.append_cancel_left_eq,
      Fixture.keptNames_of_unkeepable hunkeepable] at hread
    have hordinary := hnames f.name (hread ▸ List.mem_cons_self)
    rcases hunkeepable with h | h
    · exact hordinary.2.1 h
    · exact hordinary.2.2 h
  · intro h
    exact ⟨f.keptNames, f.keptNames_ne_nil, Fixture.isOrdinary_of_mem_keptNames ⟨hname, h⟩,
      keptPath_eq host config hname⟩

end Names

section Removal

-- When the path of a kept directory leads anywhere, its category does too, and
-- the names behind it are gone along from there.
theorem entry_keptPath_eq (hname : f.name ≠ "")
    (hfree : ∀ base, CategoryAt host config f t base →
      (prepared host config t).LinkFree base f.keptNames)
    {place : Place}
    (hentry : (prepared host config t).entry host.cwd (keptPath host config f) = .ok place) :
    ∃ base, CategoryAt host config f t base ∧ place = Tree.descend base f.keptNames := by
  have hpieces := Fixture.isPiece_of_mem_keptNames hname
  rw [keptPath_eq host config hname] at hentry
  obtain ⟨base, hbase⟩ :=
    Tree.exists_resolve_of_entry_join _ f.keptNames_ne_nil hpieces hentry
  exact ⟨base, hbase,
    Tree.entry_join_linkFree _ f.keptNames_ne_nil hpieces hbase (hfree base hbase) hentry⟩

theorem below_descend_keptNames_iff (hname : f.name ≠ "") (base : Place) :
    Below base (Tree.descend base f.keptNames) ↔ ¬f.Unkeepable := by
  constructor
  · intro hbelow hunkeepable
    have hlen : (Tree.descend base f.keptNames).length ≤ base.length := by
      rw [Fixture.keptNames_of_unkeepable hunkeepable]
      rcases hunkeepable with h | h <;> simp [Tree.descend, h]
    exact hbelow.2 (hbelow.1.eq_of_length (Nat.le_antisymm hbelow.1.length_le hlen)).symm
  · intro h
    rw [Tree.descend_ordinary base (Fixture.isOrdinary_of_mem_keptNames ⟨hname, h⟩)]
    exact ⟨List.prefix_append base f.keptNames, by simpa using f.keptNames_ne_nil⟩

-- Outside its category a fixture with a directory of its own removes nothing.
theorem node?_create_of_not_below (h : f.Placed) (hkeep : config.keepArtifacts = true)
    (hfree : ∀ base, CategoryAt host config f t base → t.LinkFree base f.keptNames)
    {q : Place} (hq : ∀ base, CategoryAt host config f t base → ¬Below base q) {node : Node}
    (hnode : t.node? q = some node) : (create host config f t).2.node? q = some node := by
  have hgrows := (grows_prepared host config t _).trans (grows_create_entry host config f t hkeep)
  refine hgrows.node?_eq_some ?_ hnode
  rintro ⟨place, hentry, hunder⟩
  have hfree' : ∀ base, CategoryAt host config f t base →
      (prepared host config t).LinkFree base f.keptNames :=
    fun base hbase => (hfree base hbase).of_grows
      (grows_prepared host config t fun _ => False) fun _ _ _ => not_false
  obtain ⟨base, hbase, rfl⟩ := entry_keptPath_eq host config t h.named hfree' hentry
  have hbelow := (below_descend_keptNames_iff h.named base).mpr h.keepable
  exact hq base hbase (hbelow.of_prefix hunder)

-- A dot leads to the category itself, and two dots lead to the directory that
-- the category is in.
theorem entry_keptPath_of_unkeepable (h : f.Unkeepable) {place : Place}
    (hentry : (prepared host config t).entry host.cwd (keptPath host config f) = .ok place) :
    ∃ base, CategoryAt host config f t base ∧
      place = if f.name = "." then base else base.dropLast := by
  have hnames := Fixture.keptNames_of_unkeepable h
  have hfree : ∀ base, CategoryAt host config f t base →
      (prepared host config t).LinkFree base f.keptNames := by
    intro base _
    rw [hnames]
    exact Tree.linkFree_singleton _ base f.name
  obtain ⟨base, hbase, rfl⟩ := entry_keptPath_eq host config t
    (Fixture.name_ne_empty_of_unkeepable h) hfree hentry
  refine ⟨base, hbase, ?_⟩
  rw [hnames]
  rcases h with h | h <;> simp [Tree.descend, h]

-- All files below that place are gone then, whosever they are.
theorem create_wipes_of_unkeepable (h : f.Unkeepable) (hkeep : config.keepArtifacts = true)
    (hmade : (t.makeDirectories host.cwd (parent host config)).1 = .ok ()) {place : Place}
    (hentry : (prepared host config t).entry host.cwd (keptPath host config f) = .ok place)
    (hdir : (prepared host config t).node? place = some .directory) {q : Place}
    (hq : Below place q) (data : Text.Bytes) (executable : Bool) :
    (create host config f t).2.node? q ≠ some (.file data executable) := by
  have hlast : (Tree.names (keptPath host config f)).getLast? = some f.name := by
    rw [names_keptPath host config (Fixture.name_ne_empty_of_unkeepable h),
      Fixture.keptNames_of_unkeepable h, List.getLast?_append]
    rfl
  have hremoved := Tree.removeDirectory_of_dots _ _ hentry hdir (by
    rw [hlast]
    exact h.imp (congrArg some) (congrArg some))
  have hgone : ((prepared host config t).emptied place).node? q = none := by
    rw [Tree.node?_emptied, if_neg]
    rintro (rfl | rfl | hnot)
    · exact hq.2 (List.prefix_nil.mp hq.1).symm
    · exact hq.2 rfl
    · exact hnot hq.1
  intro hfile
  have hgrows := grows_create_of_made host config f t (fun _ => False) hkeep hmade
  rw [hremoved] at hgrows
  rcases hgrows q not_false with heq | ⟨-, hnew⟩
  · rw [hfile, hgone] at heq
    cases heq
  · rw [hfile] at hnew
    cases hnew

end Removal

variable (f)

-- A kept directory is a way down from the category, for every name but the two
-- of dots. What is removed stands at its place or below, so with a way down, and no
-- links on it, all that is not below the category stays. Without one, the files of
-- the whole category or of all categories go.
theorem kept_directory_confined_iff (hname : Text.isBlankText f.name = false) :
    ((∃ names, names ≠ [] ∧ (∀ name ∈ names, Path.IsOrdinary name) ∧
        keptPath host config f = Path.join (categoryPath host config f) ("/".intercalate names)) ↔
      ¬f.Unkeepable) ∧
    (config.keepArtifacts = true → ∀ (t : Tree) q,
      (∀ place, (prepared host config t).entry host.cwd (keptPath host config f) = .ok place →
        ¬place <+: q) →
      ∀ node, t.node? q = some node → (create host config f t).2.node? q = some node) ∧
    (config.keepArtifacts = true → ¬f.Unkeepable → ∀ t : Tree,
      (∀ base, CategoryAt host config f t base → t.LinkFree base f.keptNames) →
      ∀ q, (∀ base, CategoryAt host config f t base → ¬Below base q) →
      ∀ node, t.node? q = some node → (create host config f t).2.node? q = some node) ∧
    (config.keepArtifacts = true → f.Unkeepable → ∀ (t : Tree) (place : Place),
      (t.makeDirectories host.cwd (parent host config)).1 = .ok () →
      (prepared host config t).entry host.cwd (keptPath host config f) = .ok place →
      (prepared host config t).node? place = some .directory →
      (∃ base, CategoryAt host config f t base ∧
        place = if f.name = "." then base else base.dropLast) ∧
      ∀ q, Below place q → ∀ data executable,
        (create host config f t).2.node? q ≠ some (.file data executable)) := by
  have hne := Fixture.name_ne_empty hname
  refine ⟨exists_ordinary_iff host config hne, ?_, ?_, ?_⟩
  · intro hkeep t q hq node hnode
    have hgrows := (grows_prepared host config t _).trans
      (grows_create_entry host config f t hkeep)
    refine hgrows.node?_eq_some ?_ hnode
    rintro ⟨place, hentry, hunder⟩
    exact hq place hentry hunder
  · intro hkeep h t hfree q hq node hnode
    exact node?_create_of_not_below host config t ⟨hne, h⟩ hkeep hfree hq hnode
  · intro hkeep h t place hmade hentry hdir
    refine ⟨entry_keptPath_of_unkeepable host config _ h hentry, fun q hq data executable => ?_⟩
    exact create_wipes_of_unkeepable host config t h hkeep hmade hentry hdir hq data executable

-- Notes in the work directory, beside a category with an earlier run in it.
def notedWork : Tree :=
  ⟨[(["work"], .directory), (["work", "notes"], .file [110] false), (["work", "valid"], .directory),
    (["work", "valid", "add"], .directory), (["work", "valid", "add", "out"], .file [111] false)]⟩

-- The notes outlast the directory of a fixture with a plain name.
theorem notes_stay_beside_plain_name :
    Text.isBlankText "add" = false ∧ notedWork.node? ["work", "notes"] = some (.file [110] false) ∧
      (create .plain .keeping ⟨"add", .valid, "valid/add", none⟩ notedWork).2.node?
        ["work", "notes"] = some (.file [110] false) := by
  have hcategory : (prepared .plain .keeping notedWork).resolve [] (categoryPath .plain .keeping
      ⟨"add", .valid, "valid/add", none⟩) = .ok ["work", "valid"] := by
    decide +kernel
  refine ⟨by decide +kernel, by decide +kernel, ?_⟩
  refine (kept_directory_confined_iff .plain .keeping ⟨"add", .valid, "valid/add", none⟩
    (by decide +kernel)).2.2.1 rfl (by decide +kernel) notedWork ?_ _ ?_ _ (by decide +kernel)
  · intro base _
    have hnames : (⟨"add", .valid, "valid/add", none⟩ : Fixture).keptNames = ["add"] := by
      decide +kernel
    rw [hnames]
    exact Tree.linkFree_singleton _ _ _
  · rintro base hbase
    obtain rfl := Except.ok.inj (hcategory.symm.trans hbase)
    exact fun hbelow => absurd hbelow.1 (by decide)

-- A catalog may list a fixture by two dots, and its directory takes the place of
-- all that was in the work directory.
theorem notes_go_with_two_dots :
    Catalog.flaw? ⟨"1", [⟨.valid, "valid", [.bare ".."]⟩]⟩ = none ∧
      notedWork.node? ["work", "notes"] = some (.file [110] false) ∧
      create .plain .keeping ⟨"..", .valid, "valid/..", none⟩ notedWork =
        (.ok (.kept "/work/valid/.."),
          ⟨[(["work"], .directory), (["work", "valid"], .directory)]⟩) := by
  decide +kernel

end Conformance.Scratch
