import Conformance.Files.Tree
import Mathlib.Data.List.Infix
import Mathlib.Tactic.SplitIfs

namespace Conformance

namespace Tree

section Nodes

variable (t : Tree) (place q : Place)

theorem node?_set (hplace : place ≠ []) (node : Node) :
    (t.set place node).node? q = if q = place then some node else t.node? q := by
  by_cases hq : q = []
  · subst hq
    rw [if_neg (Ne.symm hplace)]
    rfl
  · simp only [node?, if_neg hq, set, if_neg hplace]
    by_cases hsome : (t.nodes.find? fun entry => decide (entry.1 = place)).isSome
    · -- an entry is overwritten under its own name, so each place is found where it was
      have hkey : (fun entry : Place × Node => decide (entry.1 = q)) ∘
          (fun entry => if entry.1 = place then (place, node) else entry) =
          fun entry => decide (entry.1 = q) := by
        funext entry
        by_cases he : entry.1 = place <;> simp [he]
      rw [Option.isSome_map, if_pos hsome, List.find?_map, hkey, Option.map_map]
      by_cases heq : q = place
      · subst heq
        obtain ⟨entry, hentry⟩ := Option.isSome_iff_exists.mp hsome
        have he : entry.1 = q := by simpa using List.find?_some hentry
        simp [hentry, he]
      · rw [if_neg heq]
        refine Option.map_congr fun entry hentry => ?_
        have he : entry.1 = q := by simpa using List.find?_some hentry
        simp [he, heq]
    · have hnone := Option.not_isSome_iff_eq_none.mp hsome
      rw [Option.isSome_map, if_neg hsome, List.find?_append]
      by_cases heq : q = place
      · subst heq
        simp [hnone]
      · have hne : ¬place = q := fun h => heq h.symm
        simp [heq, hne]

-- What is taken out by its place is there no more, and all else is.
theorem node?_filter (keep : Place → Bool) :
    node? ⟨t.nodes.filter fun entry => keep entry.1⟩ q =
      if q = [] ∨ keep q = true then t.node? q else none := by
  by_cases hq : q = []
  · subst hq
    simp [node?]
  · have hkey : (fun entry : Place × Node =>
        decide (keep entry.1 = true ∧ decide (entry.1 = q) = true)) =
        fun entry => decide (entry.1 = q) && keep q := by
      funext entry
      by_cases he : entry.1 = q <;> simp [he]
    simp only [node?, if_neg hq, List.find?_filter, hkey]
    by_cases hkeep : keep q = true <;> simp [hkeep, hq]

theorem node?_without :
    (t.without place).node? q = if q = [] ∨ ¬place <+: q then t.node? q else none := by
  rw [without, node?_filter t q fun place' => !place.isPrefixOf place']
  simp [← Bool.not_eq_true]

theorem node?_emptied :
    (t.emptied place).node? q = if q = [] ∨ q = place ∨ ¬place <+: q then t.node? q else none := by
  rw [emptied, node?_filter t q fun place' => decide (place' = place) || !place.isPrefixOf place']
  simp [← Bool.not_eq_true]

end Nodes

-- All that has a place outside those that are given up stays as it is, and
-- what is new there is a directory.
def Grows (gone : Place → Prop) (t t' : Tree) : Prop :=
  ∀ q, ¬gone q → t'.node? q = t.node? q ∨ t.node? q = none ∧ t'.node? q = some .directory

namespace Grows

variable {gone : Place → Prop} {t t' t'' : Tree}

theorem refl (gone : Place → Prop) (t : Tree) : Grows gone t t :=
  fun _ _ => .inl rfl

theorem trans (h : Grows gone t t') (h' : Grows gone t' t'') : Grows gone t t'' := by
  intro q hq
  rcases h' q hq with heq | ⟨hnone, hdir⟩
  · rw [heq]
    exact h q hq
  · rcases h q hq with heq | ⟨-, hdir'⟩
    · exact .inr ⟨heq ▸ hnone, hdir⟩
    · rw [hdir'] at hnone
      cases hnone

theorem mono {more : Place → Prop} (h : Grows gone t t') (hmore : ∀ q, gone q → more q) :
    Grows more t t' :=
  fun q hq => h q (mt (hmore q) hq)

theorem node?_eq_some (h : Grows gone t t') {q : Place} (hq : ¬gone q) {node : Node}
    (hnode : t.node? q = some node) : t'.node? q = some node := by
  rcases h q hq with heq | ⟨hnone, -⟩
  · rw [heq, hnode]
  · rw [hnone] at hnode
    cases hnode

-- Links do not come up by themselves.
theorem node?_eq_link (h : Grows gone t t') {q : Place} (hq : ¬gone q) {target : Path}
    (hnode : t'.node? q = some (.link target)) : t.node? q = some (.link target) := by
  rcases h q hq with heq | ⟨-, hdir⟩
  · rw [← heq, hnode]
  · rw [hdir] at hnode
    cases hnode

end Grows

section Directories

variable (t : Tree) (cwd : Place)

theorem grows_set_directory {gone : Place → Prop} {place : Place} (h : t.node? place = none) :
    Grows gone t (t.set place .directory) := by
  have hplace : place ≠ [] := by
    rintro rfl
    cases h
  intro q _
  rw [node?_set t place q hplace]
  split_ifs with hq
  · subst hq
    exact .inr ⟨h, rfl⟩
  · exact .inl rfl

theorem grows_makeDirectory {gone : Place → Prop} {p : Path} {t' : Tree}
    (h : t.makeDirectory cwd p = .ok t') : Grows gone t t' := by
  simp only [makeDirectory, bind, Except.bind] at h
  cases he : t.entry cwd p with
  | error e =>
      rw [he] at h
      cases h
  | ok place =>
      simp only [he] at h
      cases hn : t.node? place with
      | some node =>
          rw [hn] at h
          cases h
      | none =>
          simp only [hn, Except.ok.injEq] at h
          rw [← h]
          exact grows_set_directory t hn

theorem grows_ensureDirectory {gone : Place → Prop} {p : Path} {t' : Tree}
    (h : t.ensureDirectory cwd p = .ok t') : Grows gone t t' := by
  unfold ensureDirectory at h
  split at h
  · rename_i made hmade
    rw [← Except.ok.inj h]
    exact grows_makeDirectory t cwd hmade
  · split_ifs at h
    rw [← Except.ok.inj h]
    exact .refl gone t

theorem grows_makeChain (gone : Place → Prop) (chain : List Path) :
    Grows gone t (t.makeChain cwd chain).2 := by
  induction chain with
  | nil => exact .refl gone t
  | cons p above ih =>
      unfold makeChain
      split_ifs
      · exact .refl gone t
      · split
        · rename_i made hmade
          exact grows_ensureDirectory t cwd hmade
        · -- the directories above are made first
          split
          · rename_i e chained habove
            rw [habove] at ih
            exact ih
          · rename_i chained habove
            rw [habove] at ih
            split
            · rename_i made hmade
              exact ih.trans (grows_ensureDirectory chained cwd hmade)
            · exact ih
        · exact .refl gone t

theorem grows_makeDirectories (gone : Place → Prop) (p : Path) :
    Grows gone t (t.makeDirectories cwd p).2 :=
  grows_makeChain t cwd gone (Path.ancestors p)

-- What is removed stands at the place that the path names, or below it.
theorem grows_removeDirectory {p : Path} {place : Place} (h : t.entry cwd p = .ok place) :
    Grows (place <+: ·) t (t.removeDirectory cwd p).2 := by
  have hwithout : Grows (place <+: ·) t (t.without place) := by
    intro q hq
    rw [node?_without, if_pos (.inr hq)]
    exact .inl rfl
  have hemptied : Grows (place <+: ·) t (t.emptied place) := by
    intro q hq
    rw [node?_emptied, if_pos (.inr (.inr hq))]
    exact .inl rfl
  unfold removeDirectory
  rw [h]
  dsimp only
  split
  · exact .refl _ t
  · split
    · exact hemptied
    · exact hemptied
    · exact hwithout
  · exact hwithout
  · exact .refl _ t

-- Named by a dot or two, a directory loses all that is in it.
theorem removeDirectory_of_dots {p : Path} {place : Place} (h : t.entry cwd p = .ok place)
    (hdir : t.node? place = some .directory)
    (hdots : (names p).getLast? = some "." ∨ (names p).getLast? = some "..") :
    (t.removeDirectory cwd p).2 = t.emptied place := by
  simp only [removeDirectory, h, hdir]
  rcases hdots with hdot | hdots
  · rw [hdot]
    rfl
  · rw [hdots]
    rfl

theorem removeDirectory_of_entry_error {p : Path} {e : IoError} (h : t.entry cwd p = .error e) :
    (t.removeDirectory cwd p).2 = t := by
  unfold removeDirectory
  rw [h]

end Directories

end Tree

end Conformance
