import Conformance.Proofs.Files.Walk
import Conformance.Proofs.Fixture.KeptDirectory

namespace Conformance

-- Neither of two places is the other one or above it.
def Tree.Apart (p q : Place) : Prop :=
  ¬p <+: q ∧ ¬q <+: p

instance (p q : Place) : Decidable (Tree.Apart p q) :=
  inferInstanceAs (Decidable (_ ∧ _))

theorem Tree.Apart.symm {p q : Place} (h : Tree.Apart p q) : Tree.Apart q p :=
  ⟨h.2, h.1⟩

-- What is at or below one of two places apart is not so of the other.
theorem Tree.Apart.excludes {p q place : Place} (h : Tree.Apart p q) (hp : p <+: place) :
    ¬q <+: place := by
  intro hq
  rcases List.prefix_or_prefix_of_prefix hp hq with hpq | hqp
  · exact h.1 hpq
  · exact h.2 hqp

theorem Category.isOrdinary_name (c : Category) : Path.IsOrdinary c.name := by
  cases c <;> simp [Path.IsOrdinary, Path.IsPiece, name]

theorem Category.name_injective : Function.Injective name := by
  intro c d h
  cases c <;> cases d <;> first | rfl | exact absurd h (by decide)

namespace Fixture

-- The names from the work directory down to a kept directory.
def way (f : Fixture) : List String :=
  f.category.name :: f.keptNames

-- The place of a kept directory in a work directory without links.
def keptPlace (work : Place) (f : Fixture) : Place :=
  Tree.descend work f.way

-- Two fixtures of one category with directories of their own, neither of which
-- is in the other.
def Clear (f g : Fixture) : Prop :=
  ¬f.Unkeepable ∧ ¬g.Unkeepable ∧ Tree.Apart f.keptNames g.keptNames

instance (f g : Fixture) : Decidable (f.Clear g) :=
  inferInstanceAs (Decidable (_ ∧ _ ∧ _))

variable (work : Place) {f g : Fixture}

theorem way_ne_nil (f : Fixture) : f.way ≠ [] :=
  List.cons_ne_nil _ _

theorem isPiece_of_mem_way (hname : f.name ≠ "") : ∀ name ∈ f.way, Path.IsPiece name := by
  intro name hmem
  rcases List.mem_cons.mp hmem with rfl | hmem
  · exact f.category.isOrdinary_name.1
  · exact isPiece_of_mem_keptNames hname name hmem

theorem isOrdinary_of_mem_way (h : f.Placed) :
    ∀ name ∈ f.way, Path.IsOrdinary name := by
  intro name hmem
  rcases List.mem_cons.mp hmem with rfl | hmem
  · exact f.category.isOrdinary_name
  · exact isOrdinary_of_mem_keptNames h name hmem

theorem keptPlace_eq (h : f.Placed) : f.keptPlace work = work ++ f.way :=
  Tree.descend_ordinary work (isOrdinary_of_mem_way h)

theorem keptPlace_of_unkeepable (h : f.Unkeepable) :
    f.keptPlace work = if f.name = "." then work ++ [f.category.name] else work := by
  have hcategory := f.category.isOrdinary_name
  rw [keptPlace, way, keptNames_of_unkeepable h]
  rcases h with h | h <;> simp [Tree.descend, h, hcategory.2.1, hcategory.2.2]

-- A fixture without a directory of its own is in the way of its whole category.
theorem not_apart_of_unkeepable (hg : g.name ≠ "") (hcategory : f.category = g.category)
    (h : f.Unkeepable) : ¬Tree.Apart (f.keptPlace work) (g.keptPlace work) := by
  have hwork : f.keptPlace work = work ++ [f.category.name] ∨ f.keptPlace work = work := by
    rw [keptPlace_of_unkeepable work h]
    split_ifs
    · exact .inl rfl
    · exact .inr rfl
  have hother : g.keptPlace work = work ∨ work ++ [f.category.name] <+: g.keptPlace work := by
    by_cases hk : g.Unkeepable
    · rw [keptPlace_of_unkeepable work hk, hcategory]
      split_ifs
      · exact .inr (List.prefix_refl _)
      · exact .inl rfl
    · rw [keptPlace_eq work ⟨hg, hk⟩, way, hcategory]
      refine .inr ⟨g.keptNames, by simp⟩
  generalize f.keptPlace work = p at hwork ⊢
  generalize g.keptPlace work = q at hother ⊢
  rintro ⟨hpq, hqp⟩
  rcases hwork with rfl | rfl
  · rcases hother with rfl | hq
    · exact hqp (List.prefix_append _ _)
    · exact hpq hq
  · rcases hother with rfl | hq
    · exact hpq (List.prefix_refl _)
    · exact hpq ((List.prefix_append _ _).trans hq)

theorem apart_keptPlace_iff_clear (hf : f.name ≠ "") (hg : g.name ≠ "")
    (hcategory : f.category = g.category) :
    Tree.Apart (f.keptPlace work) (g.keptPlace work) ↔ f.Clear g := by
  by_cases hkf : f.Unkeepable
  · exact iff_of_false (not_apart_of_unkeepable work hg hcategory hkf) fun h => h.1 hkf
  by_cases hkg : g.Unkeepable
  · exact iff_of_false (mt Tree.Apart.symm (not_apart_of_unkeepable work hf hcategory.symm hkg))
      fun h => h.2.1 hkg
  rw [keptPlace_eq work ⟨hf, hkf⟩, keptPlace_eq work ⟨hg, hkg⟩]
  simp only [Tree.Apart, way, hcategory, List.prefix_append_right_inj, List.cons_prefix_cons,
    true_and, Clear, hkf, hkg, not_false_iff]

-- Categories have directories of their own.
theorem apart_keptPlace_of_category_ne (hf : f.Placed) (hg : g.Placed)
    (hcategory : f.category ≠ g.category) :
    Tree.Apart (f.keptPlace work) (g.keptPlace work) := by
  have hname : f.category.name ≠ g.category.name := mt (@Category.name_injective _ _) hcategory
  rw [keptPlace_eq work hf, keptPlace_eq work hg]
  simp only [Tree.Apart, way, List.prefix_append_right_inj, List.cons_prefix_cons, hname,
    hname.symm, false_and, not_false_iff, and_self]

end Fixture

end Conformance
