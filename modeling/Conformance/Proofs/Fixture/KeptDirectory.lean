import Conformance.Fixture.Scratch
import Conformance.Proofs.Path.Names

namespace Conformance.Fixture

open Conformance.Path

-- The names from the directory of a category down to a kept directory.
def keptNames (f : Fixture) : List String :=
  if f.keptParts = [] then [f.slug] else f.keptParts.map Component.text

-- The two names of which no kept directory of their own is made.
def Unkeepable (f : Fixture) : Prop :=
  f.name = "." ∨ f.name = ".."

instance (f : Fixture) : Decidable f.Unkeepable :=
  inferInstanceAs (Decidable (_ ∨ _))

theorem name_ne_empty {f : Fixture} (h : Text.isBlankText f.name = false) : f.name ≠ "" := by
  intro hempty
  rw [hempty] at h
  cases h

theorem name_ne_empty_of_unkeepable {f : Fixture} (h : f.Unkeepable) : f.name ≠ "" := by
  rcases h with h | h
  · rw [h]
    decide
  · rw [h]
    decide

-- A fixture that has a directory of its own.
structure Placed (f : Fixture) : Prop where
  named : f.name ≠ ""
  keepable : ¬f.Unkeepable

section Parts

theorem mem_keptParts {f : Fixture} {part : Component} (h : part ∈ f.keptParts) :
    ∃ name, part = .normal name ∧ IsOrdinary name := by
  simp only [keptParts, List.mem_filter] at h
  obtain ⟨hmem, hnormal⟩ := h
  cases part with
  | root => cases hnormal
  | here => cases hnormal
  | up => cases hnormal
  | normal name =>
      refine ⟨name, rfl, ?_⟩
      have hpiece : .normal name ∈ (splitSlashes f.name.toList).filterMap componentOf := by
        simp only [components] at hmem
        split_ifs at hmem
        · simpa using hmem
        · simpa using hmem
        · exact hmem
      obtain ⟨piece, hp, hcomponent⟩ := List.mem_filterMap.mp hpiece
      exact isOrdinary_of_componentOf (notMem_of_mem_splitSlashes hp) hcomponent

end Parts

section Slug

theorem toList_slug (f : Fixture) :
    f.slug.toList = f.name.toList.map fun c => if isPlain c then c else '_' := by
  simp [slug]

theorem slug_isPiece {f : Fixture} (h : f.name ≠ "") : IsPiece f.slug := by
  constructor
  · intro hs
    rw [← String.toList_inj, toList_slug] at hs
    exact h (String.toList_inj.mp (by simpa using hs))
  · rw [toList_slug]
    intro hm
    obtain ⟨c, _, hc⟩ := List.mem_map.mp hm
    split_ifs at hc with hplain
    · subst hc
      exact absurd hplain (by decide)
    · exact absurd hc (by decide)

-- A dot of the slug stands for a dot of the name.
theorem slug_eq_iff_of_dots {f : Fixture} {dots : String} (h : ∀ c ∈ dots.toList, c = '.') :
    f.slug = dots ↔ f.name = dots := by
  rw [← String.toList_inj, ← String.toList_inj, toList_slug]
  have hdot : ∀ c, (if isPlain c then c else '_') = '.' ↔ c = '.' := by
    intro c
    constructor
    · intro hc
      split_ifs at hc
      · exact hc
      · exact absurd hc (by decide)
    · rintro rfl
      rfl
  generalize f.name.toList = cs
  generalize dots.toList = ds at h
  induction cs generalizing ds with
  | nil => simp
  | cons c rest ih =>
      cases ds with
      | nil => simp
      | cons d more =>
          have hd : d = '.' := h d List.mem_cons_self
          simp only [List.map_cons, List.cons.injEq, hd, hdot]
          exact and_congr Iff.rfl (ih more fun c hc => h c (List.mem_cons_of_mem _ hc))

end Slug

section Names

theorem keptNames_ne_nil (f : Fixture) : f.keptNames ≠ [] := by
  unfold keptNames
  split_ifs with hparts
  · exact List.cons_ne_nil _ _
  · simpa using hparts

theorem isOrdinary_of_mem_parts {f : Fixture} {name : String}
    (h : name ∈ f.keptParts.map Component.text) : IsOrdinary name := by
  obtain ⟨part, hpart, rfl⟩ := List.mem_map.mp h
  obtain ⟨name, rfl, hname⟩ := mem_keptParts hpart
  exact hname

theorem isPiece_of_mem_keptNames {f : Fixture} (hname : f.name ≠ "") :
    ∀ name ∈ f.keptNames, IsPiece name := by
  intro name hmem
  unfold keptNames at hmem
  split_ifs at hmem
  · rw [List.mem_singleton.mp hmem]
    exact slug_isPiece hname
  · exact (isOrdinary_of_mem_parts hmem).1

-- A name without parts is made into one piece, and only dots can make that
-- piece one that leads nowhere down.
theorem isOrdinary_of_mem_keptNames {f : Fixture} (h : f.Placed) :
    ∀ name ∈ f.keptNames, IsOrdinary name := by
  intro name hmem
  unfold keptNames at hmem
  split_ifs at hmem
  · rw [List.mem_singleton.mp hmem]
    obtain ⟨hdot, hdots⟩ := not_or.mp h.keepable
    refine ⟨slug_isPiece h.named, ?_, ?_⟩
    · exact mt (slug_eq_iff_of_dots (by simp)).mp hdot
    · exact mt (slug_eq_iff_of_dots (by simp)).mp hdots
  · exact isOrdinary_of_mem_parts hmem

theorem keptNames_of_unkeepable {f : Fixture} (h : f.Unkeepable) : f.keptNames = [f.name] := by
  have hslug : f.slug = f.name := by
    rcases h with h | h
    · rw [h, slug_eq_iff_of_dots (by simp), h]
    · rw [h, slug_eq_iff_of_dots (by simp), h]
  have hparts : f.keptParts = [] := by
    rcases h with h | h
    · rw [keptParts, h]
      decide
    · rw [keptParts, h]
      decide
  rw [keptNames, if_pos hparts, hslug]

theorem keptDirectory_eq {f : Fixture} (hname : f.name ≠ "") :
    f.keptDirectory = "/".intercalate f.keptNames := by
  have hpieces := isPiece_of_mem_keptNames hname
  unfold keptDirectory keptNames at *
  split_ifs at hpieces ⊢ with hparts
  · rw [String.intercalate_singleton]
  · rw [← ofComponents_normal hpieces]
    congr 1
    rw [List.map_map]
    refine (List.map_id' _).symm.trans (List.map_congr_left fun part hpart => ?_)
    obtain ⟨name, rfl, -⟩ := mem_keptParts hpart
    rfl

end Names

end Conformance.Fixture
