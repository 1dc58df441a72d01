import Conformance.Catalog.Run
import Conformance.Proofs.Catalog.FirstFlaw
import Mathlib.Tactic.SplitIfs

namespace Conformance

namespace Catalog

-- The fixtures of all entries, the disabled ones included.
def Lists (catalog : Catalog) (f : Fixture) : Prop :=
  ∃ suite ∈ catalog.suites, ∃ entry ∈ suite.entries, f = suite.fixtureOf entry

variable {catalog : Catalog} (hvalid : catalog.flaw? = none)

include hvalid

theorem isBlankText_of_lists {f : Fixture} (hf : catalog.Lists f) :
    Text.isBlankText f.name = false := by
  obtain ⟨suite, hsuite, entry, hentry, rfl⟩ := hf
  obtain ⟨c, hc, hblank⟩ := (flaw?_eq_none_iff.mp hvalid).named suite hsuite entry hentry
  exact List.all_eq_false.mpr ⟨c, hc, by rw [hblank]; decide⟩

-- In a catalog without flaws, category and name tell a fixture.
theorem eq_of_name_eq {f g : Fixture} (hf : catalog.Lists f) (hg : catalog.Lists g)
    (hcategory : f.category = g.category) (hname : f.name = g.name) : f = g := by
  obtain ⟨hdistinct, -, hnames, -⟩ := flaw?_eq_none_iff.mp hvalid
  obtain ⟨suite, hsuite, entry, hentry, rfl⟩ := hf
  obtain ⟨suite', hsuite', entry', hentry', rfl⟩ := hg
  obtain rfl : suite = suite' := List.inj_on_of_nodup_map hdistinct hsuite hsuite' hcategory
  obtain rfl : entry = entry' :=
    List.inj_on_of_nodup_map (hnames suite hsuite) hentry hentry' hname
  rfl

end Catalog

namespace Setting

variable {σ : Type} (setting : Setting σ)

-- The world behind some fixtures that are run one after the other.
def after (w : World σ) (fixtures : List Fixture) : World σ :=
  fixtures.foldl (fun w f => (f.run setting.host setting.config setting.invoker w).2) w

theorem after_append (w : World σ) (xs ys : List Fixture) :
    setting.after w (xs ++ ys) = setting.after (setting.after w xs) ys :=
  List.foldl_append

end Setting

-- The order and the repetitions of a choice do not matter.
theorem Category.selection_eq_filter (chosen : List Category) :
    Category.selection chosen = Category.all.filter fun c => chosen = [] ∨ c ∈ chosen := by
  unfold Category.selection
  split_ifs with h
  · simp [h]
  · simp [h]

theorem Category.nodup_selection (chosen : List Category) :
    (Category.selection chosen).Nodup := by
  have hall : Category.all.Nodup := by decide
  rw [selection_eq_filter]
  exact hall.filter _

namespace Catalog

-- The fixtures of a run, in their order.
def selected (catalog : Catalog) (chosen : List Category) : List Fixture :=
  (catalog.selectedSuites chosen).flatMap Suite.fixtures

variable {catalog : Catalog}

theorem selected_eq_flatMap (chosen : List Category) :
    catalog.selected chosen = (Category.selection chosen).flatMap catalog.fixtures := by
  rw [selected, selectedSuites]
  induction Category.selection chosen with
  | nil => rfl
  | cons category rest ih =>
      rw [List.flatMap_cons, ← ih, fixtures]
      cases h : catalog.suite? category <;> simp [h]

theorem lists_of_mem_selected {chosen : List Category} {f : Fixture}
    (h : f ∈ catalog.selected chosen) : catalog.Lists f := by
  obtain ⟨suite, hsuite, hf⟩ := List.mem_flatMap.mp h
  obtain ⟨category, -, hfind⟩ := List.mem_filterMap.mp hsuite
  obtain ⟨entry, hentry, rfl⟩ := List.mem_map.mp hf
  exact ⟨suite, List.mem_of_find?_eq_some hfind, entry, (List.mem_filter.mp hentry).1, rfl⟩

theorem category_of_suite? {category : Category} {suite : Suite}
    (h : catalog.suite? category = some suite) : suite.category = category := by
  simpa using List.find?_some h

theorem map_category_selectedSuites (catalog : Catalog) (chosen : List Category) :
    (catalog.selectedSuites chosen).map Suite.category =
      (Category.selection chosen).filter fun c => (catalog.suite? c).isSome := by
  rw [selectedSuites]
  induction Category.selection chosen with
  | nil => rfl
  | cons category rest ih =>
      cases h : catalog.suite? category with
      | none => simp [h, ih]
      | some suite => simp [h, ih, category_of_suite? h]

theorem nodup_map_category_selectedSuites (catalog : Catalog) (chosen : List Category) :
    ((catalog.selectedSuites chosen).map Suite.category).Nodup := by
  rw [map_category_selectedSuites]
  exact (Category.nodup_selection chosen).filter _

theorem suite?_of_mem_selectedSuites {suite : Suite} (h : suite ∈ catalog.selectedSuites chosen) :
    catalog.suite? suite.category = some suite := by
  obtain ⟨category, -, hsuite⟩ := List.mem_filterMap.mp h
  rw [category_of_suite? hsuite, hsuite]

theorem nodup_selected (hvalid : catalog.flaw? = none) (chosen : List Category) :
    (catalog.selected chosen).Nodup := by
  rw [selected, List.nodup_flatMap]
  constructor
  · intro suite hsuite
    obtain ⟨category, -, hfind⟩ := List.mem_filterMap.mp hsuite
    have hnames := (flaw?_eq_none_iff.mp hvalid).nodup_names (List.mem_of_find?_eq_some hfind)
    exact hnames.of_map
  · rw [selectedSuites, List.pairwise_filterMap]
    refine (Category.nodup_selection chosen).imp
      fun {c d} hne suite hsuite suite' hsuite' f hf hf' => hne ?_
    obtain ⟨entry, -, rfl⟩ := List.mem_map.mp hf
    obtain ⟨entry', -, heq⟩ := List.mem_map.mp hf'
    rw [← category_of_suite? hsuite, ← category_of_suite? hsuite']
    exact (congrArg Fixture.category heq).symm

end Catalog

end Conformance
