import Conformance.Proofs.Catalog.Running
import Conformance.Proofs.Fixture.Stages
import Mathlib.Algebra.GroupWithZero.Nat

namespace Conformance

namespace Setting

variable {σ : Type} {setting : Setting σ} {w : World σ}

theorem map_category_accounts (setting : Setting σ) (w : World σ) (suites : List Suite) :
    (setting.accounts w suites).map (fun account => account.1.category) =
      suites.map Suite.category := by
  induction suites generalizing w with
  | nil => rfl
  | cons suite rest ih =>
      rw [accounts, List.map_cons, List.map_cons, ih]
      rfl

theorem filter_verdicts_of_ne (setting : Setting σ) (w : World σ) {category : Category}
    {suites : List Suite} (h : category ∉ suites.map Suite.category) :
    (setting.verdicts w (suites.flatMap Suite.fixtures)).filter (fun v => v.category = category) =
      [] := by
  rw [List.filter_eq_nil_iff]
  intro v hv heq
  obtain ⟨f, hf, hcategory⟩ := exists_fixture_of_mem_verdicts hv
  obtain ⟨suite, hsuite, hf⟩ := List.mem_flatMap.mp hf
  apply h
  rw [← of_decide_eq_true heq, ← hcategory, Suite.category_of_mem_fixtures hf]
  exact List.mem_map_of_mem hsuite

-- The verdicts of an account are those on its category, when no category has two suites.
theorem snd_eq_filter_of_mem_accounts {suites : List Suite}
    (hdistinct : (suites.map Suite.category).Nodup) {account : CategoryReport × List Verdict}
    (h : account ∈ setting.accounts w suites) :
    account.2 = (setting.verdicts w (suites.flatMap Suite.fixtures)).filter
      fun v => v.category = account.1.category := by
  induction suites generalizing w with
  | nil => cases h
  | cons suite rest ih =>
      rw [List.map_cons, List.nodup_cons] at hdistinct
      rw [List.flatMap_cons, verdicts_append, List.filter_append]
      rcases List.mem_cons.mp h with rfl | h
      · have hall : (setting.verdicts w suite.fixtures).filter
            (fun v => v.category = suite.category) = setting.verdicts w suite.fixtures := by
          rw [List.filter_eq_self]
          intro v hv
          exact decide_eq_true (category_of_mem_verdicts hv)
        have hnone := setting.filter_verdicts_of_ne (setting.after w suite.fixtures) hdistinct.1
        exact ((congrArg₂ (· ++ ·) hall hnone).trans (List.append_nil _)).symm
      · have hne : account.1.category ≠ suite.category := by
          intro heq
          apply hdistinct.1
          rw [← heq, ← setting.map_category_accounts]
          exact List.mem_map_of_mem h
        have hnone : (setting.verdicts w suite.fixtures).filter
            (fun v => v.category = account.1.category) = [] := by
          rw [List.filter_eq_nil_iff]
          intro v hv heq
          exact hne ((of_decide_eq_true heq).symm.trans (category_of_mem_verdicts hv))
        rw [hnone, List.nil_append]
        exact ih hdistinct.2 h

-- What the reports count comes to what all verdicts together come to.
theorem sum_totals (setting : Setting σ) (w : World σ) (suites : List Suite) :
    (((setting.accounts w suites).map Prod.fst).map CategoryReport.total).sum =
      (setting.verdicts w (suites.flatMap Suite.fixtures)).length := by
  induction suites generalizing w with
  | nil => rfl
  | cons suite rest ih =>
      rw [List.flatMap_cons, verdicts_append, List.length_append, ← ih]
      rfl

theorem sum_passed (setting : Setting σ) (w : World σ) (suites : List Suite) :
    (((setting.accounts w suites).map Prod.fst).map CategoryReport.passed).sum =
      ((setting.verdicts w (suites.flatMap Suite.fixtures)).filter Verdict.passed).length := by
  induction suites generalizing w with
  | nil => rfl
  | cons suite rest ih =>
      rw [List.flatMap_cons, verdicts_append, List.filter_append, List.length_append, ← ih]
      rfl

end Setting

namespace Catalog

-- What counting asks of a run that came to its end, for a catalog and the categories
-- that were chosen for it.
structure Tallied {σ : Type} (catalog : Catalog) (setting : Setting σ) (chosen : List Category)
    (w : World σ) (r : CatalogRun) : Prop where
  -- one verdict for each enabled entry, category by category and in the order of entries
  results : r.summary.results = setting.verdicts w
    ((Category.all.filter fun c => chosen = [] ∨ c ∈ chosen).flatMap catalog.fixtures)
  named : r.summary.results.map (fun v => (v.category, v.fixtureId)) =
    ((Category.all.filter fun c => chosen = [] ∨ c ∈ chosen).flatMap fun c =>
      (catalog.fixtures c).map fun f => (c, f.name))
  distinct : (r.summary.results.map fun v => (v.category, v.fixtureId)).Nodup
  -- one report for each of the categories that has a suite
  categories : r.categories.map CategoryReport.category =
    (Category.all.filter fun c => chosen = [] ∨ c ∈ chosen).filter fun c =>
      (catalog.suite? c).isSome
  entries : ∀ c ∈ r.categories, ∃ suite, catalog.suite? c.category = some suite ∧
    c.total + c.skipped = suite.entries.length
  parts : ∀ c ∈ r.categories, c.total = c.passed + c.failing.length
  failing : ∀ c ∈ r.categories, c.failing =
    (r.summary.results.filter fun v => !v.passed && v.category = c.category).map Verdict.fixtureId
  -- both counts come to the same
  total : (r.categories.map CategoryReport.total).sum = r.summary.total
  passed : (r.categories.map CategoryReport.passed).sum = r.summary.passed
  counted : r.summary.total = r.summary.results.length ∧
    r.summary.passed + r.summary.failed = r.summary.total

variable {σ : Type} {catalog : Catalog} {setting : Setting σ} {chosen : List Category}
  {s s' : RunState σ} {r : CatalogRun}

theorem map_names_fixtures (catalog : Catalog) (category : Category) :
    (catalog.fixtures category).map (fun f => (f.category, f.name)) =
      (catalog.fixtures category).map fun f => (category, f.name) := by
  apply List.map_congr_left
  intro f hf
  unfold fixtures at hf
  split at hf
  · rename_i suite hsuite
    rw [Suite.category_of_mem_fixtures hf, category_of_suite? hsuite]
  · cases hf

-- A report is on one suite, and counts the verdicts on its category.
theorem exists_suite_of_mem_accounts {w : World σ} {c : CategoryReport}
    (h : c ∈ (setting.accounts w (catalog.selectedSuites chosen)).map Prod.fst) :
    ∃ suite verdicts, catalog.suite? c.category = some suite ∧
      verdicts.length = suite.fixtures.length ∧
      c = .ofVerdicts suite.category suite.disabledCount verdicts ∧
      verdicts = (setting.verdicts w (catalog.selected chosen)).filter
        fun v => v.category = c.category := by
  obtain ⟨account, haccount, rfl⟩ := List.mem_map.mp h
  obtain ⟨suite, hsuite, w', hverdicts, hcounts⟩ := Setting.exists_of_mem_accounts haccount
  refine ⟨suite, account.2, ?_, ?_, hcounts, ?_⟩
  · rw [hcounts]
    exact suite?_of_mem_selectedSuites hsuite
  · rw [hverdicts, Setting.length_verdicts]
  · exact Setting.snd_eq_filter_of_mem_accounts
      (catalog.nodup_map_category_selectedSuites chosen) haccount

theorem tallied_of_run_eq_ok (hvalid : catalog.flaw? = none)
    (h : (catalog.run setting chosen s).1 = .ok r) :
    catalog.Tallied setting chosen s.world r := by
  obtain ⟨rfl, -⟩ := run_eq_ok (Prod.ext h rfl)
  have hselected := catalog.selected_eq_flatMap chosen
  rw [Category.selection_eq_filter] at hselected
  have hnames := setting.map_names_verdicts s.world (catalog.selected chosen)
  refine ⟨?_, ?_, ?_, ?_, ?_, ?_, ?_, ?_, ?_, rfl, ?_⟩
  · rw [← hselected]
    rfl
  · refine hnames.trans ?_
    rw [hselected, List.map_flatMap]
    simp only [map_names_fixtures]
  · refine (congrArg List.Nodup hnames).mpr ?_
    refine (nodup_selected hvalid chosen).map_on fun f hf g hg heq => ?_
    exact eq_of_name_eq hvalid (lists_of_mem_selected hf) (lists_of_mem_selected hg)
      (congrArg Prod.fst heq) (congrArg Prod.snd heq)
  · rw [← Category.selection_eq_filter, ← map_category_selectedSuites,
      ← setting.map_category_accounts s.world, outcome, List.map_map]
    rfl
  · intro c hc
    obtain ⟨suite, verdicts, hsuite, hlength, rfl, -⟩ := exists_suite_of_mem_accounts hc
    have hall := suite.length_fixtures_add_disabledCount
    rw [← hlength] at hall
    exact ⟨suite, hsuite, hall⟩
  · intro c hc
    obtain ⟨suite, verdicts, -, -, rfl, -⟩ := exists_suite_of_mem_accounts hc
    exact CategoryReport.total_eq_passed_add_failed _ _ verdicts
  · intro c hc
    obtain ⟨suite, verdicts, -, -, hcounts, hfilter⟩ := exists_suite_of_mem_accounts hc
    have hfailing : c.failing = (verdicts.filter fun v => !v.passed).map Verdict.fixtureId := by
      rw [hcounts]
      rfl
    rw [hfailing, hfilter, List.filter_filter]
    rfl
  · exact setting.sum_totals s.world (catalog.selectedSuites chosen)
  · exact setting.sum_passed s.world (catalog.selectedSuites chosen)
  · exact Nat.add_sub_of_le (List.length_filter_le Verdict.passed
      (setting.verdicts s.world (catalog.selected chosen)))

theorem selected_eq_nil_iff (catalog : Catalog) (chosen : List Category) :
    catalog.selected chosen = [] ↔ ∀ c, chosen = [] ∨ c ∈ chosen →
      ∀ suite, catalog.suite? c = some suite → ∀ entry ∈ suite.entries,
        entry.isDisabled = true := by
  have hfixtures : ∀ c, catalog.fixtures c = [] ↔ ∀ suite, catalog.suite? c = some suite →
      ∀ entry ∈ suite.entries, entry.isDisabled = true := by
    intro c
    unfold fixtures
    cases catalog.suite? c <;> simp [Suite.fixtures]
  have hall : ∀ c : Category, c ∈ Category.all := by
    intro c
    cases c <;> decide
  simp only [selected_eq_flatMap, Category.selection_eq_filter, List.flatMap_eq_nil_iff,
    List.mem_filter, hall, true_and, decide_eq_true_eq, hfixtures]

theorem run_ne_nothingToRun (h : catalog.selected chosen ≠ []) :
    (catalog.run setting chosen s).1 ≠ .error .nothingToRun := by
  have h' : (catalog.selectedSuites chosen).flatMap Suite.fixtures ≠ [] := h
  unfold run
  dsimp only
  rw [if_neg h']
  split <;> simp

-- A run finds nothing to do just when the choice has no enabled entry, and then leaves
-- all as it is. A run that comes to its end counts each enabled entry once, in its
-- category and in the whole.
theorem run_tallied (catalog : Catalog) (setting : Setting σ) (chosen : List Category)
    (s : RunState σ) (hvalid : catalog.flaw? = none) :
    ((catalog.run setting chosen s).1 = .error .nothingToRun ↔
      ∀ c, chosen = [] ∨ c ∈ chosen → ∀ suite, catalog.suite? c = some suite →
        ∀ entry ∈ suite.entries, entry.isDisabled = true) ∧
    ((catalog.run setting chosen s).1 = .error .nothingToRun →
      (catalog.run setting chosen s).2 = s) ∧
    ∀ r, (catalog.run setting chosen s).1 = .ok r →
      catalog.Tallied setting chosen s.world r := by
  rw [← selected_eq_nil_iff]
  refine ⟨?_, ?_, ?_⟩
  · constructor
    · intro h
      by_contra hne
      exact run_ne_nothingToRun hne h
    · intro h
      rw [run_eq_of_selected_eq_nil h]
  · intro h
    have hnil : catalog.selected chosen = [] := by
      by_contra hne
      exact run_ne_nothingToRun hne h
    rw [run_eq_of_selected_eq_nil hnil]
  · intro r h
    exact tallied_of_run_eq_ok hvalid h

-- Suites that do not stand in the order of a run.
def shuffled : Catalog :=
  ⟨"1", [⟨.semanticInvalid, "semantic", [.bare "x"]⟩,
    ⟨.valid, "valid", [.bare "a", .detailed "b" none true]⟩,
    ⟨.syntaxInvalid, "syntax", [.bare "a"]⟩]⟩

-- For a choice with a repetition too, each entry is run once. The disabled one is
-- skipped, and the category that is not chosen is left out.
theorem run_tallied_repeated_choice :
    shuffled.flaw? = none ∧
    ∃ r, (shuffled.run ⟨.plain, {}, answering fun _ => .exited 0⟩ [.syntaxInvalid, .valid, .valid]
        ⟨⟨Tree.empty, ()⟩, { console := .healthy }, none⟩).1 = .ok r ∧
      r.summary.results.map (fun v => (v.category, v.fixtureId)) =
        [(.valid, "a"), (.syntaxInvalid, "a")] := by
  have hvalid : shuffled.flaw? = none := by decide +kernel
  refine ⟨hvalid, ?_⟩
  have hok : (shuffled.run ⟨.plain, {}, answering fun _ => .exited 0⟩
      [.syntaxInvalid, .valid, .valid]
      ⟨⟨Tree.empty, ()⟩, { console := .healthy }, none⟩).1.toOption.isSome = true := by
    decide +kernel
  have htallied := (run_tallied shuffled ⟨.plain, {}, answering fun _ => .exited 0⟩
    [.syntaxInvalid, .valid, .valid] ⟨⟨Tree.empty, ()⟩, { console := .healthy }, none⟩ hvalid).2.2
  cases hrun : (shuffled.run ⟨.plain, {}, answering fun _ => .exited 0⟩
      [.syntaxInvalid, .valid, .valid] ⟨⟨Tree.empty, ()⟩, { console := .healthy }, none⟩).1 with
  | error e =>
      rw [hrun] at hok
      cases hok
  | ok r =>
      refine ⟨r, rfl, ?_⟩
      rw [(htallied r hrun).named]
      decide +kernel

end Catalog

end Conformance
