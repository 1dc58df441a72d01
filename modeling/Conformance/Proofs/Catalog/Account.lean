import Conformance.Proofs.Catalog.Course
import Mathlib.Data.List.Basic

namespace Conformance

namespace CategoryReport

-- The report on some verdicts of a category.
def ofVerdicts (category : Category) (skipped : Nat) (verdicts : List Verdict) :
    CategoryReport where
  category := category
  total := verdicts.length
  passed := (verdicts.filter Verdict.passed).length
  skipped := skipped
  failing := (verdicts.filter fun v => !v.passed).map Verdict.fixtureId

-- Counting the verdicts one by one comes to the same as counting them at the end.
theorem foldl_counting (category : Category) (skipped : Nat) (before verdicts : List Verdict) :
    verdicts.foldl counting (ofVerdicts category skipped before) =
      ofVerdicts category skipped (before ++ verdicts) := by
  induction verdicts generalizing before with
  | nil => rw [List.foldl_nil, List.append_nil]
  | cons v rest ih =>
      have hstep : (ofVerdicts category skipped before).counting v =
          ofVerdicts category skipped (before ++ [v]) := by
        cases hv : v.passed <;> simp [counting, ofVerdicts, hv]
      rw [List.foldl_cons, hstep, ih, List.append_assoc, List.singleton_append]

theorem total_eq_passed_add_failed (category : Category) (skipped : Nat)
    (verdicts : List Verdict) :
    (ofVerdicts category skipped verdicts).total =
      (ofVerdicts category skipped verdicts).passed +
        (ofVerdicts category skipped verdicts).failing.length := by
  simp only [ofVerdicts, List.length_map]
  exact List.length_eq_length_filter_add Verdict.passed

end CategoryReport

namespace Suite

variable {suite : Suite}

-- Each entry is run or skipped.
theorem length_fixtures_add_disabledCount (suite : Suite) :
    suite.fixtures.length + suite.disabledCount = suite.entries.length := by
  rw [fixtures, disabledCount, List.length_map, Nat.add_comm]
  exact (List.length_eq_length_filter_add Entry.isDisabled).symm

theorem category_of_mem_fixtures {f : Fixture} (h : f ∈ suite.fixtures) :
    f.category = suite.category := by
  obtain ⟨entry, -, rfl⟩ := List.mem_map.mp h
  rfl

end Suite

namespace Setting

variable {σ : Type} (setting : Setting σ)

-- What each of some fixtures showed, run one after the other.
def shown : World σ → List Fixture → List (Fixture × FixtureRun)
  | _, [] => []
  | w, f :: rest =>
      (f, (f.run setting.host setting.config setting.invoker w).1) ::
        shown (f.run setting.host setting.config setting.invoker w).2 rest

theorem shown_append (w : World σ) (xs ys : List Fixture) :
    setting.shown w (xs ++ ys) = setting.shown w xs ++ setting.shown (setting.after w xs) ys := by
  induction xs generalizing w with
  | nil => rfl
  | cons f rest ih =>
      rw [List.cons_append, shown, shown, List.cons_append, ih]
      rfl

theorem map_fst_shown (w : World σ) (fixtures : List Fixture) :
    (setting.shown w fixtures).map Prod.fst = fixtures := by
  induction fixtures generalizing w with
  | nil => rfl
  | cons f rest ih => rw [shown, List.map_cons, ih]

def judge (seen : Fixture × FixtureRun) : Verdict :=
  classify seen.1 seen.2 setting.config

-- The verdicts on some fixtures that are run one after the other.
def verdicts (w : World σ) (fixtures : List Fixture) : List Verdict :=
  (setting.shown w fixtures).map setting.judge

theorem verdicts_append (w : World σ) (xs ys : List Fixture) :
    setting.verdicts w (xs ++ ys) =
      setting.verdicts w xs ++ setting.verdicts (setting.after w xs) ys := by
  rw [verdicts, shown_append, List.map_append]
  rfl

theorem length_verdicts (w : World σ) (fixtures : List Fixture) :
    (setting.verdicts w fixtures).length = fixtures.length := by
  rw [verdicts, List.length_map, ← List.length_map (f := Prod.fst), map_fst_shown]

-- Each suite's report, with the verdicts it counts.
def accounts : World σ → List Suite → List (CategoryReport × List Verdict)
  | _, [] => []
  | w, suite :: rest =>
      (.ofVerdicts suite.category suite.disabledCount (setting.verdicts w suite.fixtures),
        setting.verdicts w suite.fixtures) :: accounts (setting.after w suite.fixtures) rest

theorem flatMap_snd_accounts (w : World σ) (suites : List Suite) :
    (setting.accounts w suites).flatMap Prod.snd =
      setting.verdicts w (suites.flatMap Suite.fixtures) := by
  induction suites generalizing w with
  | nil => rfl
  | cons suite rest ih =>
      rw [accounts, List.flatMap_cons, List.flatMap_cons, verdicts_append, ih]

-- A verdict is named as its fixture is.
theorem map_names_verdicts (w : World σ) (fixtures : List Fixture) :
    (setting.verdicts w fixtures).map (fun v => (v.category, v.fixtureId)) =
      fixtures.map fun f => (f.category, f.name) := by
  conv_rhs => rw [← setting.map_fst_shown w fixtures]
  rw [verdicts, List.map_map, List.map_map]
  rfl

variable {setting} {w : World σ}

theorem exists_fixture_of_mem_verdicts {fixtures : List Fixture} {v : Verdict}
    (h : v ∈ setting.verdicts w fixtures) : ∃ f ∈ fixtures, f.category = v.category := by
  have hname : (v.category, v.fixtureId) ∈ fixtures.map fun f => (f.category, f.name) := by
    rw [← setting.map_names_verdicts w]
    exact List.mem_map_of_mem h
  obtain ⟨f, hf, heq⟩ := List.mem_map.mp hname
  exact ⟨f, hf, congrArg Prod.fst heq⟩

theorem category_of_mem_verdicts {suite : Suite} {v : Verdict}
    (h : v ∈ setting.verdicts w suite.fixtures) : v.category = suite.category := by
  obtain ⟨f, hf, hcategory⟩ := exists_fixture_of_mem_verdicts h
  rw [← hcategory, Suite.category_of_mem_fixtures hf]

-- An account is the report on a suite with the verdicts on its fixtures.
theorem exists_of_mem_accounts {suites : List Suite} {account : CategoryReport × List Verdict}
    (h : account ∈ setting.accounts w suites) :
    ∃ suite ∈ suites, ∃ w', account.2 = setting.verdicts w' suite.fixtures ∧
      account.1 = .ofVerdicts suite.category suite.disabledCount account.2 := by
  induction suites generalizing w with
  | nil => cases h
  | cons suite rest ih =>
      rcases List.mem_cons.mp h with rfl | h
      · exact ⟨suite, List.mem_cons_self, w, rfl, rfl⟩
      · obtain ⟨other, hother, haccount⟩ := ih h
        exact ⟨other, List.mem_cons_of_mem _ hother, haccount⟩

end Setting

-- The entries of a log about a category that was run.
def Log.chapter (account : CategoryReport × List Verdict) : List Log.Entry :=
  .categoryStart account.1.category account.1.total account.1.skipped ::
    (account.2.map .ofVerdict ++ [.categoryEnd account.1])

end Conformance
