import Conformance.Proofs.Catalog.Running
import Conformance.Proofs.Fixture.Answered
import Mathlib.Data.List.Perm.Basic

namespace Conformance

namespace Suite

-- The report on a suite whose verdicts are told from its fixtures.
def reportBy (suite : Suite) (verdictOf : Fixture → Verdict) : CategoryReport :=
  .ofVerdicts suite.category suite.disabledCount (suite.fixtures.map verdictOf)

-- The same suite with its entries in another order.
structure Rearranged (suite other : Suite) : Prop where
  category : suite.category = other.category
  directory : suite.directory = other.directory
  entries : suite.entries.Perm other.entries

theorem Rearranged.fixtures {suite other : Suite} (h : suite.Rearranged other) :
    suite.fixtures.Perm other.fixtures := by
  have hfixture : suite.fixtureOf = other.fixtureOf := by
    funext entry
    rw [fixtureOf, fixtureOf, h.category, h.directory]
  rw [Suite.fixtures, Suite.fixtures, hfixture]
  exact (h.entries.filter _).map _

end Suite

namespace Setting

variable {σ : Type} {setting : Setting σ} {answer : Request → Answer}

-- Some fixtures are run one after the other, and each is answered where it is run.
def Answered (setting : Setting σ) (answer : Request → Answer) : World σ → List Fixture → Prop
  | _, [] => True
  | w, f :: rest =>
      f.Answered setting.host setting.config setting.invoker answer w ∧
        setting.Answered answer (f.run setting.host setting.config setting.invoker w).2 rest

instance decidableAnswered (setting : Setting σ) (answer : Request → Answer) :
    (w : World σ) → (fixtures : List Fixture) → Decidable (setting.Answered answer w fixtures)
  | _, [] => isTrue trivial
  | w, f :: rest =>
      have := decidableAnswered setting answer
        (f.run setting.host setting.config setting.invoker w).2 rest
      inferInstanceAs (Decidable (_ ∧ _))

-- The verdict on a fixture, told from the answers.
def verdictBy (setting : Setting σ) (answer : Request → Answer) (f : Fixture) : Verdict :=
  f.verdictBy setting.host setting.config answer

theorem answered_append {w : World σ} {xs ys : List Fixture} :
    setting.Answered answer w (xs ++ ys) ↔
      setting.Answered answer w xs ∧ setting.Answered answer (setting.after w xs) ys := by
  induction xs generalizing w with
  | nil => exact ⟨fun h => ⟨trivial, h⟩, fun h => h.2⟩
  | cons f rest ih =>
      rw [List.cons_append, Answered, Answered, ih, and_assoc]
      rfl

-- One answered fixture leaves nothing behind that the verdict on another one depends on.
theorem verdicts_of_answered {w : World σ} {fixtures : List Fixture}
    (h : setting.Answered answer w fixtures) :
    setting.verdicts w fixtures = fixtures.map (setting.verdictBy answer) := by
  induction fixtures generalizing w with
  | nil => rfl
  | cons f rest ih =>
      have hrest := ih h.2
      rw [verdicts, shown, List.map_cons, List.map_cons, ← hrest]
      exact congrArg (· :: _) (Fixture.classify_run_eq_verdictBy h.1)

theorem accounts_of_answered {w : World σ} {suites : List Suite}
    (h : setting.Answered answer w (suites.flatMap Suite.fixtures)) :
    setting.accounts w suites = suites.map fun suite =>
      (suite.reportBy (setting.verdictBy answer),
        suite.fixtures.map (setting.verdictBy answer)) := by
  induction suites generalizing w with
  | nil => rfl
  | cons suite rest ih =>
      rw [List.flatMap_cons, answered_append] at h
      rw [accounts, List.map_cons, ih h.2, verdicts_of_answered h.1]
      rfl

-- Two settings that a verdict does not tell apart.
structure Alike (setting other : Setting σ) : Prop where
  config : other.config = setting.config
  cwd : other.host.cwd = setting.host.cwd

theorem Alike.verdictBy_eq {other : Setting σ} (h : setting.Alike other)
    (answer : Request → Answer) : other.verdictBy answer = setting.verdictBy answer := by
  funext f
  rw [verdictBy, verdictBy, h.config, Fixture.verdictBy_congr h.cwd]

end Setting

namespace Catalog

variable {catalog other : Catalog} {chosen : List Category}

-- What a run comes to, told from the verdicts on the fixtures.
def resultBy (catalog : Catalog) (mode : String) (verdictOf : Fixture → Verdict)
    (chosen : List Category) : CatalogRun :=
  ⟨mode, (catalog.selectedSuites chosen).map fun suite => suite.reportBy verdictOf,
    .ofResults ((catalog.selected chosen).map verdictOf)⟩

-- A run comes to a result, and only to this one, unless something of it is lost that it says or
-- logs.
structure ComesTo {σ : Type} (catalog : Catalog) (setting : Setting σ) (chosen : List Category)
    (s : RunState σ) (r : CatalogRun) : Prop where
  result : ∀ r', (catalog.run setting chosen s).1 = .ok r' → r' = r
  told : s.Healthy → (catalog.run setting chosen s).1 = .ok r

theorem comesTo_of_answered {σ : Type} {setting : Setting σ} {answer : Request → Answer}
    {s : RunState σ} (h : setting.Answered answer s.world (catalog.selected chosen))
    (hsome : catalog.selected chosen ≠ []) :
    catalog.ComesTo setting chosen s
      (catalog.resultBy setting.config.mode (setting.verdictBy answer) chosen) := by
  have hresult : ∀ r', (catalog.run setting chosen s).1 = .ok r' →
      r' = catalog.resultBy setting.config.mode (setting.verdictBy answer) chosen := by
    intro r' hrun
    obtain ⟨rfl, -⟩ := run_eq_ok (Prod.ext hrun rfl)
    rw [outcome, Setting.accounts_of_answered h, Setting.verdicts_of_answered h, List.map_map]
    rfl
  refine ⟨hresult, fun hhealthy => ?_⟩
  obtain ⟨r, s', hrun⟩ : ∃ r s', catalog.run setting chosen s = (.ok r, s') :=
    exists_run_eq_ok hhealthy hsome
  rw [hrun, hresult r (by rw [hrun])]

-- A choice leaves out suites of a whole run, and changes neither their order nor what is
-- in the others.
theorem selectedSuites_eq_filter (catalog : Catalog) (hne : chosen ≠ []) :
    catalog.selectedSuites chosen =
      (catalog.selectedSuites []).filter fun suite => suite.category ∈ chosen := by
  have hfilter : ∀ categories : List Category,
      (categories.filter fun c => chosen = [] ∨ c ∈ chosen).filterMap catalog.suite? =
        (categories.filterMap catalog.suite?).filter fun suite => suite.category ∈ chosen := by
    intro categories
    induction categories with
    | nil => rfl
    | cons c rest ih =>
        cases hsuite : catalog.suite? c with
        | none => by_cases hc : c ∈ chosen <;> simp_all
        | some suite =>
            have hcategory := category_of_suite? hsuite
            by_cases hc : c ∈ chosen <;> simp_all
  rw [selectedSuites, Category.selection_eq_filter]
  exact hfilter Category.all

theorem selected_eq_filter (catalog : Catalog) (hne : chosen ≠ []) :
    catalog.selected chosen = (catalog.selected []).filter fun f => f.category ∈ chosen := by
  have hfilter : ∀ suites : List Suite,
      (suites.filter fun suite => suite.category ∈ chosen).flatMap Suite.fixtures =
        (suites.flatMap Suite.fixtures).filter fun f => f.category ∈ chosen := by
    intro suites
    induction suites with
    | nil => rfl
    | cons suite rest ih =>
        have hsame : suite.fixtures.filter (fun f => f.category ∈ chosen) =
            if suite.category ∈ chosen then suite.fixtures else [] := by
          split_ifs with hc
          · exact List.filter_eq_self.mpr fun f hf =>
              decide_eq_true (Suite.category_of_mem_fixtures hf ▸ hc)
          · exact List.filter_eq_nil_iff.mpr fun f hf hf' =>
              hc (Suite.category_of_mem_fixtures hf ▸ of_decide_eq_true hf')
        rw [List.flatMap_cons, List.filter_append, hsame, ← ih]
        by_cases hc : suite.category ∈ chosen <;> simp [hc]
  rw [selected, selectedSuites_eq_filter catalog hne, hfilter]
  rfl

section Restricted

variable (catalog) (mode : String) {verdictOf : Fixture → Verdict}

theorem results_resultBy_eq_filter (hcategory : ∀ f, (verdictOf f).category = f.category)
    (hne : chosen ≠ []) :
    (catalog.resultBy mode verdictOf chosen).summary.results =
      (catalog.resultBy mode verdictOf []).summary.results.filter fun v => v.category ∈ chosen := by
  change (catalog.selected chosen).map verdictOf = ((catalog.selected []).map verdictOf).filter _
  rw [List.filter_map, selected_eq_filter catalog hne]
  simp only [Function.comp_def, hcategory]

theorem categories_resultBy_eq_filter (verdictOf : Fixture → Verdict) (hne : chosen ≠ []) :
    (catalog.resultBy mode verdictOf chosen).categories =
      (catalog.resultBy mode verdictOf []).categories.filter fun c => c.category ∈ chosen := by
  change (catalog.selectedSuites chosen).map _ = ((catalog.selectedSuites []).map _).filter _
  rw [List.filter_map, selectedSuites_eq_filter catalog hne]
  rfl

-- The verdicts of one category are those on its fixtures, in their order.
theorem filter_results_resultBy (hcategory : ∀ f, (verdictOf f).category = f.category)
    (category : Category) :
    (catalog.resultBy mode verdictOf []).summary.results.filter
        (fun v => v.category = category) = (catalog.fixtures category).map verdictOf := by
  have hone : catalog.selected [category] = catalog.fixtures category := by
    rw [selected_eq_flatMap]
    cases category <;> exact List.append_nil _
  have hfilter := catalog.results_resultBy_eq_filter mode hcategory (List.cons_ne_nil category [])
  simp only [List.mem_singleton] at hfilter
  rw [← hfilter, ← hone]
  rfl

end Restricted

-- The same catalog with the entries of each suite in another order.
def Rearranged (catalog other : Catalog) : Prop :=
  List.Forall₂ Suite.Rearranged catalog.suites other.suites

theorem Rearranged.fixtures (h : catalog.Rearranged other) (category : Category) :
    (catalog.fixtures category).Perm (other.fixtures category) := by
  unfold Rearranged at h
  unfold Catalog.fixtures suite?
  generalize catalog.suites = suites at h ⊢
  generalize other.suites = suites' at h ⊢
  induction h with
  | nil => exact .refl []
  | @cons suite suite' rest rest' hsuite _ ih =>
      rw [List.find?_cons, List.find?_cons, hsuite.category]
      by_cases hc : suite'.category = category
      · simp only [hc, decide_true]
        exact hsuite.fixtures
      · simp only [hc, decide_false]
        exact ih

theorem Rearranged.selected (h : catalog.Rearranged other) (chosen : List Category) :
    (catalog.selected chosen).Perm (other.selected chosen) := by
  rw [selected_eq_flatMap, selected_eq_flatMap]
  exact List.Perm.flatMap_left _ fun c _ => h.fixtures c

-- Fixtures do not reach each other. Whatever else is run, and in whatever order, a fixture
-- whose tools are answered alike gets the same verdict: the run of some categories is the
-- full run without the others, and entries that are rearranged take their verdicts along.
theorem run_isolated {σ : Type} (catalog : Catalog) (setting : Setting σ)
    (answer : Request → Answer) (s : RunState σ) (hsome : catalog.selected [] ≠ [])
    (hanswered : setting.Answered answer s.world (catalog.selected [])) :
    ∃ (r : CatalogRun) (verdictOf : Fixture → Verdict),
      catalog.ComesTo setting [] s r ∧
      (∀ c, r.summary.results.filter (fun v => v.category = c) =
        (catalog.fixtures c).map verdictOf) ∧
      (∀ other : Setting σ, setting.Alike other → ∀ chosen s', chosen ≠ [] →
        catalog.selected chosen ≠ [] →
        other.Answered answer s'.world (catalog.selected chosen) →
        ∃ r', catalog.ComesTo other chosen s' r' ∧
          r'.summary.results = r.summary.results.filter (fun v => v.category ∈ chosen) ∧
          r'.categories = r.categories.filter fun c => c.category ∈ chosen) ∧
      ∀ other : Setting σ, setting.Alike other → ∀ catalog' s', catalog.Rearranged catalog' →
        other.Answered answer s'.world (catalog'.selected []) →
        ∃ r', catalog'.ComesTo other [] s' r' ∧
          ∀ c, (r.summary.results.filter fun v => v.category = c).Perm
              (r'.summary.results.filter fun v => v.category = c) ∧
            r'.summary.results.filter (fun v => v.category = c) =
              (catalog'.fixtures c).map verdictOf := by
  have hcategory : ∀ f, (setting.verdictBy answer f).category = f.category := fun _ => rfl
  refine ⟨_, setting.verdictBy answer, comesTo_of_answered hanswered hsome,
    catalog.filter_results_resultBy _ hcategory, ?_, ?_⟩
  · intro other halike chosen s' hne hsome' hanswered'
    have hrun' := comesTo_of_answered hanswered' hsome'
    rw [halike.config, halike.verdictBy_eq] at hrun'
    exact ⟨_, hrun', catalog.results_resultBy_eq_filter _ hcategory hne,
      catalog.categories_resultBy_eq_filter _ _ hne⟩
  · intro other halike catalog' s' hrearranged hanswered'
    have hsome' : catalog'.selected [] ≠ [] := by
      intro hnone
      exact hsome (List.perm_nil.mp (hnone ▸ hrearranged.selected []))
    have hrun' := comesTo_of_answered hanswered' hsome'
    rw [halike.config, halike.verdictBy_eq] at hrun'
    refine ⟨_, hrun', fun c => ⟨?_, catalog'.filter_results_resultBy _ hcategory c⟩⟩
    rw [catalog.filter_results_resultBy _ hcategory c,
      catalog'.filter_results_resultBy _ hcategory c]
    exact (hrearranged.fixtures c).map _

-- Tools that write what they are asked for into both streams, and reject what lies in
-- the directory of a syntax error.
def echo (request : Request) : Answer :=
  ⟨.ok ⟨.exited (if request.args.any fun arg => arg.startsWith "/test/syntax" then 100 else 0), 5⟩,
    Text.bytesOf request.program, Text.bytesOf request.program⟩

def echoing (cwd : Place) : Invoker Unit := fun i w =>
  let a := echo i.request
  match i.output with
  | .discard => (a.result, w)
  | .capture out err =>
      let t := (w.files.write cwd out a.stdout).toOption.getD w.files
      (a.result, { w with files := (t.write cwd err a.stderr).toOption.getD t })

def twoSuites : Catalog :=
  ⟨"1", [⟨.valid, "valid", [.bare "a", .bare "b"]⟩, ⟨.syntaxInvalid, "syntax", [.bare "a"]⟩]⟩

def twoSuitesSwapped : Catalog :=
  ⟨"1", [⟨.valid, "valid", [.bare "b", .bare "a"]⟩, ⟨.syntaxInvalid, "syntax", [.bare "a"]⟩]⟩

def echoed : Setting Unit :=
  ⟨.plain, {}, echoing []⟩

def atStart : RunState Unit :=
  ⟨⟨Tree.empty, ()⟩, { console := .healthy }, none⟩

theorem run_isolated_two_suites :
    ∃ r r' r'', (twoSuites.run echoed [] atStart).1 = .ok r ∧
      (twoSuites.run echoed [.syntaxInvalid] atStart).1 = .ok r' ∧
      (twoSuitesSwapped.run echoed [] atStart).1 = .ok r'' ∧
      r'.summary.results = r.summary.results.filter (fun v => v.category ∈ [.syntaxInvalid]) ∧
      r'.categories = r.categories.filter (fun c => c.category ∈ [.syntaxInvalid]) ∧
      (r.summary.results.filter fun v => v.category = .valid).Perm
        (r''.summary.results.filter fun v => v.category = .valid) := by
  have hsome : twoSuites.selected [] ≠ [] := by decide +kernel
  have hchosen : twoSuites.selected [.syntaxInvalid] ≠ [] := by decide +kernel
  have hanswered : echoed.Answered echo atStart.world (twoSuites.selected []) := by
    decide +kernel
  have hanswered' : echoed.Answered echo atStart.world (twoSuites.selected [.syntaxInvalid]) := by
    decide +kernel
  have hanswered'' : echoed.Answered echo atStart.world (twoSuitesSwapped.selected []) := by
    decide +kernel
  have hhealthy : atStart.Healthy := ⟨fun _ => rfl, nofun⟩
  have hrearranged : twoSuites.Rearranged twoSuitesSwapped :=
    .cons ⟨rfl, rfl, .swap _ _ _⟩ (.cons ⟨rfl, rfl, .refl _⟩ .nil)
  obtain ⟨r, verdictOf, hrun, -, hrestricted, hreordered⟩ :=
    run_isolated twoSuites echoed echo atStart hsome hanswered
  obtain ⟨r', hrun', hresults, hcategories⟩ := hrestricted echoed ⟨rfl, rfl⟩ [.syntaxInvalid]
    atStart (List.cons_ne_nil _ _) hchosen hanswered'
  obtain ⟨r'', hrun'', hpermuted⟩ := hreordered echoed ⟨rfl, rfl⟩ twoSuitesSwapped atStart
    hrearranged hanswered''
  exact ⟨r, r', r'', hrun.told hhealthy, hrun'.told hhealthy, hrun''.told hhealthy, hresults,
    hcategories, (hpermuted .valid).1⟩

end Catalog

end Conformance
