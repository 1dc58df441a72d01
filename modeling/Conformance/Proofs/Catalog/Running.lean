import Conformance.Proofs.Catalog.Steps

namespace Conformance

-- All can be told, and all can be written into the log if there is one.
structure RunState.Healthy {σ : Type} (s : RunState σ) : Prop where
  console : ∀ n, s.reporter.console.fault? n = none
  log : Log.Book.AllSound s.log

namespace Setting

variable {σ α β : Type} {setting : Setting σ} {t t' : RunTrace σ}

theorem bind_of_ok {m : Running σ α} {k : α → Running σ β} {s s' : RunState σ} {a : α}
    (h : m s = (.ok a, s')) : (m >>= k) s = k a s' := by
  have hbind : (m >>= k) s = ExceptT.bindCont k (m s).1 (m s).2 := rfl
  rw [hbind, h]
  rfl

-- A part of a run that consists of some steps: with all of them carried out it comes to a
-- result and leaves a category open, or none, and otherwise it fails as they do.
structure Takes (setting : Setting σ) (m : Running σ α) (steps : List RunStep) (a : α)
    (current : Option CategoryReport) (s : RunState σ) : Prop where
  ends : ∀ t, setting.carryOut steps s.trace = (.ok (), t) → m s = (.ok a, t.withOpen current)
  breaks : ∀ e t, setting.carryOut steps s.trace = (.error e, t) →
    (m s).1 = .error e ∧ (m s).2.trace = t

section Takes

variable {s : RunState σ} {current current' : Option CategoryReport}

-- A part of a run ends as its steps do.
theorem takes_of_eq {m : Running σ α} {steps : List RunStep} {a : α} {t : RunTrace σ}
    {result : Except IoError Unit}
    (hm : m s = (result.map fun _ => a, t.withOpen current))
    (hsteps : setting.carryOut steps s.trace = (result, t)) :
    setting.Takes m steps a current s := by
  constructor
  · intro t' ht'
    rw [hsteps] at ht'
    cases ht'
    exact hm
  · intro e t' ht'
    rw [hsteps] at ht'
    cases ht'
    rw [hm]
    exact ⟨rfl, rfl⟩

theorem takes_pure (a : α) :
    setting.Takes (pure a : Running σ α) [] a s.reporter.current s where
  ends := by
    rintro t ⟨⟩
    rfl
  breaks := nofun

theorem takes_log (e : Log.Entry) :
    setting.Takes (setting.log e) [.logged e] () s.reporter.current s := by
  rcases hemit : Log.Book.emitIn setting.host.clock e s.log with ⟨result, log⟩
  have hlog : setting.log e s = (result.map fun _ => (), { s with log := log }) := by
    simp only [Setting.log, hemit]
    cases result <;> rfl
  have hsteps : setting.carryOut [.logged e] s.trace = (result, { s.trace with log := log }) := by
    simp only [carryOut, carry, RunState.trace, hemit]
    cases result <;> rfl
  exact takes_of_eq hlog hsteps

-- What is held back is all written, or a run ends there.
theorem takes_save : setting.Takes save [.saved] () s.reporter.current s := by
  have hsave : (save : Running σ Unit) s = ((Log.Book.flushIn s.log).map fun _ => (), s) := by
    rw [save]
    cases Log.Book.flushIn s.log <;> rfl
  have hsteps : setting.carryOut [.saved] s.trace = (Log.Book.flushIn s.log, s.trace) := by
    simp only [carryOut, carry, RunState.trace]
    cases Log.Book.flushIn s.log <;> rfl
  exact takes_of_eq hsave hsteps

theorem takes_observe (f : Fixture) :
    setting.Takes (setting.observe f) [.ran f]
      (f.run setting.host setting.config setting.invoker s.world).1 s.reporter.current s where
  ends := by
    rintro t ⟨⟩
    rfl
  breaks := nofun

-- What is told changes the open category first, whether or not it gets out.
theorem takes_tell {act : Reporter → Except IoError α × Reporter} {outputs : List Output} {a : α}
    (h : act s.reporter =
      (({ s.reporter with current := current }.tell outputs).1.map fun _ => a,
        ({ s.reporter with current := current }.tell outputs).2)) :
    setting.Takes (tell act : Running σ α) (outputs.map .told) a current s := by
  rcases hput : s.reporter.console.putAll outputs with ⟨result, c⟩
  have hsteps : setting.carryOut (outputs.map .told) s.trace =
      (result, { s.trace with console := c }) := by
    rw [carryOut_map_told, RunState.trace]
    simp only [hput]
  have hact : (tell act : Running σ α) s =
      (result.map fun _ => a, { s with reporter := ⟨c, current⟩ }) := by
    simp only [tell, h, Reporter.tell, hput]
  exact takes_of_eq hact hsteps

theorem Takes.bind {m : Running σ α} {k : α → Running σ β} {xs ys : List RunStep} {a : α} {b : β}
    (hm : setting.Takes m xs a current s)
    (hk : ∀ s', s'.world = setting.after s.world (xs.filterMap RunStep.fixture?) →
      s'.reporter.current = current → setting.Takes (k a) ys b current' s') :
    setting.Takes (m >>= k) (xs ++ ys) b current' s := by
  have hbind : (m >>= k) s = ExceptT.bindCont k (m s).1 (m s).2 := rfl
  rcases hxs : setting.carryOut xs s.trace with ⟨e | _, t⟩
  · obtain ⟨herror, htrace⟩ := hm.breaks e t hxs
    constructor
    · intro t' ht'
      rw [carryOut_append, hxs] at ht'
      cases ht'
    · intro e' t' ht'
      rw [carryOut_append, hxs] at ht'
      cases ht'
      rw [hbind, herror]
      exact ⟨rfl, htrace⟩
  · have hfirst := hm.ends t hxs
    have hrest : setting.Takes (k a) ys b current' (t.withOpen current) :=
      hk _ (carried_of_ok hxs).world rfl
    constructor
    · intro t' ht'
      rw [carryOut_append, hxs] at ht'
      rw [bind_of_ok hfirst]
      exact hrest.ends t' ht'
    · intro e' t' ht'
      rw [carryOut_append, hxs] at ht'
      rw [bind_of_ok hfirst]
      exact hrest.breaks e' t' ht'

theorem Takes.bind_pure {m : Running σ α} {xs : List RunStep} {a : α}
    (hm : setting.Takes m xs a current s) (g : α → β) :
    setting.Takes (m >>= fun x => pure (g x)) xs (g a) current s := by
  have hboth : setting.Takes (m >>= fun x => pure (g x)) (xs ++ []) (g a) current s :=
    hm.bind fun s' _ hcurrent => hcurrent ▸ takes_pure (g a)
  rwa [List.append_nil] at hboth

end Takes

section Reporter

variable {s : RunState σ} {report : CategoryReport}

theorem takes_banner : setting.Takes (tell Reporter.banner)
    (Reporter.bannerPieces.map .told) () s.reporter.current s := by
  apply takes_tell
  rw [Reporter.banner]
  cases h : s.reporter.tell Reporter.bannerPieces with
  | mk result r => cases result <;> rfl

theorem takes_beginCategory (category : Category) (skipped : Nat) :
    setting.Takes (tell fun r => r.beginCategory category skipped)
      ((Reporter.headPieces category).map .told) () (some (.opened category skipped)) s := by
  apply takes_tell
  rw [Reporter.beginCategory]
  cases h : Reporter.tell _ (Reporter.headPieces category) with
  | mk result r => cases result <;> rfl

theorem takes_record (v : Verdict) (hcurrent : s.reporter.current = some report) :
    setting.Takes (tell fun r => r.record v) ((Reporter.markPieces v).map .told) ()
      (some (report.counting v)) s := by
  apply takes_tell
  rw [Reporter.record, hcurrent]
  dsimp only
  cases h : Reporter.tell _ (Reporter.markPieces v) with
  | mk result r => cases result <;> rfl

theorem takes_finishCategory (hcurrent : s.reporter.current = some report) :
    setting.Takes (tell Reporter.finishCategory) ((Reporter.closingPieces report).map .told)
      report none s := by
  apply takes_tell
  rw [Reporter.finishCategory, hcurrent]
  dsimp only
  cases h : Reporter.tell _ (Reporter.closingPieces report) with
  | mk result r => cases result <;> rfl

end Reporter

variable (setting)

-- What a fixture shows that is run in some world.
def seenIn (w : World σ) (f : Fixture) : Fixture × FixtureRun :=
  (f, (f.run setting.host setting.config setting.invoker w).1)

-- A fixture is run, and its verdict is told and then logged.
def fixtureSteps (seen : Fixture × FixtureRun) : List RunStep :=
  [.ran seen.1] ++ ((Reporter.markPieces (setting.judge seen)).map .told ++
    [.logged (.ofVerdict (setting.judge seen))])

-- The report on a suite of which the fixtures are run from some world on.
def reportFrom (w : World σ) (suite : Suite) : CategoryReport :=
  .ofVerdicts suite.category suite.disabledCount (setting.verdicts w suite.fixtures)

def suiteSteps (w : World σ) (suite : Suite) : List RunStep :=
  [.logged (.categoryStart suite.category suite.fixtures.length suite.disabledCount)] ++
    ((Reporter.headPieces suite.category).map .told ++
      ((setting.shown w suite.fixtures).flatMap setting.fixtureSteps ++
        ((Reporter.closingPieces (setting.reportFrom w suite)).map .told ++
          [.logged (.categoryEnd (setting.reportFrom w suite))])))

-- Each suite starts in the world that the one before it left.
def suitesSteps : World σ → List Suite → List RunStep
  | _, [] => []
  | w, suite :: rest =>
      setting.suiteSteps w suite ++ suitesSteps (setting.after w suite.fixtures) rest

@[simp] theorem filterMap_fixture?_map_told (outputs : List Output) :
    (outputs.map RunStep.told).filterMap RunStep.fixture? = [] := by
  rw [List.filterMap_map, List.filterMap_eq_nil_iff]
  exact fun _ _ => rfl

@[simp] theorem filterMap_entry?_map_told (outputs : List Output) :
    (outputs.map RunStep.told).filterMap RunStep.entry? = [] := by
  rw [List.filterMap_map, List.filterMap_eq_nil_iff]
  exact fun _ _ => rfl

@[simp] theorem filterMap_fixture?_logged (e : Log.Entry) :
    [RunStep.logged e].filterMap RunStep.fixture? = [] :=
  rfl

@[simp] theorem filterMap_entry?_logged (e : Log.Entry) :
    [RunStep.logged e].filterMap RunStep.entry? = [e] :=
  rfl

@[simp] theorem filterMap_fixture?_saved :
    [RunStep.saved].filterMap RunStep.fixture? = [] :=
  rfl

@[simp] theorem filterMap_entry?_saved : [RunStep.saved].filterMap RunStep.entry? = [] :=
  rfl

@[simp] theorem filterMap_fixture?_fixtureSteps (seen : Fixture × FixtureRun) :
    (setting.fixtureSteps seen).filterMap RunStep.fixture? = [seen.1] := by
  simp only [fixtureSteps, List.filterMap_append, filterMap_fixture?_map_told,
    filterMap_fixture?_logged, List.append_nil]
  rfl

@[simp] theorem filterMap_entry?_fixtureSteps (seen : Fixture × FixtureRun) :
    (setting.fixtureSteps seen).filterMap RunStep.entry? = [.ofVerdict (setting.judge seen)] := by
  simp only [fixtureSteps, List.filterMap_append, filterMap_entry?_map_told,
    filterMap_entry?_logged, List.nil_append]
  rfl

@[simp] theorem filterMap_fixture?_shown (w : World σ) (fixtures : List Fixture) :
    ((setting.shown w fixtures).flatMap setting.fixtureSteps).filterMap RunStep.fixture? =
      fixtures := by
  rw [List.filterMap_flatMap]
  simp only [filterMap_fixture?_fixtureSteps]
  rw [← List.map_eq_flatMap, map_fst_shown]

@[simp] theorem filterMap_entry?_shown (w : World σ) (fixtures : List Fixture) :
    ((setting.shown w fixtures).flatMap setting.fixtureSteps).filterMap RunStep.entry? =
      (setting.verdicts w fixtures).map .ofVerdict := by
  rw [List.filterMap_flatMap]
  simp only [filterMap_entry?_fixtureSteps]
  rw [← List.map_eq_flatMap, verdicts, List.map_map]
  rfl

@[simp] theorem filterMap_fixture?_suiteSteps (w : World σ) (suite : Suite) :
    (setting.suiteSteps w suite).filterMap RunStep.fixture? = suite.fixtures := by
  simp only [suiteSteps, List.filterMap_append, filterMap_fixture?_map_told,
    filterMap_fixture?_logged, filterMap_fixture?_shown, List.nil_append, List.append_nil]

@[simp] theorem filterMap_entry?_suiteSteps (w : World σ) (suite : Suite) :
    (setting.suiteSteps w suite).filterMap RunStep.entry? =
      Log.chapter (setting.reportFrom w suite, setting.verdicts w suite.fixtures) := by
  simp only [suiteSteps, List.filterMap_append, filterMap_entry?_map_told,
    filterMap_entry?_logged, filterMap_entry?_shown, List.nil_append, Log.chapter, reportFrom,
    CategoryReport.ofVerdicts, length_verdicts]
  rfl

@[simp] theorem filterMap_fixture?_suitesSteps (w : World σ) (suites : List Suite) :
    (setting.suitesSteps w suites).filterMap RunStep.fixture? =
      suites.flatMap Suite.fixtures := by
  induction suites generalizing w with
  | nil => rfl
  | cons suite rest ih =>
      rw [suitesSteps, List.filterMap_append, filterMap_fixture?_suiteSteps, ih, List.flatMap_cons]

@[simp] theorem filterMap_entry?_suitesSteps (w : World σ) (suites : List Suite) :
    (setting.suitesSteps w suites).filterMap RunStep.entry? =
      (setting.accounts w suites).flatMap Log.chapter := by
  induction suites generalizing w with
  | nil => rfl
  | cons suite rest ih =>
      rw [suitesSteps, List.filterMap_append, filterMap_entry?_suiteSteps, ih, accounts,
        List.flatMap_cons]
      rfl

variable {setting} {s : RunState σ} {report : CategoryReport}

theorem takes_runFixture (f : Fixture) (hcurrent : s.reporter.current = some report) :
    setting.Takes (setting.runFixture f) (setting.fixtureSteps (setting.seenIn s.world f))
      (setting.judge (setting.seenIn s.world f))
      (some (report.counting (setting.judge (setting.seenIn s.world f)))) s := by
  refine (takes_observe f).bind fun s₁ _ hobserved => ?_
  refine (takes_record _ (hobserved.trans hcurrent)).bind fun s₂ _ hrecorded => ?_
  exact hrecorded ▸ (takes_log _).bind_pure _

variable (setting) in
theorem takes_fixtures (fixtures : List Fixture) (hcurrent : s.reporter.current = some report) :
    setting.Takes (fixtures.mapM setting.runFixture)
      ((setting.shown s.world fixtures).flatMap setting.fixtureSteps)
      (setting.verdicts s.world fixtures)
      (some ((setting.verdicts s.world fixtures).foldl CategoryReport.counting report)) s := by
  induction fixtures generalizing s report with
  | nil =>
      rw [List.mapM_nil]
      exact hcurrent ▸ takes_pure []
  | cons f rest ih =>
      rw [List.mapM_cons]
      refine (takes_runFixture f hcurrent).bind fun s₁ hworld hcounted => ?_
      rw [filterMap_fixture?_fixtureSteps] at hworld
      have hrest := (ih hcounted).bind_pure
        fun vs => setting.judge (setting.seenIn s.world f) :: vs
      rw [hworld] at hrest
      exact hrest

theorem takes_runSuite (suite : Suite) :
    setting.Takes (setting.runSuite suite) (setting.suiteSteps s.world suite)
      (setting.reportFrom s.world suite, setting.verdicts s.world suite.fixtures) none s := by
  refine (takes_log _).bind fun s₁ hw₁ _ => ?_
  refine (takes_beginCategory _ _).bind fun s₂ hw₂ hopened => ?_
  rw [filterMap_fixture?_logged] at hw₁
  rw [filterMap_fixture?_map_told] at hw₂
  have hworld : s₂.world = s.world := hw₂.trans hw₁
  have hfixtures := setting.takes_fixtures suite.fixtures hopened
  have hreport : (setting.verdicts s.world suite.fixtures).foldl CategoryReport.counting
      (.opened suite.category suite.disabledCount) = setting.reportFrom s.world suite :=
    CategoryReport.foldl_counting suite.category suite.disabledCount [] _
  rw [hworld, hreport] at hfixtures
  refine hfixtures.bind fun s₃ _ hcounted => ?_
  refine (takes_finishCategory hcounted).bind fun s₄ _ hclosed => ?_
  exact hclosed ▸ (takes_log _).bind_pure _

-- A category that was open before is dropped by the first suite.
variable (setting s) in
theorem takes_suites (suites : List Suite) :
    setting.Takes (suites.mapM setting.runSuite) (setting.suitesSteps s.world suites)
      (setting.accounts s.world suites)
      (suites.foldl (fun _ _ => none) s.reporter.current) s := by
  induction suites generalizing s with
  | nil =>
      rw [List.mapM_nil]
      exact takes_pure []
  | cons suite rest ih =>
      rw [List.mapM_cons, List.foldl_cons]
      refine (takes_runSuite suite).bind fun s₁ hworld hclosed => ?_
      rw [filterMap_fixture?_suiteSteps] at hworld
      have hrest := (ih s₁).bind_pure fun more =>
        (setting.reportFrom s.world suite, setting.verdicts s.world suite.fixtures) :: more
      rw [hworld, hclosed] at hrest
      exact hrest

end Setting

namespace Catalog

variable {σ : Type} (catalog : Catalog) (setting : Setting σ) (chosen : List Category)

-- All that a run of the chosen categories does up to its last entry.
def openSteps (w : World σ) : List RunStep :=
  [.logged (.runStart setting.config.mode (Category.selection chosen)
    (catalog.selected chosen).length)] ++
    (Reporter.bannerPieces.map .told ++ setting.suitesSteps w (catalog.selectedSuites chosen))

-- What a run brings that comes to its end.
def outcome (w : World σ) : CatalogRun :=
  ⟨setting.config.mode, (setting.accounts w (catalog.selectedSuites chosen)).map Prod.fst,
    .ofResults (setting.verdicts w (catalog.selected chosen))⟩

def steps (w : World σ) : List RunStep :=
  catalog.openSteps setting chosen w ++
    ([.logged (.runEnd (catalog.outcome setting chosen w).summary)] ++ [.saved])

variable {setting chosen} {s : RunState σ}

theorem takes_runSuites : setting.Takes
    (setting.runSuites (Category.selection chosen) (catalog.selectedSuites chosen))
    (catalog.steps setting chosen s.world) (catalog.outcome setting chosen s.world)
    ((catalog.selectedSuites chosen).foldl (fun _ _ => none) s.reporter.current) s := by
  have hlength : ((catalog.selectedSuites chosen).map fun suite =>
      suite.fixtures.length).foldr (· + ·) 0 = (catalog.selected chosen).length :=
    List.length_flatMap.symm
  have hresults : (setting.accounts s.world (catalog.selectedSuites chosen)).flatMap Prod.snd =
      setting.verdicts s.world (catalog.selected chosen) :=
    setting.flatMap_snd_accounts s.world _
  rw [steps, openSteps, List.append_assoc, List.append_assoc, ← hlength]
  refine (Setting.takes_log _).bind fun s₁ hw₁ hc₁ => ?_
  refine Setting.takes_banner.bind fun s₂ hw₂ hc₂ => ?_
  rw [Setting.filterMap_fixture?_logged] at hw₁
  rw [Setting.filterMap_fixture?_map_told] at hw₂
  have hworld : s₂.world = s.world := hw₂.trans hw₁
  have hsuites := setting.takes_suites s₂ (catalog.selectedSuites chosen)
  rw [hworld, hc₂, hc₁] at hsuites
  refine hsuites.bind fun s₃ _ hc₃ => ?_
  rw [hresults]
  refine (Setting.takes_log _).bind fun s₄ _ hc₄ => ?_
  rw [← hc₃, ← hc₄]
  exact Setting.takes_save.bind_pure _

variable {catalog} {t : RunTrace σ}

theorem run_eq_of_selected_eq_nil (h : catalog.selected chosen = []) :
    catalog.run setting chosen s = (.error .nothingToRun, s) := by
  unfold run
  exact if_pos h

theorem run_eq_of_selected_ne_nil (hsome : catalog.selected chosen ≠ []) :
    catalog.run setting chosen s =
      ((setting.runSuites (Category.selection chosen) (catalog.selectedSuites chosen) s).1.mapError
        .io,
      (setting.runSuites (Category.selection chosen) (catalog.selectedSuites chosen) s).2) := by
  have hsome' : (catalog.selectedSuites chosen).flatMap Suite.fixtures ≠ [] := hsome
  unfold run
  dsimp only
  rw [if_neg hsome', ExceptT.run]
  rcases setting.runSuites (Category.selection chosen) (catalog.selectedSuites chosen) s with
    ⟨_ | _, s'⟩ <;> rfl

-- A run with something to do comes to its result when all its steps can be carried out.
theorem run_of_carryOut_ok (hsome : catalog.selected chosen ≠ [])
    (h : setting.carryOut (catalog.steps setting chosen s.world) s.trace = (.ok (), t)) :
    (catalog.run setting chosen s).1 = .ok (catalog.outcome setting chosen s.world) ∧
      (catalog.run setting chosen s).2 = t.withOpen
        ((catalog.selectedSuites chosen).foldl (fun _ _ => none) s.reporter.current) := by
  rw [run_eq_of_selected_ne_nil hsome, catalog.takes_runSuites.ends t h]
  exact ⟨rfl, rfl⟩

theorem run_of_carryOut_error {e : IoError} (hsome : catalog.selected chosen ≠ [])
    (h : setting.carryOut (catalog.steps setting chosen s.world) s.trace = (.error e, t)) :
    (catalog.run setting chosen s).1 = .error (.io e) ∧
      (catalog.run setting chosen s).2.trace = t := by
  obtain ⟨herror, htrace⟩ := catalog.takes_runSuites.breaks e t h
  rw [run_eq_of_selected_ne_nil hsome, herror]
  exact ⟨rfl, htrace⟩

-- A run with something to do leaves what its steps leave, whether or not they come to an end.
theorem trace_run (hsome : catalog.selected chosen ≠ []) :
    (catalog.run setting chosen s).2.trace =
      (setting.carryOut (catalog.steps setting chosen s.world) s.trace).2 := by
  rcases hsteps : setting.carryOut (catalog.steps setting chosen s.world) s.trace with ⟨e | _, t⟩
  · exact (run_of_carryOut_error hsome hsteps).2
  · rw [(run_of_carryOut_ok hsome hsteps).2]
    rfl

theorem filterMap_fixture?_steps (w : World σ) :
    (catalog.steps setting chosen w).filterMap RunStep.fixture? = catalog.selected chosen := by
  simp only [steps, openSteps, List.filterMap_append, Setting.filterMap_fixture?_logged,
    Setting.filterMap_fixture?_map_told, Setting.filterMap_fixture?_suitesSteps,
    Setting.filterMap_fixture?_saved, List.nil_append, List.append_nil]
  rfl

-- All that a run logs that comes to its end.
theorem filterMap_entry?_steps (w : World σ) :
    (catalog.steps setting chosen w).filterMap RunStep.entry? =
      .runStart setting.config.mode (Category.selection chosen)
          (catalog.selected chosen).length ::
        ((setting.accounts w (catalog.selectedSuites chosen)).flatMap Log.chapter ++
          [.runEnd (catalog.outcome setting chosen w).summary]) := by
  simp only [steps, openSteps, List.filterMap_append, Setting.filterMap_entry?_logged,
    Setting.filterMap_entry?_map_told, Setting.filterMap_entry?_suitesSteps,
    Setting.filterMap_entry?_saved, List.nil_append, List.append_nil]
  rfl

-- With the last step all is written that was logged, so nothing stood against that.
theorem allSound_of_carryOut_ok
    (h : setting.carryOut (catalog.steps setting chosen s.world) s.trace = (.ok (), t)) :
    Log.Book.AllSound s.log := by
  rw [steps, ← List.append_assoc] at h
  obtain ⟨t₁, hlogged, hsaved⟩ := setting.carryOut_append_eq_ok h
  have hcarried := Setting.carried_of_ok hlogged
  have hflush : Log.Book.flushIn t₁.log = .ok () := setting.flushIn_of_carryOut_saved hsaved
  refine hcarried.allSound_iff.mp (Log.Book.allSound_of_flushIn hflush fun book hbook hnone => ?_)
  rw [hcarried.log] at hbook
  obtain ⟨start, -, rfl⟩ := Option.map_eq_some_iff.mp hbook
  have hlength := congrArg List.length hnone
  rw [Log.Book.length_entries_addAll, List.filterMap_append, Setting.filterMap_entry?_logged,
    List.length_append] at hlength
  exact absurd hlength (by simp)

-- A run that came to its end carried out all its steps.
theorem run_eq_ok {r : CatalogRun} {s' : RunState σ}
    (h : catalog.run setting chosen s = (.ok r, s')) :
    r = catalog.outcome setting chosen s.world ∧
      setting.Carried (catalog.steps setting chosen s.world) s.trace s'.trace ∧
      Log.Book.AllSound s.log := by
  by_cases hsome : catalog.selected chosen = []
  · rw [run_eq_of_selected_eq_nil hsome] at h
    cases h
  · rcases hsteps : setting.carryOut (catalog.steps setting chosen s.world) s.trace with
      ⟨e | _, t⟩
    · have herror := (run_of_carryOut_error hsome hsteps).1
      rw [h] at herror
      cases herror
    · obtain ⟨hresult, hstate⟩ := run_of_carryOut_ok hsome hsteps
      rw [h] at hresult hstate
      cases hresult
      cases hstate
      exact ⟨rfl, Setting.carried_of_ok hsteps, allSound_of_carryOut_ok hsteps⟩

-- A run with something to do comes to its end when nothing that it says or logs is lost.
theorem exists_run_eq_ok (hhealthy : s.Healthy) (hsome : catalog.selected chosen ≠ []) :
    ∃ r s', catalog.run setting chosen s = (.ok r, s') := by
  obtain ⟨t, hsteps⟩ := setting.exists_carryOut_eq_ok (t := s.trace)
    (catalog.steps setting chosen s.world) hhealthy.log hhealthy.console
  obtain ⟨hresult, -⟩ := run_of_carryOut_ok hsome hsteps
  exact ⟨_, _, Prod.ext hresult rfl⟩

-- A catalog that is run to its end leaves the world of its selected fixtures, run one after
-- the other.
theorem run_world (catalog : Catalog) (setting : Setting σ) (chosen : List Category)
    (s : RunState σ) :
    ∃ done, done <+: catalog.selected chosen ∧
      (catalog.run setting chosen s).2.world = setting.after s.world done ∧
      ∀ r, (catalog.run setting chosen s).1 = .ok r → done = catalog.selected chosen := by
  by_cases hsome : catalog.selected chosen = []
  · rw [run_eq_of_selected_eq_nil hsome]
    exact ⟨[], List.nil_prefix, rfl, nofun⟩
  · have hall : (catalog.steps setting chosen s.world).filterMap RunStep.fixture? =
        catalog.selected chosen := filterMap_fixture?_steps s.world
    rcases hsteps : setting.carryOut (catalog.steps setting chosen s.world) s.trace with
      ⟨e | _, t⟩
    · obtain ⟨herror, htrace⟩ := run_of_carryOut_error hsome hsteps
      obtain ⟨done, step, rest, t₁, hsplit, hdone, hfault⟩ := Setting.carryOut_eq_error hsteps
      have hworld : (catalog.run setting chosen s).2.world = t₁.world :=
        (congrArg RunTrace.world htrace).trans (Setting.world_of_carry_eq_error hfault)
      refine ⟨done.filterMap RunStep.fixture?, ?_, ?_, ?_⟩
      · rw [← hall, hsplit]
        exact (List.prefix_append done _).filterMap _
      · exact hworld.trans (Setting.carried_of_ok hdone).world
      · intro r hr
        rw [hr] at herror
        cases herror
    · obtain ⟨-, hstate⟩ := run_of_carryOut_ok hsome hsteps
      refine ⟨_, List.prefix_refl _, ?_, fun _ _ => rfl⟩
      rw [hstate, ← hall]
      exact (Setting.carried_of_ok hsteps).world

end Catalog

end Conformance
