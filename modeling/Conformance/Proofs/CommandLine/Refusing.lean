import Conformance.Proofs.Catalog.Totals
import Conformance.Proofs.CommandLine.Indexing
import Conformance.Proofs.Files.Opening

namespace Conformance.CommandLine

section Idle

variable {σ : Type}

-- What is read leaves all as it was.
theorem keeps_effectiveConfig (host : Host) (a : RunArguments) :
    Keeps id (effectiveConfig host a : Performing σ Config) := by
  refine Keeps.bind ?_ fun c => (keeps_orFail _ _).bind fun c => (keeps_consult _ _).bind
    fun here => keeps_pure _
  unfold loadConfig
  split
  · exact keeps_pure _
  · exact (keeps_consult _ _).bind fun text => keeps_orFail _ _

theorem keeps_loadCatalog (host : Host) (path : Option Path) :
    Keeps id (loadCatalog host path : Performing σ Catalog) := by
  unfold loadCatalog
  split
  · exact keeps_pure _
  · exact (keeps_consult _ _).bind fun text => keeps_orFail _ _

theorem keeps_reportPaths (path : Option Path) :
    Keeps id (reportPaths path : Performing σ (Option (Path × Path))) := by
  unfold reportPaths
  split
  · exact keeps_pure _
  · split
    · exact keeps_pure _
    · exact keeps_throw _

end Idle

-- A run that is refused: one of its inputs or outputs is not accepted, or nothing is selected.
def Failure.IsRefusal (e : Failure) : Prop :=
  e.IsCheck ∨ e = .run .nothingToRun

theorem Failure.IsLoss.not_isRefusal {e : Failure} (h : e.IsLoss) : ¬e.IsRefusal := by
  rintro (hcheck | rfl)
  · cases e <;> contradiction
  · exact h

section Checking

variable {σ : Type} (station : Station σ) (a : RunArguments)

-- What is settled by looking at the arguments and at the files only.
def checked (host : Host) : Performing σ Plan := do
  let config ← effectiveConfig host a
  let report ← reportPaths a.report
  let catalog ← loadCatalog host a.catalog
  pure { config, report, catalog, log := none }

-- What is left then is to open the log.
def Plan.opening (host : Host) (plan : Plan) : Performing σ Plan := do
  tellLine ["Running WACC fixtures from ", plan.config.fixtureRoot, " with ",
    plan.config.toolchain.compiler, "\n"]
  let log ← a.log.mapM (openFile host)
  pure { plan with log }

theorem prepare_eq :
    prepare station a = checked a station.host >>= Plan.opening a station.host := by
  simp only [prepare, checked, Plan.opening, bind_assoc, pure_bind]

theorem keeps_checked (host : Host) : Keeps id (checked a host : Performing σ Plan) :=
  (keeps_effectiveConfig host a).bind fun _ => (keeps_reportPaths a.report).bind fun _ =>
    (keeps_loadCatalog host a.catalog).bind fun _ => keeps_pure _

theorem failsOnly_checked (host : Host) :
    FailsOnly (fun e => e.IsCheck ∨ e.IsLoss) (checked a host : Performing σ Plan) := by
  refine (failsOnly_effectiveConfig host a).bind fun _ => ?_
  refine ((failsOnly_reportPaths a.report).mono fun _ => .inl).bind fun _ => ?_
  exact ((failsOnly_loadCatalog host a.catalog).mono fun _ => .inl).bind fun _ => failsOnly_pure _

theorem failsOnly_opening (host : Host) (plan : Plan) :
    FailsOnly Failure.IsLoss (plan.opening a host : Performing σ Plan) :=
  (failsOnly_tellLine _).bind fun _ => (failsOnly_openLog host a.log).bind fun _ =>
    failsOnly_pure _

end Checking

section Refused

variable {σ : Type} {station : Station σ} {a : RunArguments} {plan : Plan} {s s' s₁ : Terminal σ}
  {e : Failure}

-- Without a fixture, a run asks nothing of the tools, and its log stays as it was opened.
theorem run_plan_of_nothing (station : Station σ) (s : Terminal σ)
    (hnone : plan.catalog.selected a.categories = []) :
    (plan.run station a).run s = (.error (.run .nothingToRun), s) := by
  rw [run_plan, Plan.ended, Catalog.run_eq_of_selected_eq_nil hnone]
  cases plan.log <;> simp [Except.mapError, closeBook, openBook, Log.Book.opened]

theorem failsOnly_run_plan (station : Station σ)
    (hsome : plan.catalog.selected a.categories ≠ []) :
    FailsOnly (¬Failure.IsRefusal ·) (plan.run station a) := by
  intro s e s' h
  have hended : (plan.ended station a s).1 ≠ .error .nothingToRun :=
    Catalog.run_ne_nothingToRun hsome
  rw [run_plan] at h
  cases hresult : (plan.ended station a s).1 with
  | ok done =>
      rw [hresult] at h
      cases h
  | error cause =>
      rw [hresult] at h hended
      cases h
      rintro (hcheck | hnothing)
      · exact hcheck
      · cases hnothing
        exact hended rfl

-- A run fails with a refusal in its checks, or when nothing is selected.
theorem refusal_cases (h : (run station a).run s = (.error e, s')) (he : e.IsRefusal) :
    (checked a station.host).run s = (.error e, s') ∨
      ∃ plan, (prepare station a).run s = (.ok plan, s') ∧
        plan.catalog.selected a.categories = [] ∧ e = .run .nothingToRun := by
  have hnotLoss : ¬e.IsLoss := fun hloss => hloss.not_isRefusal he
  rw [run_eq] at h
  rcases bind_eq_error h with h | ⟨x, s₂, -, hconclude⟩
  · rcases bind_eq_error h with h | ⟨plan, s₁, hprepare, h⟩
    · rw [prepare_eq] at h
      rcases bind_eq_error h with h | ⟨plan, s₁, -, hopening⟩
      · exact .inl h
      · exact absurd (failsOnly_opening a station.host plan s₁ e s' hopening) hnotLoss
    · rcases bind_eq_error h with h | ⟨done, s₂, -, houtputs⟩
      · by_cases hnone : plan.catalog.selected a.categories = []
        · rw [run_plan_of_nothing station s₁ hnone] at h
          cases h
          exact .inr ⟨plan, hprepare, hnone, rfl⟩
        · exact absurd he (failsOnly_run_plan station hnone s₁ e s' h)
      · exact absurd (failsOnly_outputs station a plan done s₂ e s' houtputs) hnotLoss
  · refine absurd he (failsOnly_conclude a x.1 (fun _ h => h.not_isRefusal) ?_ s₂ e s' hconclude)
    rintro n (hcheck | hnothing)
    · exact hcheck
    · cases hnothing

theorem run_of_checked_error (h : (checked a station.host).run s = (.error e, s')) :
    (run station a).run s = (.error e, s') := by
  rw [run_eq]
  refine run_bind_of_error (run_bind_of_error ?_)
  rw [prepare_eq]
  exact run_bind_of_error h

theorem run_of_nothing (h : (prepare station a).run s = (.ok plan, s₁))
    (hnone : plan.catalog.selected a.categories = []) :
    (run station a).run s = (.error (.run .nothingToRun), s₁) := by
  rw [run_eq]
  refine run_bind_of_error ?_
  rw [indexed, run_bind_of_ok h]
  exact run_bind_of_error (run_plan_of_nothing station s₁ hnone)

-- Before a run, only the log is opened.
theorem world_of_prepare (h : (prepare station a).run s = (.ok plan, s₁)) :
    s₁.world.tools = s.world.tools ∧
      ((a.log = none ∧ plan.log = none ∧ s₁.world.files = s.world.files) ∨
        ∃ path place, a.log = some path ∧ plan.log = some place ∧
          (s.world.files.makeParent station.host.cwd path).2.openForWriting station.host.cwd path =
            .ok (place, s₁.world.files)) := by
  rw [prepare_eq] at h
  obtain ⟨plan₀, s₀, hchecked, hopening⟩ := bind_eq_ok h
  have hstate := keeps_checked a station.host s
  rw [hchecked] at hstate
  obtain rfl : s₀ = s := hstate
  obtain ⟨_, s₂, htold, hopening⟩ := bind_eq_ok hopening
  obtain ⟨log, s₃, hlog, hopening⟩ := bind_eq_ok hopening
  have hworld : s₂.world = s₀.world := by rw [(tellLine_eq_ok_iff.mp htold).2]
  cases hopening
  rw [← hworld]
  cases hpath : a.log with
  | none =>
      rw [hpath] at hlog
      cases hlog
      exact ⟨rfl, .inl ⟨rfl, rfl, rfl⟩⟩
  | some path =>
      rw [hpath] at hlog
      obtain ⟨place, s₄, hopen, hlog⟩ := bind_eq_ok hlog
      cases hlog
      obtain ⟨_, s₅, hparent, hopened⟩ := bind_eq_ok hopen
      refine ⟨?_, .inr ⟨path, place, rfl, rfl, (openFile_eq_ok hopen).2⟩⟩
      rw [tools_of_change hopened, tools_of_change hparent]

end Refused

-- A run that is refused asks nothing of the tools, for it comes to the same whatever they
-- do. It leaves the files as they are, unless it finds nothing selected with a log open that
-- was not an empty file before.
theorem refused_run_harmless_iff {σ : Type} (station : Station σ) (a : RunArguments)
    (s s' : Terminal σ) (e : Failure) (h : (run station a).run s = (.error e, s'))
    (he : e.IsRefusal) :
    (∀ invoker, (run { station with invoker } a).run s = (.error e, s')) ∧
    s'.world.tools = s.world.tools ∧
    ((∀ q, s'.world.files.node? q = s.world.files.node? q) ↔
      (e = .run .nothingToRun → ∀ path ∈ a.log, s.world.files.Holds station.host.cwd path [])) := by
  rcases refusal_cases h he with hchecked | ⟨plan, hprepare, hnone, rfl⟩
  · have hstate := keeps_checked a station.host s
    rw [hchecked] at hstate
    obtain rfl : s' = s := hstate
    refine ⟨fun invoker => run_of_checked_error hchecked, rfl, iff_of_true (fun _ => rfl) ?_⟩
    rintro rfl
    rcases failsOnly_checked a station.host _ _ _ hchecked with hcheck | hloss
    · exact absurd hcheck id
    · exact absurd hloss id
  · obtain ⟨htools, hlog⟩ := world_of_prepare hprepare
    refine ⟨fun invoker => run_of_nothing hprepare hnone, htools, ?_⟩
    · simp only [forall_const]
      rcases hlog with ⟨hpath, -, hfiles⟩ | ⟨path, place, hpath, -, hopen⟩
      · rw [hfiles, hpath]
        exact iff_of_true (fun _ => rfl) nofun
      · constructor
        · intro hsame path' hpath'
          rw [hpath] at hpath'
          cases hpath'
          exact (Tree.wrote_openForWriting hopen).holds.of_node?_eq fun q => (hsame q).symm
        · intro hholds q
          obtain ⟨found, hfound, hstands⟩ := hholds path hpath
          rw [Tree.makeParent_of_locate hfound] at hopen
          exact Tree.node?_openForWriting_of_holds ⟨found, hfound, hstands⟩ hopen q

-- A choice without a fixture, for which a log is to be kept.
def nothingChosen : RunArguments :=
  { catalog := some "k.json", categories := [.semanticInvalid], log := some "l.jsonl"
    report := some "r.md" }

-- A report that is its own twin.
def twinReport : RunArguments :=
  { nothingChosen with report := some "r.json" }

-- A catalog beside a log that is there already.
def afterRun : Terminal Unit :=
  { world := ⟨catalogOnly.set ["l.jsonl"] (.file (Text.bytesOf "yesterday's lines\n") false), ()⟩ }

-- What a run failed with.
def failure? : Except Failure Unit → Option Failure
  | .ok _ => none
  | .error e => some e

def Failure.isTwin : Failure → Bool
  | .reportIsTwin _ => true
  | _ => false

def Failure.isNothing : Failure → Bool
  | .run .nothingToRun => true
  | _ => false

theorem twin_report_harmless :
    ∃ e s', (run succeeding twinReport).run afterRun = (.error e, s') ∧ e.IsRefusal ∧
      ∀ q, s'.world.files.node? q = afterRun.world.files.node? q := by
  have hrefused : (failure? ((run succeeding twinReport).run afterRun).1).any Failure.isTwin =
      true := by
    decide +kernel
  rcases hrun : (run succeeding twinReport).run afterRun with ⟨e | _, s'⟩
  · rw [hrun] at hrefused
    cases e with
    | reportIsTwin path =>
        obtain ⟨-, -, hfiles⟩ :=
          refused_run_harmless_iff succeeding twinReport afterRun s' _ hrun (.inl trivial)
        exact ⟨_, s', rfl, .inl trivial, hfiles.mpr nofun⟩
    | _ => cases hrefused
  · rw [hrun] at hrefused
    cases hrefused

-- The log of another run is lost although nothing is run.
theorem nothing_chosen_empties_log :
    (failure? ((run succeeding nothingChosen).run afterRun).1).any Failure.isNothing = true ∧
    afterRun.world.files.node? ["l.jsonl"] =
      some (.file (Text.bytesOf "yesterday's lines\n") false) ∧
    ((run succeeding nothingChosen).run afterRun).2.world.files.node? ["l.jsonl"] =
      some (.file [] false) := by
  decide +kernel

end Conformance.CommandLine
