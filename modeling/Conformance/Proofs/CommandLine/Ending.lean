import Conformance.Proofs.CommandLine.Performing

namespace Conformance.CommandLine

open Log

section Failing

variable {σ : Type}

-- A file that is read and decoded, as the configuration and the catalog are.
theorem failsOnly_load {α ε : Type} (wrap : ε → Failure) (hwrap : ∀ e, (wrap e).IsCheck)
    (ask : Tree → Except IoError String) (decode : String → Except ε α) :
    FailsOnly Failure.IsCheck (do
      let text ← consult .unreadable ask
      orFail wrap (decode text) : Performing σ α) :=
  (failsOnly_consult (fun _ => trivial) ask).bind fun _ =>
    failsOnly_orFail fun e _ => hwrap e

-- The directory that the program is in may be gone.
theorem failsOnly_effectiveConfig (host : Host) (a : RunArguments) :
    FailsOnly (fun e => e.IsCheck ∨ e.IsLoss) (effectiveConfig host a : Performing σ Config) := by
  have hload : FailsOnly Failure.IsCheck (loadConfig host a.config : Performing σ Config) := by
    unfold loadConfig
    split
    · exact failsOnly_pure _
    · exact failsOnly_load .config (fun _ => trivial) _ _
  refine (hload.mono fun _ => .inl).bind fun c => ?_
  refine (failsOnly_orFail fun _ _ => .inl trivial).bind fun c => ?_
  exact (failsOnly_consult (fun _ => .inr trivial) _).bind fun here => failsOnly_pure _

theorem failsOnly_loadCatalog (host : Host) (path : Option Path) :
    FailsOnly Failure.IsCheck (loadCatalog host path : Performing σ Catalog) := by
  unfold loadCatalog
  split
  · exact failsOnly_pure _
  · exact failsOnly_load .catalog (fun _ => trivial) _ _

theorem failsOnly_reportPaths (path : Option Path) :
    FailsOnly Failure.IsCheck (reportPaths path : Performing σ (Option (Path × Path))) := by
  unfold reportPaths
  split
  · exact failsOnly_pure _
  · split
    · exact failsOnly_pure _
    · intro s e s' h
      cases h
      trivial

theorem failsOnly_openLog (host : Host) (log : Option Path) :
    FailsOnly Failure.IsLoss (log.mapM (openFile host) : Performing σ (Option Place)) := by
  cases log with
  | none => exact failsOnly_pure _
  | some path => exact (failsOnly_openFile host path).bind fun place => failsOnly_pure _

theorem failsOnly_runSelected (station : Station σ) (c : Config) (catalog : Catalog)
    (a : RunArguments) (runId : String) (log : Option Place) :
    FailsOnly Failure.IsRun (runSelected station c catalog a runId log) := by
  unfold runSelected
  refine FailsOnly.bind (fun _ _ _ => nofun) fun s => ?_
  dsimp only
  exact FailsOnly.bind (fun _ _ _ => nofun) fun _ => failsOnly_orFail fun _ _ => trivial

theorem failsOnly_indexLog (host : Host) (index : ArtifactIndex) (log : Option Path) :
    FailsOnly Failure.IsLoss (indexLog host index log : Performing σ ArtifactIndex) := by
  cases log with
  | none => exact failsOnly_pure _
  | some path => exact failsOnly_withArtifact _ _ _ _

theorem failsOnly_writeReport (host : Host) (done : CatalogRun) (index : ArtifactIndex)
    (report : Option (Path × Path)) :
    FailsOnly Failure.IsLoss (writeReport host done index report : Performing σ ArtifactIndex) := by
  cases report with
  | none => exact failsOnly_pure _
  | some paths =>
      refine (failsOnly_writeFile _ _ _).bind fun _ => (failsOnly_writeFile _ _ _).bind fun _ => ?_
      refine (failsOnly_withArtifact _ _ _ _).bind fun index => ?_
      refine (failsOnly_withArtifact _ _ _ _).bind fun index => ?_
      exact (failsOnly_tellLine _).bind fun _ => failsOnly_pure _

theorem failsOnly_writeIndex (host : Host) (index : ArtifactIndex) (path : Option Path) :
    FailsOnly Failure.IsLoss (writeIndex host index path : Performing σ Unit) := by
  cases path with
  | none => exact failsOnly_pure _
  | some path => exact failsOnly_writeFile _ _ _

end Failing

section Ends

variable {σ : Type} (station : Station σ) (a : RunArguments)

-- What is settled before a run: how and what it runs, and where its outputs go.
structure Plan where
  config : Config
  report : Option (Path × Path)
  catalog : Catalog
  log : Option Place

def prepare : Performing σ Plan := do
  let config ← effectiveConfig station.host a
  let report ← reportPaths a.report
  let catalog ← loadCatalog station.host a.catalog
  tellLine ["Running WACC fixtures from ", config.fixtureRoot, " with ",
    config.toolchain.compiler, "\n"]
  let log ← a.log.mapM (openFile station.host)
  pure { config, report, catalog, log }

def Plan.run (plan : Plan) : Performing σ CatalogRun :=
  runSelected station plan.config plan.catalog a (a.runId.getD station.defaultRunId) plan.log

def emptyIndex : ArtifactIndex :=
  { runId := a.runId.getD station.defaultRunId, generated := station.host.clock 0 }

-- A run up to the point where its artifact index is written.
def indexed : Performing σ (CatalogRun × ArtifactIndex) := do
  let plan ← prepare station a
  let done ← plan.run station a
  let index ← indexLog station.host (emptyIndex station a) a.log
  let index ← writeReport station.host done index plan.report
  writeIndex station.host index a.artifactIndex
  pure (done, index)

theorem run_eq : run station a = indexed station a >>= fun x => conclude a x.1 := by
  simp only [run, indexed, prepare, Plan.run, emptyIndex, bind_assoc, pure_bind]

-- What a run may fail with before its artifact index is written.
def Failure.IsEarly (e : Failure) : Prop :=
  e.IsCheck ∨ e.IsRun ∨ e.IsLoss

theorem failsOnly_prepare :
    FailsOnly (fun e => e.IsCheck ∨ e.IsLoss) (prepare station a) := by
  refine (failsOnly_effectiveConfig station.host a).bind fun c => ?_
  refine ((failsOnly_reportPaths a.report).mono fun _ => .inl).bind fun report => ?_
  refine ((failsOnly_loadCatalog station.host a.catalog).mono fun _ => .inl).bind fun catalog => ?_
  refine ((failsOnly_tellLine _).mono fun _ => .inr).bind fun _ => ?_
  exact ((failsOnly_openLog station.host a.log).mono fun _ => .inr).bind fun log =>
    failsOnly_pure _

-- Behind the run, something may be lost that is written, read again or said.
theorem failsOnly_outputs (plan : Plan) (done : CatalogRun) :
    FailsOnly Failure.IsLoss (do
      let index ← indexLog station.host (emptyIndex station a) a.log
      let index ← writeReport station.host done index plan.report
      writeIndex station.host index a.artifactIndex
      pure (done, index) : Performing σ (CatalogRun × ArtifactIndex)) := by
  refine (failsOnly_indexLog _ _ _).bind fun index => ?_
  refine (failsOnly_writeReport _ _ _ _).bind fun index => ?_
  exact (failsOnly_writeIndex _ _ _).bind fun _ => failsOnly_pure _

theorem failsOnly_indexed : FailsOnly Failure.IsEarly (indexed station a) := by
  refine ((failsOnly_prepare station a).mono fun _ h => ?_).bind fun plan => ?_
  · exact h.imp_right .inr
  · refine ((failsOnly_runSelected station _ _ a _ _).mono fun _ h => .inr (.inl h)).bind
      fun done => ?_
    exact (failsOnly_outputs station a plan done).mono fun _ h => .inr (.inr h)

theorem failsOnly_conclude (done : CatalogRun) {P : Failure → Prop} (hloss : ∀ e, e.IsLoss → P e)
    (hfailed : ∀ n, P (.fixturesFailed n)) :
    FailsOnly P (conclude a done : Performing σ Unit) := by
  have htold (texts : List String) : FailsOnly P (tellLine texts : Performing σ Unit) :=
    (failsOnly_tellLine texts).mono hloss
  have hindex : FailsOnly P (a.artifactIndex.forM fun path =>
      tellLine ["Artifact index written to ", path, "\n"] : Performing σ Unit) := by
    cases a.artifactIndex with
    | none => exact failsOnly_pure _
    | some path => exact htold ["Artifact index written to ", path, "\n"]
  refine hindex.bind fun _ => (htold _).bind fun _ => ?_
  split_ifs
  · exact failsOnly_pure _
  · intro s e s' h
    cases h
    exact hfailed _

-- A run that comes to the count of what passed, so that its outputs are complete.
def reachesEnd : Except Failure Unit → Bool
  | .ok _ => true
  | .error (.fixturesFailed _) => true
  | .error _ => false

-- What is said at the end changes nothing else, whether or not it gets out.
theorem keeps_conclude (done : CatalogRun) :
    Keeps Terminal.world (conclude a done : Performing σ Unit) := by
  have hindex : Keeps Terminal.world (a.artifactIndex.forM fun path =>
      tellLine ["Artifact index written to ", path, "\n"] : Performing σ Unit) := by
    cases a.artifactIndex with
    | none => exact keeps_pure _
    | some path => exact keeps_tellLine ["Artifact index written to ", path, "\n"]
  refine hindex.bind fun _ => (keeps_tellLine _).bind fun _ => ?_
  split_ifs
  · exact keeps_pure _
  · exact keeps_throw _

theorem world_of_indexed {s s' : Terminal σ} {done : CatalogRun} {index : ArtifactIndex}
    (h : (indexed station a).run s = (.ok (done, index), s')) :
    ((run station a).run s).2.world = s'.world := by
  rw [run_eq, run_bind_of_ok h]
  exact keeps_conclude a done s'

-- The runs that come to their end get as far as their artifact index, for no failure before is
-- taken for one at the end.
theorem exists_indexed_of_reachesEnd {s : Terminal σ}
    (h : reachesEnd ((run station a).run s).1 = true) :
    ∃ done index s', (indexed station a).run s = (.ok (done, index), s') := by
  rw [run_eq, run_bind] at h
  split at h
  · rename_i found s' hindexed
    exact ⟨found.1, found.2, s', hindexed⟩
  · rename_i e s' hindexed
    have hearly := failsOnly_indexed station a s e s' hindexed
    cases e with
    | fixturesFailed n => rcases hearly with hcheck | hrun | hloss <;> contradiction
    | _ => cases h

end Ends

section Plans

variable {σ : Type} {station : Station σ} {a : RunArguments}

-- A report and its twin, where they do not collide.
def RunArguments.reportPaths? (a : RunArguments) : Option (Path × Path) :=
  a.report.bind fun path => (twinPath? path).map fun twin => (path, twin)

theorem reportPaths_eq_ok {s s' : Terminal σ} {report : Option (Path × Path)}
    (h : (reportPaths a.report).run s = (.ok report, s')) :
    s' = s ∧ report = a.reportPaths? := by
  unfold reportPaths at h
  unfold RunArguments.reportPaths?
  split at h
  · rename_i hnone
    cases h
    exact ⟨rfl, by rw [hnone]; rfl⟩
  · rename_i path hpath
    rw [hpath, Option.bind_some]
    split at h
    · rename_i twin htwin
      cases h
      exact ⟨rfl, by rw [htwin]; rfl⟩
    · cases h

theorem report_of_prepare {s s' : Terminal σ} {plan : Plan}
    (h : (prepare station a).run s = (.ok plan, s')) : plan.report = a.reportPaths? := by
  obtain ⟨_, _, -, h⟩ := bind_eq_ok h
  obtain ⟨_, _, hreport, h⟩ := bind_eq_ok h
  obtain ⟨_, _, -, h⟩ := bind_eq_ok h
  obtain ⟨_, _, -, h⟩ := bind_eq_ok h
  obtain ⟨_, _, -, h⟩ := bind_eq_ok h
  cases h
  exact (reportPaths_eq_ok hreport).2

-- The run that a plan is for, with its log where one is wanted.
def Plan.ended (plan : Plan) (station : Station σ) (a : RunArguments) (s : Terminal σ) :
    Except RunError CatalogRun × RunState σ :=
  plan.catalog.run ⟨station.host, plan.config, station.invoker⟩ a.categories {
    world := s.world
    reporter := { console := s.out }
    log := plan.log.map
      (openBook station.host (a.runId.getD station.defaultRunId) s.world.files) }

-- Whatever a run comes to, its log is closed behind it.
theorem run_plan (plan : Plan) (s : Terminal σ) :
    (plan.run station a).run s = ((plan.ended station a s).1.mapError .run, { s with
      world := { (plan.ended station a s).2.world with
        files := closeBook plan.log (plan.ended station a s).2.log
          (plan.ended station a s).2.world.files }
      out := (plan.ended station a s).2.reporter.console }) := by
  have horFail (result : Except RunError CatalogRun) (s : Terminal σ) :
      (orFail .run result : Performing σ CatalogRun).run s = (result.mapError .run, s) := by
    cases result <;> rfl
  have hget : (get : Performing σ (Terminal σ)).run s = (.ok s, s) := rfl
  have hset (s₁ : Terminal σ) : (set s₁ : Performing σ Unit).run s = (.ok (), s₁) := rfl
  unfold Plan.run runSelected
  rw [run_bind_of_ok hget]
  dsimp only
  rw [run_bind_of_ok (hset _), horFail]
  rfl

theorem run_plan_eq_ok_iff {plan : Plan} {s s' : Terminal σ} {done : CatalogRun} :
    (plan.run station a).run s = (.ok done, s') ↔ (plan.ended station a s).1 = .ok done ∧
      s' = { s with
        world := { (plan.ended station a s).2.world with
          files := closeBook plan.log (plan.ended station a s).2.log
            (plan.ended station a s).2.world.files }
        out := (plan.ended station a s).2.reporter.console } := by
  rw [run_plan, Prod.mk.injEq]
  cases (plan.ended station a s).1 <;> simp [Except.mapError, eq_comm]

theorem readBytes_of_run_plan {plan : Plan} {s s' : Terminal σ} {done : CatalogRun}
    {place cwd : Place} {book : Book} {path : Path}
    (h : (plan.run station a).run s = (.ok done, s')) (hplace : plan.log = some place)
    (hbook : (plan.ended station a s).2.log = some book) (hsound : book.fault? = none)
    (hentries : book.entries ≠ []) (hfile : s'.world.files.fileOf? cwd path = some place)
    (hslash : Path.endsWithSlash path = false) :
    ∃ rest, s'.world.files.readBytes cwd path = .ok (Text.bytesOf book.text ++ rest) := by
  obtain ⟨hlocate, data, executable, hdata⟩ := Tree.fileOf?_eq_some_iff.mp hfile
  have hread := Tree.readBytes_eq_of_node? hlocate hdata hslash
  obtain ⟨-, rfl⟩ := run_plan_eq_ok_iff.mp h
  simp only [closeBook, hplace, hbook, hsound] at hdata
  rw [if_neg (by simpa using hentries)] at hdata
  obtain ⟨rest, rfl⟩ := Tree.exists_of_node?_writeAt hdata
  exact ⟨rest, hread⟩

end Plans

end Conformance.CommandLine
