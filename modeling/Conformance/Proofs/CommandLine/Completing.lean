import Conformance.Proofs.Catalog.Logged
import Conformance.Proofs.CommandLine.Delivering
import Conformance.Proofs.CommandLine.Refusing

namespace Conformance.CommandLine

open Log

section Course

variable {σ : Type}

-- What is read under a path and accepted, or what stands for it when there is no path.
def Loads {α ε : Type} (host : Host) (t : Tree) (decode : String → Except ε α) (builtin : α) :
    Option Path → α → Prop
  | none, found => found = builtin
  | some path, found => ∃ text, t.readText host.cwd path = .ok text ∧ decode text = .ok found

def OpensLog (host : Host) : Option Path → Option Place → Tree → Tree → Prop
  | none, none, t, t' => t' = t
  | some path, some place, t, t' => Opens host path place t t'
  | _, _, _, _ => False

-- The text of a log goes into the file that was opened for it, if that takes what is written.
def FillsLog (host : Host) (text : String) (opened : Tree) : Option Place → Tree → Tree → Prop
  | none, t, t' => t' = t
  | some place, t, t' =>
      host.failure? place opened = none ∧ t' = t.writeAt place 0 (Text.bytesOf text)

namespace Plan

variable (plan : Plan) (station : Station σ) (a : RunArguments) (w : World σ)

def setting : Setting σ :=
  ⟨station.host, plan.config, station.invoker⟩

-- What the fixtures of a plan bring when they are run from some world on.
def outcome : CatalogRun :=
  plan.catalog.outcome (plan.setting station) a.categories w

def verdicts : List Verdict :=
  (plan.setting station).verdicts w (plan.catalog.selected a.categories)

def after : World σ :=
  (plan.setting station).after w (plan.catalog.selected a.categories)

-- What is told of their progress.
def progress : List Output :=
  (plan.catalog.steps (plan.setting station) a.categories w).filterMap RunStep.output?

def book : Book :=
  (Book.opened logSuite (a.runId.getD station.defaultRunId)).addAll station.host.clock
    (plan.catalog.entriesOf (plan.setting station) a.categories w)

-- The report on them.
def account : Report :=
  (plan.outcome station a w).report runTitle (station.host.clock 0)

end Plan

-- All inputs of a run are accepted, and its log is open.
structure Prepares (station : Station σ) (a : RunArguments) (w : World σ) (plan : Plan)
    (opened : World σ) : Prop where
  -- it is sound as it is read, and once more under the arguments
  config : ∃ c here, Loads station.host w.files Config.ofJson {} a.config c ∧
    (a.override c).flaw? = none ∧ station.host.currentDirectory w.files = .ok here ∧
    plan.config = (a.override c).resolve here
  twin : ∀ path ∈ a.report, (twinPath? path).isSome
  report : plan.report = a.reportPaths?
  catalog : Loads station.host w.files Catalog.ofJson Builtin.catalog a.catalog plan.catalog
  log : OpensLog station.host a.log plan.log w.files opened.files
  tools : opened.tools = w.tools

-- A run with something to do, whose log gets into its file.
structure Plan.Runs (plan : Plan) (station : Station σ) (a : RunArguments) (w : World σ)
    (logged : Tree) : Prop where
  selected : plan.catalog.selected a.categories ≠ []
  log : FillsLog station.host (plan.book station a w).text w.files plan.log
    (plan.after station a w).files logged

def reportTexts (r : Report) : Option (Path × Path) → List (Path × String)
  | none => []
  | some (path, twin) => [(path, r.markdown), (twin, r.toJson)]

def indexTexts (index : ArtifactIndex) (path : Option Path) : List (Path × String) :=
  path.toList.map fun path => (path, index.toJson)

-- What a run comes by on its way: its plan, the world when it starts, and the files as each
-- of its outputs came to be there.
structure Course (σ : Type) where
  plan : Plan
  opened : World σ
  logged : Tree
  reported : Tree
  final : Tree
  index : ArtifactIndex

-- A run that is accepted and has something to do, and no write of a file fails.
structure Unhindered (station : Station σ) (a : RunArguments) (w : World σ) (c : Course σ) :
    Prop where
  prepares : Prepares station a w c.plan c.opened
  runs : c.plan.Runs station a c.opened c.logged
  reported : DeliversAll station.host
    (reportTexts (c.plan.account station a c.opened) a.reportPaths?) c.logged c.reported
  final : DeliversAll station.host (indexTexts c.index a.artifactIndex) c.reported c.final

-- The log and the reports can also be read again, for their digests.
structure Completes (station : Station σ) (a : RunArguments) (w : World σ) (c : Course σ) : Prop
    extends Unhindered station a w c where
  index : ∃ entries more, c.index = { emptyIndex station a with artifacts := entries ++ more } ∧
    Covers entries (logOutputs a.log) c.logged station.host.cwd ∧
    Covers more (reportOutputs a.reportPaths?) c.reported station.host.cwd

-- What is said of a run beside its progress.
def startTexts (c : Config) : List String :=
  ["Running WACC fixtures from ", c.fixtureRoot, " with ", c.toolchain.compiler, "\n"]

def reportedTexts : Option (Path × Path) → List String
  | none => []
  | some (path, _) => ["Report written to ", path, "\n"]

def endTexts (a : RunArguments) (done : CatalogRun) : List String :=
  (match a.artifactIndex with
    | none => []
    | some path => ["Artifact index written to ", path, "\n"]) ++
  ["Passed ", toString done.summary.passed, "/", toString done.summary.total, " fixtures\n"]

-- All that a run says which completes.
def Course.said (c : Course σ) (station : Station σ) (a : RunArguments) : Said where
  out := c.plan.progress station a c.opened
  err := (startTexts c.plan.config ++ (reportedTexts a.reportPaths? ++
    endTexts a (c.plan.outcome station a c.opened))).map .text

-- Nothing that is said from the beginning on is lost.
structure Said.Heard (said : Said) (host : Host) : Prop where
  out : ∀ n < Console.tries said.out, host.stdoutFault? n = none
  err : ∀ n < Console.tries said.err, host.stderrFault? n = none

theorem Said.Told.heard {said : Said} {host : Host} {w : World σ} {s' : Terminal σ}
    (h : said.Told (Terminal.opened host w) s') : said.Heard host where
  out n hn := h.out.clear n (Nat.zero_le n) (Nat.lt_of_lt_of_eq hn (Nat.zero_add _).symm)
  err n hn := h.err.clear n (Nat.zero_le n) (Nat.lt_of_lt_of_eq hn (Nat.zero_add _).symm)

-- What a step can come to, it comes to when all gets out that it says.
theorem Speaks.exists_of_heard {α : Type} {x : Performing σ α}
    {S : World σ → α → Said → World σ → Prop} {host : Host} {w w' : World σ} {a : α} {said : Said}
    (hx : Speaks x S) (h : S w a said w') (hheard : said.Heard host) :
    ∃ s', x.run (.opened host w) = (.ok a, s') ∧ s'.world = w' := by
  refine ⟨⟨w', _, _⟩, (hx (.opened host w) a _).mpr ⟨said, h, Console.took_taking fun n _ hn => ?_,
    Console.took_taking fun n _ hn => ?_⟩, rfl⟩
  · exact hheard.out n (Nat.lt_of_lt_of_eq hn (Nat.zero_add _))
  · exact hheard.err n (Nat.lt_of_lt_of_eq hn (Nat.zero_add _))

theorem Said.heard_plain (said : Said) : said.Heard .plain :=
  ⟨fun _ _ => rfl, fun _ _ => rfl⟩

end Course

section Meaning

variable {σ : Type} (station : Station σ) (a : RunArguments)

theorem means_load {α ε : Type} (host : Host) (wrap : ε → Failure) (decode : String → Except ε α)
    (path : Path) : Means (do
      let text ← consult .unreadable fun t => t.readText host.cwd path
      orFail wrap (decode text) : Performing σ α) fun w found w' =>
        (∃ text, w.files.readText host.cwd path = .ok text ∧ decode text = .ok found) ∧ w' = w := by
  refine ((means_consult _ _).bind fun text => means_orFail wrap (decode text)).congr ?_
  intro w found w'
  constructor
  · rintro ⟨text, _, ⟨hread, rfl⟩, hdecode, rfl⟩
    exact ⟨⟨text, hread, hdecode⟩, rfl⟩
  · rintro ⟨⟨text, hread, hdecode⟩, rfl⟩
    exact ⟨text, w', ⟨hread, rfl⟩, hdecode, rfl⟩

theorem means_loadCatalog (host : Host) (path : Option Path) :
    Means (loadCatalog host path : Performing σ Catalog) fun w found w' =>
      Loads host w.files Catalog.ofJson Builtin.catalog path found ∧ w' = w := by
  cases path with
  | none => exact means_pure _
  | some path => exact means_load host .catalog Catalog.ofJson path

theorem means_loadConfig (host : Host) (path : Option Path) :
    Means (loadConfig host path : Performing σ Config) fun w found w' =>
      Loads host w.files Config.ofJson {} path found ∧ w' = w := by
  cases path with
  | none => exact means_pure _
  | some path => exact means_load host .config Config.ofJson path

theorem checked_eq_ok_iff {c c' : Config} : c.checked = .ok c' ↔ c.flaw? = none ∧ c' = c := by
  unfold Config.checked
  cases c.flaw? with
  | none => simp [eq_comm]
  | some flaw => simp

theorem means_effectiveConfig (host : Host) :
    Means (effectiveConfig host a : Performing σ Config) fun w settled w' =>
      (∃ c here, Loads host w.files Config.ofJson {} a.config c ∧ (a.override c).flaw? = none ∧
        host.currentDirectory w.files = .ok here ∧ settled = (a.override c).resolve here) ∧
      w' = w := by
  refine ((means_loadConfig host a.config).bind fun c => (means_orFail .config _).bind
    fun c' : Config => (means_consult .io host.currentDirectory).bind fun here =>
    means_pure (c'.resolve here)).congr fun w settled w' => ?_
  simp only [checked_eq_ok_iff]
  constructor
  · rintro ⟨c, _, ⟨hloads, rfl⟩, _, _, ⟨⟨hflaw, rfl⟩, rfl⟩, here, _, ⟨hhere, rfl⟩, rfl, rfl⟩
    exact ⟨⟨c, here, hloads, hflaw, hhere, rfl⟩, rfl⟩
  · rintro ⟨⟨c, here, hloads, hflaw, hhere, rfl⟩, rfl⟩
    exact ⟨c, w', ⟨hloads, rfl⟩, a.override c, w', ⟨⟨hflaw, rfl⟩, rfl⟩, here, w', ⟨hhere, rfl⟩,
      rfl, rfl⟩

theorem means_reportPaths :
    Means (reportPaths a.report : Performing σ (Option (Path × Path))) fun w paths w' =>
      ((∀ path ∈ a.report, (twinPath? path).isSome) ∧ paths = a.reportPaths?) ∧ w' = w := by
  unfold reportPaths RunArguments.reportPaths?
  cases a.report with
  | none => exact (means_pure none).congr fun _ _ _ => by simp
  | some path =>
      dsimp only
      cases htwin : twinPath? path with
      | none => exact (means_throw _).congr fun _ _ _ => by simp [htwin]
      | some twin => exact (means_pure _).congr fun _ _ _ => by simp [htwin]

theorem means_openLog (host : Host) (log : Option Path) :
    Means (log.mapM (openFile host) : Performing σ (Option Place)) fun w place w' =>
      OpensLog host log place w.files w'.files ∧ w'.tools = w.tools := by
  cases log with
  | none =>
      refine (means_pure none).congr fun w place w' => ?_
      cases place with
      | none =>
          simp only [OpensLog, true_and]
          exact ⟨fun h => ⟨congrArg World.files h, congrArg World.tools h⟩,
            fun ⟨hfiles, htools⟩ => by cases w; cases w'; simp_all⟩
      | some place => simp [OpensLog]
  | some path =>
      refine ((means_openFile host path).bind fun place => means_pure (some place)).congr ?_
      rintro w (_ | place) w'
      · simp [OpensLog]
      · simp only [OpensLog, Option.some.injEq]
        constructor
        · rintro ⟨_, _, hopens, rfl, rfl⟩
          exact hopens
        · intro hopens
          exact ⟨place, w', hopens, rfl, rfl⟩

theorem speaks_prepare : Speaks (prepare station a : Performing σ Plan) fun w plan said w' =>
    Prepares station a w plan w' ∧ said = { err := (startTexts plan.config).map .text } := by
  refine ((means_effectiveConfig a station.host).bind_speaks fun config =>
    (means_reportPaths a).bind_speaks fun report =>
    (means_loadCatalog station.host a.catalog).bind_speaks fun catalog =>
    (speaks_tellLine (startTexts config)).bind_means fun _ =>
    (means_openLog station.host a.log).bind fun log =>
    means_pure (Plan.mk config report catalog log)).congr fun w plan said w' => ?_
  constructor
  · rintro ⟨config, _, ⟨hconfig, rfl⟩, report, _, ⟨⟨htwin, hreport⟩, rfl⟩, catalog, _,
      ⟨hcatalog, rfl⟩, _, _, ⟨rfl, hsaid⟩, log, _, ⟨hopens, htools⟩, rfl, rfl⟩
    exact ⟨⟨hconfig, htwin, hreport, hcatalog, hopens, htools⟩, hsaid⟩
  · rintro ⟨⟨hconfig, htwin, hreport, hcatalog, hopens, htools⟩, hsaid⟩
    exact ⟨plan.config, w, ⟨hconfig, rfl⟩, plan.report, w, ⟨⟨htwin, hreport⟩, rfl⟩, plan.catalog,
      w, ⟨hcatalog, rfl⟩, (), w, ⟨rfl, hsaid⟩, plan.log, w', ⟨hopens, htools⟩, rfl, rfl⟩

variable {station a} {plan : Plan} {s : Terminal σ} {done : CatalogRun}

theorem ended_eq_ok_iff : (plan.ended station a s).1 = .ok done ↔
    plan.catalog.selected a.categories ≠ [] ∧
      (∀ place ∈ plan.log, station.host.failure? place s.world.files = none) ∧
      (∃ c, Console.Took (plan.progress station a s.world) s.out c) ∧
      done = plan.outcome station a s.world := by
  have hsound : Book.AllSound (plan.log.map
      (openBook station.host (a.runId.getD station.defaultRunId) s.world.files)) ↔
      ∀ place ∈ plan.log, station.host.failure? place s.world.files = none := by
    cases plan.log with
    | none => exact ⟨nofun, nofun⟩
    | some place => simp [openBook]
  constructor
  · intro h
    obtain ⟨rfl, hcarried, hlog⟩ := Catalog.run_eq_ok (Prod.ext h rfl)
    refine ⟨fun hnone => ?_, hsound.mp hlog, ⟨_, hcarried.console⟩, rfl⟩
    rw [Plan.ended, Catalog.run_eq_of_selected_eq_nil hnone] at h
    cases h
  · rintro ⟨hsome, hlog, ⟨c, htold⟩, rfl⟩
    obtain ⟨t, hsteps⟩ := ((plan.setting station).exists_carryOut_eq_ok_iff
      (t := ⟨s.world, s.out, plan.log.map
        (openBook station.host (a.runId.getD station.defaultRunId) s.world.files)⟩)
      (plan.catalog.steps (plan.setting station) a.categories s.world) (hsound.mpr hlog)).mpr
      htold.clear
    exact (Catalog.run_of_carryOut_ok (s := ⟨s.world, { console := s.out }, _⟩) hsome hsteps).1

-- Such a run leaves the world of its fixtures, and a log of all that it brought.
theorem ended_of_ok (h : (plan.ended station a s).1 = .ok done) :
    (plan.ended station a s).2.world = plan.after station a s.world ∧
      (plan.ended station a s).2.log = plan.log.map (fun _ => plan.book station a s.world) ∧
      Console.Took (plan.progress station a s.world) s.out
        (plan.ended station a s).2.reporter.console := by
  obtain ⟨-, hsound, -, -⟩ := ended_eq_ok_iff.mp h
  obtain ⟨-, hcarried, -⟩ := Catalog.run_eq_ok (Prod.ext h rfl)
  have hworld := hcarried.world
  have hlog := hcarried.log
  rw [Catalog.filterMap_fixture?_steps] at hworld
  rw [Catalog.filterMap_entry?_steps_eq_entriesOf] at hlog
  refine ⟨hworld, hlog.trans ?_, hcarried.console⟩
  rw [RunState.trace, Option.map_map]
  refine Option.map_congr fun place hplace => ?_
  simp only [Function.comp_apply, openBook, hsound place hplace]
  rfl

theorem entries_book_ne_nil (plan : Plan) (station : Station σ) (a : RunArguments)
    (w : World σ) : (plan.book station a w).entries ≠ [] := by
  have hdrafts : ∀ e ∈ plan.catalog.entriesOf (plan.setting station) a.categories w, e.IsDraft :=
    fun e he => isDraft_of_mem_story he
  rw [Plan.book, Book.entries_opened_addAll _ _ _ hdrafts]
  simp [numberedAll, Catalog.entriesOf, story]

-- The log of a run that comes to its end goes into its file when it is closed.
theorem fillsLog_iff (h : (plan.ended station a s).1 = .ok done) {t t' : Tree} :
    FillsLog station.host (plan.book station a s.world).text s.world.files plan.log t t' ↔
      t' = closeBook plan.log (plan.ended station a s).2.log t := by
  obtain ⟨-, hsound, -, -⟩ := ended_eq_ok_iff.mp h
  have hfault : (plan.book station a s.world).fault? = none := Book.fault?_addAll _ _ _
  have hentries := entries_book_ne_nil plan station a s.world
  rw [(ended_of_ok h).2.1]
  cases hplace : plan.log with
  | none => exact Iff.rfl
  | some place => simp [FillsLog, closeBook, hsound place hplace, hfault, hentries]

theorem speaks_run_plan (plan : Plan) : Speaks (plan.run station a) fun w done said w' =>
    (plan.Runs station a w w'.files ∧ done = plan.outcome station a w ∧
      w'.tools = (plan.after station a w).tools) ∧
    said = { out := plan.progress station a w } := by
  intro s done s'
  rw [run_plan_eq_ok_iff]
  constructor
  · rintro ⟨hok, rfl⟩
    obtain ⟨hsome, -, -, hdone⟩ := ended_eq_ok_iff.mp hok
    obtain ⟨hworld, -, htold⟩ := ended_of_ok hok
    refine ⟨_, ⟨⟨⟨hsome, ?_⟩, hdone, by rw [← hworld]⟩, rfl⟩,
      ⟨htold, Console.took_nil_iff.mpr rfl⟩⟩
    rw [fillsLog_iff hok, hworld]
  · rintro ⟨_, ⟨⟨⟨hsome, hlog⟩, hdone, htools⟩, rfl⟩, htold⟩
    have hsound : ∀ place ∈ plan.log, station.host.failure? place s.world.files = none := by
      intro place hplace
      rw [Option.mem_def.mp hplace] at hlog
      exact hlog.1
    have hok := ended_eq_ok_iff.mpr ⟨hsome, hsound, ⟨_, htold.out⟩, hdone⟩
    obtain ⟨hworld, -, htook⟩ := ended_of_ok hok
    rw [fillsLog_iff hok, ← hworld] at hlog
    rw [← hworld] at htools
    obtain ⟨⟨files, tools⟩, out, err⟩ := s'
    cases hlog
    cases htools
    cases Console.took_nil_iff.mp htold.err
    cases htold.out.eq_taking.trans htook.eq_taking.symm
    exact ⟨hok, rfl⟩

theorem means_withArtifact (host : Host) (index : ArtifactIndex) (path : Path) (kind : String) :
    Means (withArtifact host index path kind : Performing σ ArtifactIndex) fun w index' w' =>
      (∃ entries, Covers entries [(path, kind)] w.files host.cwd ∧
        index' = { index with artifacts := index.artifacts ++ entries }) ∧ w' = w :=
  (means_consult _ _).congr fun _ _ _ => and_congr_left fun _ => ArtifactIndex.withFile_eq_ok_iff

theorem means_indexLog (host : Host) (index : ArtifactIndex) (log : Option Path) :
    Means (indexLog host index log : Performing σ ArtifactIndex) fun w index' w' =>
      (∃ entries, Covers entries (logOutputs log) w.files host.cwd ∧
        index' = { index with artifacts := index.artifacts ++ entries }) ∧ w' = w := by
  cases log with
  | some path => exact means_withArtifact host index path "log"
  | none =>
      refine (means_pure index).congr fun w index' w' => and_congr_left fun _ => ?_
      constructor
      · rintro rfl
        exact ⟨[], .nil _ _, by rw [List.append_nil]⟩
      · rintro ⟨entries, hcovers, rfl⟩
        obtain rfl := List.map_eq_nil_iff.mp hcovers.outputs
        rw [List.append_nil]

theorem speaks_writeReport (host : Host) (done : CatalogRun) (index : ArtifactIndex)
    (report : Option (Path × Path)) :
    Speaks (writeReport host done index report : Performing σ ArtifactIndex) fun w index' said w' =>
      ((DeliversAll host (reportTexts (done.report runTitle (host.clock 0)) report)
          w.files w'.files ∧
        ∃ entries, Covers entries (reportOutputs report) w'.files host.cwd ∧
          index' = { index with artifacts := index.artifacts ++ entries }) ∧
      w'.tools = w.tools) ∧
      said = { err := (reportedTexts report).map .text } := by
  cases report with
  | none =>
      refine (means_pure index).speaks.congr fun w index' said w' => and_congr_left fun _ => ?_
      constructor
      · rintro ⟨rfl, rfl⟩
        exact ⟨⟨rfl, [], .nil _ _, by rw [List.append_nil]⟩, rfl⟩
      · rintro ⟨⟨hfiles, entries, hcovers, rfl⟩, htools⟩
        obtain rfl := List.map_eq_nil_iff.mp hcovers.outputs
        obtain ⟨files, tools⟩ := w
        cases hfiles
        cases htools
        exact ⟨by rw [List.append_nil], rfl⟩
  | some paths =>
      obtain ⟨path, twin⟩ := paths
      refine ((means_writeFile host path _).bind_speaks fun _ =>
        (means_writeFile host twin _).bind_speaks fun _ =>
        (means_withArtifact host index path "report_markdown").bind_speaks fun index₁ =>
        (means_withArtifact host index₁ twin "report_json").bind_speaks fun index₂ =>
        (speaks_tellLine ["Report written to ", path, "\n"]).bind_means fun _ =>
        means_pure index₂).congr fun w index' said w' => ?_
      constructor
      · rintro ⟨_, w₁, ⟨hmarkdown, htools⟩, _, w₂, ⟨hjson, htools'⟩, _, _,
          ⟨⟨entries, hcovers, rfl⟩, rfl⟩, _, _, ⟨⟨more, hcovers', rfl⟩, rfl⟩, _, _, ⟨rfl, hsaid⟩,
          rfl, rfl⟩
        exact ⟨⟨⟨⟨w₁.files, hmarkdown, w'.files, hjson, rfl⟩, entries ++ more,
          hcovers.append hcovers', by rw [List.append_assoc]⟩, htools'.trans htools⟩, hsaid⟩
      · rintro ⟨⟨⟨⟨between, hmarkdown, last, hjson, hlast⟩, entries, hcovers, rfl⟩, htools⟩, hsaid⟩
        cases hlast
        have hboth : Covers entries ([(path, "report_markdown")] ++ [(twin, "report_json")])
            w'.files host.cwd := hcovers
        obtain ⟨first, second, rfl, hfirst, hsecond⟩ := Covers.append_iff.mp hboth
        exact ⟨(), ⟨between, w.tools⟩, ⟨hmarkdown, rfl⟩, (), w', ⟨hjson, htools⟩, _, w',
          ⟨⟨first, hfirst, rfl⟩, rfl⟩, _, w', ⟨⟨second, hsecond, rfl⟩, rfl⟩, (), w', ⟨rfl, hsaid⟩,
          by rw [List.append_assoc], rfl⟩

theorem means_writeIndex (host : Host) (index : ArtifactIndex) (path : Option Path) :
    Means (writeIndex host index path : Performing σ Unit) fun w _ w' =>
      DeliversAll host (indexTexts index path) w.files w'.files ∧ w'.tools = w.tools := by
  cases path with
  | none =>
      refine (means_pure ()).congr fun w _ w' => ?_
      constructor
      · rintro ⟨-, rfl⟩
        exact ⟨rfl, rfl⟩
      · rintro ⟨hfiles, htools⟩
        obtain ⟨files, tools⟩ := w
        cases hfiles
        cases htools
        exact ⟨rfl, rfl⟩
  | some path =>
      refine (means_writeFile host path _).congr fun w _ w' => and_congr_left fun _ => ?_
      constructor
      · intro hdelivers
        exact ⟨w'.files, hdelivers, rfl⟩
      · rintro ⟨last, hdelivers, hlast⟩
        cases hlast
        exact hdelivers

variable (station a)

-- A run gets as far as its artifact index just when it completes, with all said up to there.
theorem speaks_indexed : Speaks (indexed station a) fun w x said w' => ∃ c,
    Completes station a w c ∧ x = (c.plan.outcome station a c.opened, c.index) ∧
      said = {
        out := c.plan.progress station a c.opened
        err := (startTexts c.plan.config ++ reportedTexts a.reportPaths?).map .text } ∧
      w' = ⟨c.final, (c.plan.after station a c.opened).tools⟩ := by
  refine ((speaks_prepare station a).bind fun plan => (speaks_run_plan plan).bind fun done =>
    (means_indexLog station.host (emptyIndex station a) a.log).bind_speaks fun index =>
    (speaks_writeReport station.host done index plan.report).bind_means fun index' =>
    (means_writeIndex station.host index' a.artifactIndex).bind fun _ =>
    means_pure (done, index')).congr fun w x said w' => ?_
  constructor
  · rintro ⟨plan, opened, _, _, ⟨hprepares, rfl⟩, ⟨_, w₂, _, _, ⟨⟨hruns, rfl, htools⟩, rfl⟩,
      ⟨_, _, ⟨⟨entries, hentries, rfl⟩, rfl⟩, index, w₄,
        ⟨⟨⟨hreported, more, hmore, rfl⟩, htools'⟩, rfl⟩, _, _, ⟨hfinal, htools''⟩, rfl, rfl⟩, rfl⟩,
      rfl⟩
    rw [hprepares.report] at hreported hmore
    refine ⟨⟨plan, opened, _, w₄.files, w'.files, _⟩, ⟨⟨hprepares, hruns, hreported, hfinal⟩,
      entries, more, rfl, hentries, hmore⟩, rfl, ?_, ?_⟩
    · simp [Said.andThen, hprepares.report]
    · rw [← htools, ← htools', ← htools'']
  · rintro ⟨c, ⟨⟨hprepares, hruns, hreported, hfinal⟩, entries, more, hindex, hentries, hmore⟩,
      rfl, rfl, rfl⟩
    rw [← hprepares.report] at hreported hmore
    refine ⟨c.plan, c.opened, _, _, ⟨hprepares, rfl⟩, ⟨_,
      ⟨c.logged, (c.plan.after station a c.opened).tools⟩, _, _, ⟨⟨hruns, rfl, rfl⟩, rfl⟩, ⟨_, _,
      ⟨⟨entries, hentries, rfl⟩, rfl⟩, c.index,
      ⟨c.reported, (c.plan.after station a c.opened).tools⟩,
      ⟨⟨⟨hreported, more, hmore, ?_⟩, rfl⟩, rfl⟩,
      (), ⟨c.final, (c.plan.after station a c.opened).tools⟩, ⟨hfinal, rfl⟩, rfl, rfl⟩, rfl⟩, ?_⟩
    · exact hindex
    · simp [Said.andThen, hprepares.report]

end Meaning

end Conformance.CommandLine
