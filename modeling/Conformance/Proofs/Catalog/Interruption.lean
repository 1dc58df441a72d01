import Conformance.Proofs.Catalog.Running
import Conformance.Proofs.Fixture.Protocol
import Mathlib.Data.List.Infix

namespace Conformance

section Calls

variable {σ : Type} (host : Host) (config : Config) (invoker : Invoker σ)

-- The note of the calls only grows.
theorem Stage.calls_prefix_run (s : Stage) (dir : Path) (i : Invocation)
    (w : World (σ × List Call)) :
    w.tools.2 <+: (s.run host config (noting invoker) dir i w).2.tools.2 :=
  ⟨_, rfl⟩

theorem Fixture.calls_prefix_drive (f : Fixture) (dir : Path) (w : World (σ × List Call)) :
    w.tools.2 <+: (f.drive host config (noting invoker) dir w).2.tools.2 := by
  have hcompiled : w.tools.2 <+: (f.compiling host config (noting invoker) dir w).2.tools.2 :=
    Stage.compile.calls_prefix_run host config invoker dir _ w
  have hassembled := Stage.assemble.calls_prefix_run host config invoker dir
    (f.assembleCommand config) (f.compiling host config (noting invoker) dir w).2
  have hemulated := Stage.emulate.calls_prefix_run host config invoker dir
    (emulateCommand config) (f.assembling host config (noting invoker) dir w).2
  have hcourse := f.drive_course host config (noting invoker) dir w
  generalize f.drive host config (noting invoker) dir w = seen at hcourse ⊢
  cases hcourse with
  | halted => exact hcompiled
  | rejected => exact hcompiled
  | accepted => exact hcompiled
  | executed => exact hcompiled.trans (hassembled.trans hemulated)

theorem Fixture.calls_prefix_run (f : Fixture) (w : World (σ × List Call)) :
    w.tools.2 <+: (f.run host config (noting invoker) w).2.tools.2 := by
  unfold run
  rcases Scratch.create host config f w.files with ⟨_ | scratch, files⟩
  · exact List.prefix_refl _
  · exact f.calls_prefix_drive host config invoker scratch.path { w with files := files }

end Calls

-- The same setting with a note of each call.
def Setting.noting {σ : Type} (setting : Setting σ) : Setting (σ × List Call) :=
  ⟨setting.host, setting.config, Conformance.noting setting.invoker⟩

theorem Setting.calls_prefix_after {σ : Type} (setting : Setting σ) (w : World (σ × List Call))
    (fixtures : List Fixture) : w.tools.2 <+: (setting.noting.after w fixtures).tools.2 := by
  induction fixtures generalizing w with
  | nil => exact List.prefix_refl _
  | cons f rest ih => exact (f.calls_prefix_run _ _ _ w).trans (ih _)

-- The first attempt from now on that is to fail, with its number.
structure Console.FirstFault (c : Console) (n : Nat) (e : IoError) : Prop where
  coming : c.attempts ≤ n
  fails : c.fault? n = some e
  first : ∀ m, c.attempts ≤ m → m < n → c.fault? m = none

def RunState.healed {σ : Type} (s : RunState σ) : RunState σ :=
  { s with reporter := { s.reporter with console := s.reporter.console.healed } }

namespace Log

theorem Emitter.event_complete (emitter : Emitter) (e : Entry) :
    (emitter.complete e).1.event = e.event := by
  by_cases h : e.traceId = "" <;> simp [complete, h]

-- Adding to a log names and dates what is added, and changes nothing else of it.
theorem Book.entries_addAll_events (b : Book) (clock : Nat → String) (added : List Entry) :
    ∃ lines, (b.addAll clock added).entries = b.entries ++ lines ∧
      lines.map Entry.event = added.map Entry.event := by
  induction added generalizing b with
  | nil => exact ⟨[], (List.append_nil _).symm, rfl⟩
  | cons e rest ih =>
      obtain ⟨lines, hentries, hevents⟩ := ih (b.add clock e)
      refine ⟨(b.emitter.complete { e with timestamp := clock b.entries.length }).1 :: lines,
        hentries.trans (List.append_assoc _ _ _), ?_⟩
      rw [List.map_cons, List.map_cons, hevents, Emitter.event_complete]

-- A log that was started and is left off behind some lines, beside the whole one that has
-- these lines and more.
structure BreaksOff (start book whole : Book) (lines : List Entry) (ran : Nat) : Prop where
  entries : book.entries = start.entries ++ lines
  more : book.entries <+: whole.entries
  unended : ∀ e ∈ lines, e.event ≠ "run_end"
  -- the verdict on the last fixture that was run may be missing
  verdicts : (lines.filter fun e => e.event = "fixture_verdict").length = ran ∨
    (lines.filter fun e => e.event = "fixture_verdict").length + 1 = ran

end Log

namespace RunStep

-- The events that some steps log.
def events (steps : List RunStep) : List String :=
  (steps.filterMap entry?).map Log.Entry.event

def fixtures (steps : List RunStep) : List Fixture :=
  steps.filterMap fixture?

theorem events_append (xs ys : List RunStep) : events (xs ++ ys) = events xs ++ events ys := by
  rw [events, List.filterMap_append, List.map_append]
  rfl

theorem fixtures_append (xs ys : List RunStep) :
    fixtures (xs ++ ys) = fixtures xs ++ fixtures ys :=
  List.filterMap_append

theorem events_map_told (outputs : List Output) : events (outputs.map told) = [] := by
  rw [events, Setting.filterMap_entry?_map_told, List.map_nil]

theorem prefix_events {xs ys : List RunStep} (h : xs <+: ys) : events xs <+: events ys :=
  (h.filterMap entry?).map Log.Entry.event

theorem prefix_fixtures {xs ys : List RunStep} (h : xs <+: ys) : fixtures xs <+: fixtures ys :=
  h.filterMap fixture?

-- Of steps in which each verdict is logged before the next fixture is run, and which do
-- not log an end.
structure Paced (steps : List RunStep) : Prop where
  whole : (events steps).count "fixture_verdict" = (fixtures steps).length
  cut : ∀ done, done <+: steps →
    (events done).count "fixture_verdict" = (fixtures done).length ∨
      (events done).count "fixture_verdict" + 1 = (fixtures done).length
  unended : "run_end" ∉ events steps

theorem Paced.append {xs ys : List RunStep} (h : Paced xs) (h' : Paced ys) :
    Paced (xs ++ ys) where
  whole := by
    rw [events_append, fixtures_append, List.count_append, List.length_append, h.whole, h'.whole]
  cut := by
    rintro done ⟨rest, hrest⟩
    rcases List.append_eq_append_iff.mp hrest with ⟨more, hmore, -⟩ | ⟨more, rfl, hmore⟩
    · exact h.cut done ⟨more, hmore.symm⟩
    · rw [events_append, fixtures_append, List.count_append, List.length_append, h.whole]
      rcases h'.cut more ⟨rest, hmore.symm⟩ with heq | hless
      · exact .inl (by omega)
      · exact .inr (by omega)
  unended := by simp [events_append, h.unended, h'.unended]

-- Steps that neither run a fixture nor log a verdict or an end.
theorem paced_of_quiet {steps : List RunStep} (hfixtures : fixtures steps = [])
    (hverdict : "fixture_verdict" ∉ events steps) (hend : "run_end" ∉ events steps) :
    Paced steps where
  whole := by rw [hfixtures, List.count_eq_zero_of_not_mem hverdict, List.length_nil]
  cut := by
    intro done hdone
    have hnone : fixtures done = [] := List.prefix_nil.mp (hfixtures ▸ prefix_fixtures hdone)
    have hquiet : "fixture_verdict" ∉ events done :=
      fun hmem => hverdict ((prefix_events hdone).subset hmem)
    exact .inl (by rw [hnone, List.count_eq_zero_of_not_mem hquiet, List.length_nil])
  unended := hend

theorem paced_map_told (outputs : List Output) : Paced (outputs.map told) := by
  have hevents := events_map_told outputs
  exact paced_of_quiet (Setting.filterMap_fixture?_map_told outputs) (by simp [hevents])
    (by simp [hevents])

theorem paced_logged {e : Log.Entry} (event : String) (h : e.event = event)
    (hother : event ≠ "fixture_verdict" ∧ event ≠ "run_end") : Paced [logged e] := by
  have hevents : events [logged e] = [event] := congrArg (fun name => [name]) h
  exact paced_of_quiet rfl (by simpa [hevents] using hother.1.symm)
    (by simpa [hevents] using hother.2.symm)

end RunStep

namespace Setting

open RunStep

variable {σ : Type} (setting : Setting σ)

-- A fixture that was run has no verdict in the log while its mark is told.
theorem paced_fixtureSteps (seen : Fixture × FixtureRun) : Paced (setting.fixtureSteps seen) := by
  have htold := events_map_told (Reporter.markPieces (setting.judge seen))
  have hverdict : (Log.Entry.ofVerdict (setting.judge seen)).event = "fixture_verdict" := rfl
  have hevents : events (setting.fixtureSteps seen) = ["fixture_verdict"] :=
    congrArg (List.map Log.Entry.event) (setting.filterMap_entry?_fixtureSteps seen)
  have hfixtures : fixtures (setting.fixtureSteps seen) = [seen.1] :=
    setting.filterMap_fixture?_fixtureSteps seen
  refine ⟨by rw [hevents, hfixtures]; rfl, ?_, by simp [hevents]⟩
  intro done hdone
  rw [fixtureSteps, ← List.append_assoc] at hdone
  rcases List.prefix_concat_iff.mp hdone with rfl | hopen
  · rw [List.append_assoc, ← fixtureSteps, hevents, hfixtures]
    exact .inl rfl
  · rcases List.prefix_cons_iff.mp hopen with rfl | ⟨marks, rfl, hmarks⟩
    · exact .inl rfl
    · have hnone : events marks = [] := List.prefix_nil.mp (htold ▸ prefix_events hmarks)
      have hno : fixtures marks = [] :=
        List.prefix_nil.mp (filterMap_fixture?_map_told _ ▸ prefix_fixtures hmarks)
      have hran : fixtures (.ran seen.1 :: marks) = seen.1 :: fixtures marks := rfl
      have hsilent : events (.ran seen.1 :: marks) = events marks := rfl
      rw [hran, hsilent, hnone, hno]
      exact .inr rfl

theorem paced_suiteSteps (w : World σ) (suite : Suite) : Paced (setting.suiteSteps w suite) := by
  refine (paced_logged "category_start" rfl (by decide)).append ((paced_map_told _).append ?_)
  refine Paced.append ?_
    ((paced_map_told _).append (paced_logged "category_end" rfl (by decide)))
  induction setting.shown w suite.fixtures with
  | nil => exact paced_map_told []
  | cons seen rest ih => exact (setting.paced_fixtureSteps seen).append ih

theorem paced_suitesSteps (w : World σ) (suites : List Suite) :
    Paced (setting.suitesSteps w suites) := by
  induction suites generalizing w with
  | nil => exact paced_map_told []
  | cons suite rest ih => exact (setting.paced_suiteSteps w suite).append (ih _)

end Setting

namespace Catalog

variable {σ : Type} (catalog : Catalog) (setting : Setting σ) (chosen : List Category)

theorem paced_openSteps (w : World σ) : RunStep.Paced (catalog.openSteps setting chosen w) :=
  (RunStep.paced_logged "run_start" rfl (by decide)).append
    ((RunStep.paced_map_told _).append (setting.paced_suitesSteps w _))

-- A run with its calls noted that tells its progress on some console.
def runOn (w : World σ) (log : Option Log.Book) (console : Console) :
    Except RunError CatalogRun × RunState (σ × List Call) :=
  catalog.run setting.noting chosen ⟨w.noted [], { console := console }, log⟩

-- What a run shows that could not tell its progress any more, beside what the whole run shows.
structure CutShort (w : World σ) (log : Option Log.Book) (ran : List Fixture)
    (cut whole : RunTrace (σ × List Call)) : Prop where
  started : ran <+: catalog.selected chosen
  world : cut.world = setting.noting.after (w.noted []) ran
  calls : cut.world.tools.2 <+: whole.world.tools.2
  written : ∃ more, whole.console.written = cut.console.written ++ more
  logged : ∀ start, log = some start → ∃ book full lines, cut.log = some book ∧
    whole.log = some full ∧ Log.BreaksOff start book full lines ran.length
  unlogged : log = none → cut.log = none

variable {catalog setting chosen} {w : World σ} {log : Option Log.Book}

-- Steps before one that tells something come before the last entry of a run.
theorem prefix_openSteps {done rest : List RunStep} {output : Output}
    (h : catalog.steps setting chosen w = done ++ .told output :: rest) :
    done ++ [.told output] <+: catalog.openSteps setting chosen w := by
  have hdone : done ++ [.told output] <+: catalog.steps setting chosen w :=
    ⟨rest, by rw [h, List.append_assoc, List.singleton_append]⟩
  rw [steps, ← List.append_assoc] at hdone
  rcases List.prefix_concat_iff.mp hdone with hall | hlogged
  · cases (List.append_inj' hall rfl).2
  · rcases List.prefix_concat_iff.mp hlogged with hall | hopen
    · cases (List.append_inj' hall rfl).2
    · exact hopen

theorem fixtures_openSteps :
    RunStep.fixtures (catalog.openSteps setting chosen w) = catalog.selected chosen := by
  simp only [openSteps, RunStep.fixtures_append]
  simp only [RunStep.fixtures, Setting.filterMap_fixture?_logged,
    Setting.filterMap_fixture?_map_told, Setting.filterMap_fixture?_suitesSteps, List.nil_append]
  rfl

theorem breaksOff_addAll {done paced : List RunStep} (more : List RunStep) (start : Log.Book)
    (clock : Nat → String) (hpaced : RunStep.Paced paced) (hdone : done <+: paced) :
    ∃ lines, Log.BreaksOff start (start.addAll clock (done.filterMap RunStep.entry?))
      (start.addAll clock ((done ++ more).filterMap RunStep.entry?)) lines
      (RunStep.fixtures done).length := by
  obtain ⟨lines, hlines, hevents⟩ :=
    start.entries_addAll_events clock (done.filterMap RunStep.entry?)
  obtain ⟨others, hothers, -⟩ :=
    (start.addAll clock (done.filterMap RunStep.entry?)).entries_addAll_events clock
      (more.filterMap RunStep.entry?)
  have hcount : (lines.filter fun e => e.event = "fixture_verdict").length =
      (RunStep.events done).count "fixture_verdict" := by
    rw [RunStep.events, ← hevents, ← List.countP_eq_length_filter, List.count, List.countP_map]
    congr 1
  refine ⟨lines, hlines, ⟨others, ?_⟩, ?_, ?_⟩
  · rw [← hothers, List.filterMap_append, Log.Book.addAll_append]
  · intro e he hend
    apply hpaced.unended
    apply (RunStep.prefix_events hdone).subset
    rw [RunStep.events, ← hevents, ← hend]
    exact List.mem_map_of_mem he
  · rw [hcount]
    exact hpaced.cut done hdone

-- Steps that were carried out up to an output that did not get out, beside a run on a healthy
-- console that went on behind it.
theorem cutShort_of_told {console : Console} {e : IoError} {done rest more : List RunStep}
    {output : Output} {t₁ t whole : RunTrace (σ × List Call)}
    (hsteps : catalog.steps setting.noting chosen (w.noted []) = done ++ .told output :: rest)
    (hdone : setting.noting.Carried done ⟨w.noted [], console, log⟩ t₁)
    (hput : t₁.console.put output = (.error e, t.console))
    (ht : t = { t₁ with console := t.console })
    (hall : setting.noting.Carried (done ++ .told output :: more)
      ⟨w.noted [], console.healed, log⟩ whole) :
    ∃ n ran, console.FirstFault n e ∧ n < whole.console.attempts ∧
      catalog.CutShort setting chosen w log ran t whole := by
  obtain ⟨hwritten, htried, hfault⟩ := Console.put_eq_error hput
  have hworld : t.world = t₁.world := by rw [ht]
  have hlog : t.log = t₁.log := by rw [ht]
  have hopen : done <+: catalog.openSteps setting.noting chosen (w.noted []) :=
    (List.prefix_append _ _).trans (prefix_openSteps hsteps)
  have houtputs : (done ++ .told output :: more).filterMap RunStep.output? =
      done.filterMap RunStep.output? ++ (output :: more.filterMap RunStep.output?) := by
    rw [List.filterMap_append]
    rfl
  refine ⟨t₁.console.attempts, RunStep.fixtures done, ⟨?_, ?_, ?_⟩, ?_, ?_, ?_, ?_, ?_, ?_, ?_⟩
  · rw [hdone.console.attempts]
    exact Nat.le_add_right _ _
  · rw [← hfault, hdone.console.fault?]
  · rw [hdone.console.attempts]
    exact hdone.console.clear
  · have hlater : 0 < Console.tries (output :: more.filterMap RunStep.output?) := by
      simp [Console.tries, htried]
    rw [hdone.console.attempts, hall.console.attempts, houtputs, Console.tries_append]
    exact Nat.add_lt_add_left (Nat.lt_add_of_pos_right hlater) _
  · exact fixtures_openSteps ▸ RunStep.prefix_fixtures hopen
  · exact hworld.trans hdone.world
  · have hcalls := setting.calls_prefix_after t.world
      ((RunStep.told output :: more).filterMap RunStep.fixture?)
    rw [hworld, hdone.world, ← Setting.after_append, ← List.filterMap_append] at hcalls
    rw [hworld, hdone.world, hall.world]
    exact hcalls
  · refine ⟨Console.joined (output :: more.filterMap RunStep.output?), ?_⟩
    rw [hall.console.written, houtputs, Console.joined_append, hwritten, hdone.console.written,
      String.append_assoc]
    rfl
  · rintro start rfl
    obtain ⟨lines, hbroken⟩ := breaksOff_addAll (.told output :: more) start
      setting.noting.host.clock (catalog.paced_openSteps setting.noting chosen (w.noted [])) hopen
    exact ⟨_, _, lines, hlog.trans hdone.log, hall.log, hbroken⟩
  · rintro rfl
    exact hlog.trans hdone.log

-- A run that fails beside one on a healthy console, which fails no earlier: both fail with the
-- log, or the console breaks the first one off.
theorem carryOut_error_cases {console : Console} {e : IoError} {result : Except IoError Unit}
    {t t' : RunTrace (σ × List Call)}
    (hcut : setting.noting.carryOut (catalog.steps setting.noting chosen (w.noted []))
      ⟨w.noted [], console, log⟩ = (.error e, t))
    (hwhole : setting.noting.carryOut (catalog.steps setting.noting chosen (w.noted []))
      ⟨w.noted [], console.healed, log⟩ = (result, t')) :
    (result = .error e ∧ t.healed = t' ∧ ¬Log.Book.AllSound log ∧
      ∀ n, console.attempts ≤ n → n < t'.console.attempts → console.fault? n = none) ∨
    ∃ n ran, console.FirstFault n e ∧ n < t'.console.attempts ∧
      catalog.CutShort setting chosen w log ran t t' := by
  obtain ⟨done, step, rest, t₁, hsteps, hdone, hfault⟩ := Setting.carryOut_eq_error hcut
  have hcarried := Setting.carried_of_ok hdone
  have hhealed : setting.noting.carryOut done ⟨w.noted [], console.healed, log⟩ =
      (.ok (), t₁.healed) := Setting.carryOut_healed hdone
  rw [hsteps, Setting.carryOut_append, hhealed] at hwhole
  rcases Setting.carry_eq_error hfault with ⟨output, rfl, ht, hput⟩ | ⟨hsilent, rfl, hlog⟩
  · obtain ⟨t₂, htold⟩ : ∃ t₂, setting.noting.carry (.told output) t₁.healed = (.ok (), t₂) := by
      have hgot : t₁.healed.console.put output = (.ok (), t₁.healed.console.taking [output]) :=
        Console.put_eq_ok_iff.mpr (Console.took_taking fun _ _ _ => rfl)
      refine ⟨{ t₁.healed with console := t₁.healed.console.taking [output] }, ?_⟩
      simp only [Setting.carry, hgot]
    have hfirst := Setting.carried_of_carry htold
    -- behind the output that gets out there is more or less of the rest
    obtain ⟨more, -, hmore⟩ := setting.noting.exists_carried_of_healthy rest (t := t₂)
      fun n => by rw [hfirst.console.fault?]; rfl
    simp only [Setting.carryOut, htold] at hwhole
    rw [hwhole] at hmore
    exact .inr (cutShort_of_told hsteps hcarried hput ht
      ((Setting.carried_of_ok hhealed).append (hfirst.append hmore)))
  · simp only [Setting.carryOut, Setting.carry_healed t hsilent, hfault] at hwhole
    cases hwhole
    refine .inl ⟨rfl, rfl, fun hsound => hlog (hcarried.allSound_iff.mpr hsound), ?_⟩
    intro n hle hlt
    exact hcarried.console.clear n hle (hcarried.console.attempts ▸ hlt)

-- For every console, whatever it fails with and when: a run that is not hindered by it brings
-- what it would bring on one that never fails, and any other run ends with the first fault that
-- it meets and leaves the start of what the whole run leaves. Whether the log takes all that is
-- written into it makes no difference to that.
theorem run_cut_short (catalog : Catalog) (setting : Setting σ) (chosen : List Category)
    (w : World σ) (log : Option Log.Book) (console : Console) :
    ((catalog.runOn setting chosen w log console).1 =
        (catalog.runOn setting chosen w log console.healed).1 ∧
      (catalog.runOn setting chosen w log console).2.trace.healed =
        (catalog.runOn setting chosen w log console.healed).2.trace ∧
      (Log.Book.AllSound log → (catalog.runOn setting chosen w log console).2.healed =
        (catalog.runOn setting chosen w log console.healed).2) ∧
      ∀ n, console.attempts ≤ n →
        n < (catalog.runOn setting chosen w log console.healed).2.reporter.console.attempts →
        console.fault? n = none) ∨
    ∃ n cause ran, console.FirstFault n cause ∧
      n < (catalog.runOn setting chosen w log console.healed).2.reporter.console.attempts ∧
      (catalog.runOn setting chosen w log console).1 = .error (.io cause) ∧
      (Log.Book.AllSound log →
        ∃ r, (catalog.runOn setting chosen w log console.healed).1 = .ok r) ∧
      catalog.CutShort setting chosen w log ran
        (catalog.runOn setting chosen w log console).2.trace
        (catalog.runOn setting chosen w log console.healed).2.trace := by
  by_cases hsome : catalog.selected chosen = []
  · left
    simp only [runOn, run_eq_of_selected_eq_nil hsome]
    exact ⟨trivial, rfl, fun _ => rfl, fun n hle hlt => absurd hlt (Nat.not_lt.mpr hle)⟩
  · let s : RunState (σ × List Call) := ⟨w.noted [], { console := console }, log⟩
    let s' : RunState (σ × List Call) := ⟨w.noted [], { console := console.healed }, log⟩
    rcases hwhole : setting.noting.carryOut (catalog.steps setting.noting chosen (w.noted []))
      ⟨w.noted [], console.healed, log⟩ with ⟨result, t'⟩
    have htrace' : (catalog.runOn setting chosen w log console.healed).2.trace = t' :=
      (trace_run (s := s') hsome).trans (congrArg Prod.snd hwhole)
    have hattempts : (catalog.runOn setting chosen w log console.healed).2.reporter.console =
        t'.console := congrArg RunTrace.console htrace'
    rw [hattempts, htrace']
    rcases hcut : setting.noting.carryOut (catalog.steps setting.noting chosen (w.noted []))
      ⟨w.noted [], console, log⟩ with ⟨e | _, t⟩
    · obtain ⟨hresult, htrace⟩ := run_of_carryOut_error (s := s) hsome hcut
      have htrace'' : (catalog.runOn setting chosen w log console).2.trace = t := htrace
      rw [htrace'']
      rcases carryOut_error_cases hcut hwhole with
        ⟨rfl, hsame, hunsound, hclear⟩ | ⟨n, ran, hfault, hreached, hshort⟩
      · have hresult' := (run_of_carryOut_error (s := s') hsome hwhole).1
        exact .inl ⟨hresult.trans hresult'.symm, hsame,
          fun hsound => absurd hsound hunsound, hclear⟩
      · refine .inr ⟨n, e, ran, hfault, hreached, hresult, fun hsound => ?_, hshort⟩
        obtain ⟨r, s'', hrun⟩ := exists_run_eq_ok (s := s') ⟨fun _ => rfl, hsound⟩ hsome
        exact ⟨r, congrArg Prod.fst hrun⟩
    · have hhealed : setting.noting.carryOut (catalog.steps setting.noting chosen (w.noted []))
          ⟨w.noted [], console.healed, log⟩ = (.ok (), t.healed) := Setting.carryOut_healed hcut
      obtain ⟨rfl, rfl⟩ := Prod.mk.inj (hwhole.symm.trans hhealed)
      obtain ⟨hresult, hstate⟩ := run_of_carryOut_ok (s := s) hsome hcut
      obtain ⟨hresult', hstate'⟩ := run_of_carryOut_ok (s := s') hsome hhealed
      have hsame : (catalog.runOn setting chosen w log console).2.healed =
          (catalog.runOn setting chosen w log console.healed).2 := by
        rw [runOn, runOn, hstate, hstate']
        rfl
      refine .inl ⟨hresult.trans hresult'.symm, ?_, fun _ => hsame, fun n hle hlt => ?_⟩
      · rw [runOn, hstate]
        rfl
      · have htook := (Setting.carried_of_ok hcut).console
        exact htook.clear n hle (htook.attempts ▸ hlt)

-- The console breaks at the first mark: one fixture was run, and its verdict is not logged.
example :
    let pair : Catalog := ⟨"1", [⟨.valid, "valid", [.bare "first", .bare "second"]⟩]⟩
    let cut := pair.runOn ⟨.plain, {}, answering fun _ => .exited 1⟩ [] ⟨Tree.empty, ()⟩
      (some (Log.Book.opened "wacc" "r1"))
      { fault? := fun n => if n < 7 then none else some .noSpace }
    (cut.2.world.tools.2.length, cut.2.log.map fun book => book.entries.map Log.Entry.event) =
      (1, some ["run_start", "category_start"]) := by
  decide +kernel

end Catalog

end Conformance
