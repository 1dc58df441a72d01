import Conformance.Proofs.CommandLine.Completing
import Conformance.Proofs.Report.Totals

namespace Conformance.CommandLine

open Log

section Status

variable {σ : Type} {station : Station σ} {a : RunArguments} {w : World σ}

-- What is said at the end of a run, whether or not all passed.
def tellEnd (a : RunArguments) (done : CatalogRun) : Performing σ Unit := do
  a.artifactIndex.forM fun path => tellLine ["Artifact index written to ", path, "\n"]
  tellLine ["Passed ", toString done.summary.passed, "/", toString done.summary.total,
    " fixtures\n"]

def judge (done : CatalogRun) : Performing σ Unit :=
  if done.summary.allPassed then pure () else throw (.fixturesFailed done.summary.failed)

-- A run up to where it is judged.
def spoken (station : Station σ) (a : RunArguments) : Performing σ CatalogRun := do
  let found ← indexed station a
  tellEnd a found.1
  pure found.1

theorem run_eq_spoken (station : Station σ) (a : RunArguments) :
    run station a = spoken station a >>= judge := by
  rw [run_eq]
  simp only [spoken, conclude, tellEnd, bind_assoc, pure_bind]
  rfl

theorem speaks_tellEnd (a : RunArguments) (done : CatalogRun) :
    Speaks (tellEnd a done : Performing σ Unit) fun w _ said w' =>
      w' = w ∧ said = { err := (endTexts a done).map .text } := by
  unfold tellEnd endTexts
  cases a.artifactIndex with
  | none =>
      exact speaks_tellLine ["Passed ", toString done.summary.passed, "/",
        toString done.summary.total, " fixtures\n"]
  | some path =>
      refine ((speaks_tellLine ["Artifact index written to ", path, "\n"]).bind fun _ =>
        speaks_tellLine _).congr fun w _ said w' => ?_
      constructor
      · rintro ⟨_, _, _, _, ⟨rfl, rfl⟩, ⟨rfl, rfl⟩, rfl⟩
        exact ⟨rfl, by simp [Said.andThen]⟩
      · rintro ⟨rfl, rfl⟩
        exact ⟨(), w', _, _, ⟨rfl, rfl⟩, ⟨rfl, rfl⟩, by simp [Said.andThen]⟩

-- A run is judged just when it completes and all gets out that it says.
theorem speaks_spoken (station : Station σ) (a : RunArguments) :
    Speaks (spoken station a) fun w done said w' => ∃ c, Completes station a w c ∧
      done = c.plan.outcome station a c.opened ∧ said = c.said station a ∧
      w' = ⟨c.final, (c.plan.after station a c.opened).tools⟩ := by
  refine ((speaks_indexed station a).bind fun found =>
    (speaks_tellEnd a found.1).bind_means fun _ => means_pure found.1).congr ?_
  intro w done said w'
  constructor
  · rintro ⟨_, _, _, _, ⟨c, hcompletes, rfl, rfl, rfl⟩, ⟨_, _, ⟨rfl, rfl⟩, rfl, rfl⟩, rfl⟩
    exact ⟨c, hcompletes, rfl, by simp [Said.andThen, Course.said], rfl⟩
  · rintro ⟨c, hcompletes, rfl, rfl, rfl⟩
    exact ⟨_, _, _, _, ⟨c, hcompletes, rfl, rfl, rfl⟩, ⟨(), _, ⟨rfl, rfl⟩, rfl, rfl⟩,
      by simp [Said.andThen, Course.said]⟩

theorem Plan.allPassed_iff (plan : Plan) :
    (plan.outcome station a w).summary.allPassed = true ↔
      ∀ v ∈ plan.verdicts station a w, v.passed = true :=
  Summary.allPassed_ofResults_iff _

theorem Plan.not_allPassed_iff (plan : Plan) :
    (plan.outcome station a w).summary.allPassed = false ↔
      ∃ v ∈ plan.verdicts station a w, v.passed = false := by
  rw [← Bool.not_eq_true, plan.allPassed_iff]
  simp only [not_forall, exists_prop, Bool.not_eq_true]

theorem Failure.status_ne_zero (e : Failure) : e.status ≠ 0 := by
  unfold status
  split <;> decide

theorem finish_of_ok {s : Terminal σ} (h : (run station a).run (.opened station.host w) =
    (.ok (), s)) : finish station (.run a) w = (0, s) := by
  have hperform : (perform station (.run a)).run (.opened station.host w) = (.ok (), s) := h
  rw [finish, hperform]

-- Last words change nothing but what is written.
theorem finish_of_error {s : Terminal σ} {e : Failure}
    (h : (run station a).run (.opened station.host w) = (.error e, s)) :
    (finish station (.run a) w).1 = e.status ∧ (finish station (.run a) w).2.world = s.world := by
  have hperform : (perform station (.run a)).run (.opened station.host w) = (.error e, s) := h
  rw [finish, hperform]
  dsimp only
  split <;> exact ⟨rfl, rfl⟩

-- The exit status of a run that is judged, and the world that it leaves.
theorem finish_of_spoken {done : CatalogRun} {s : Terminal σ}
    (h : (spoken station a).run (.opened station.host w) = (.ok done, s)) :
    (finish station (.run a) w).1 = (if done.summary.allPassed then 0 else 1) ∧
      (finish station (.run a) w).2.world = s.world := by
  have hrun : (run station a).run (.opened station.host w) = (judge done).run s := by
    rw [run_eq_spoken, run_bind_of_ok h]
  unfold judge at hrun
  split_ifs at hrun ⊢ with hall
  · rw [finish_of_ok hrun]
    exact ⟨rfl, rfl⟩
  · exact finish_of_error hrun

theorem finish_of_completes {c : Course σ} (h : Completes station a w c)
    (hheard : (c.said station a).Heard station.host) :
    (finish station (.run a) w).1 =
        (if (c.plan.outcome station a c.opened).summary.allPassed then 0 else 1) ∧
      (finish station (.run a) w).2.world = ⟨c.final, (c.plan.after station a c.opened).tools⟩ := by
  obtain ⟨s, hspoken, hworld⟩ :=
    (speaks_spoken station a).exists_of_heard (w := w) ⟨c, h, rfl, rfl, rfl⟩ hheard
  rw [← hworld]
  exact finish_of_spoken hspoken

theorem exists_completes_of_finish (h : (finish station (.run a) w).1 = 0) :
    ∃ c, Completes station a w c ∧ (c.said station a).Heard station.host := by
  rcases hspoken : (spoken station a).run (.opened station.host w) with ⟨e | done, s⟩
  · have hrun : (run station a).run (.opened station.host w) = (.error e, s) := by
      rw [run_eq_spoken]
      exact run_bind_of_error hspoken
    rw [(finish_of_error hrun).1] at h
    exact absurd h e.status_ne_zero
  · obtain ⟨_, ⟨c, hcompletes, -, rfl, hworld⟩, htold⟩ :=
      (speaks_spoken station a _ done s).mp hspoken
    exact ⟨c, hcompletes, htold.heard⟩

theorem exists_completes_of_failing {s : Terminal σ}
    (h : (((indexed station a).run s).1.toOption.any fun x =>
      x.1.summary.allPassed = false) = true) :
    ∃ c, Completes station a s.world c ∧
      (∃ v ∈ c.plan.verdicts station a c.opened, v.passed = false) ∧
      c.final = ((indexed station a).run s).2.world.files := by
  rcases hindexed : (indexed station a).run s with ⟨e | x, s'⟩
  · rw [hindexed] at h
    cases h
  · obtain ⟨_, ⟨c, hcompletes, rfl, -, hworld⟩, -⟩ := (speaks_indexed station a s x s').mp hindexed
    rw [hindexed] at h
    exact ⟨c, hcompletes, c.plan.not_allPassed_iff.mp (of_decide_eq_true h),
      (congrArg World.files hworld).symm⟩

end Status

section Outputs

variable {σ : Type} {station : Station σ} {a : RunArguments} {w : World σ} {c : Course σ}

-- What a run has to write, each text with its path.
def Course.written (c : Course σ) (station : Station σ) (a : RunArguments) :
    List (Path × String) :=
  a.log.toList.map (fun path => (path, (c.plan.book station a c.opened).text)) ++
    (reportTexts (c.plan.account station a c.opened) a.reportPaths? ++
      indexTexts c.index a.artifactIndex)

-- Each output has a file of its own, and no tool touches the log while it is open.
structure Separate (station : Station σ) (a : RunArguments) (c : Course σ) : Prop where
  apart : (c.written station a).Pairwise fun x y => ¬c.final.SameFile station.host.cwd x.1 y.1
  located : ∀ path ∈ a.log, ∀ place ∈ c.plan.log,
    (c.plan.after station a c.opened).files.locate station.host.cwd path = .ok place
  kept : ∀ place ∈ c.plan.log,
    (c.plan.after station a c.opened).files.node? place = c.opened.files.node? place

-- The log holds its text as soon as it is closed.
theorem Unhindered.holds_log (h : Unhindered station a w c) (hseparate : Separate station a c) :
    ∀ path ∈ a.log, c.logged.Holds station.host.cwd path
      (Text.bytesOf (c.plan.book station a c.opened).text) := by
  intro path hpath
  have hopened := h.prepares.log
  have hlogged := h.runs.log
  rw [Option.mem_def.mp hpath] at hopened
  cases hplace : c.plan.log with
  | none =>
      rw [hplace] at hopened
      exact hopened.elim
  | some place =>
      rw [hplace] at hopened hlogged
      have hstands := hopened.wrote.stands
      rw [← hseparate.kept place hplace] at hstands
      have hopen : Tree.Wrote station.host.cwd path place []
          (c.plan.after station a c.opened).files (c.plan.after station a c.opened).files :=
        ⟨.refl _, hseparate.located path hpath place hplace, hstands, .refl _ _⟩
      rw [hlogged.2]
      exact (hopen.writeAt _).holds

theorem Unhindered.holds (h : Unhindered station a w c) (hseparate : Separate station a c) :
    ∀ x ∈ c.written station a, c.final.Holds station.host.cwd x.1 (Text.bytesOf x.2) := by
  have hlater := DeliversAll.append_iff.mpr ⟨c.reported, h.reported, h.final⟩
  obtain ⟨-, hapart, hcross⟩ := List.pairwise_append.mp hseparate.apart
  intro x hx
  rcases List.mem_append.mp hx with hx | hx
  · have hothers := hcross x hx
    obtain ⟨path, hpath, rfl⟩ := List.mem_map.mp hx
    exact hlater.holds_of_apart (h.holds_log hseparate path (Option.mem_toList.mp hpath)) hothers
  · exact hlater.holds hapart x hx

end Outputs

-- A run succeeds just when it completes, all is heard that it says, and each verdict is one that
-- passed. When it completes, all that it has to write is written before it ends, whatever the
-- verdicts are. This is all that arguments for a run come to, and without arguments that are
-- understood there is no success.
theorem run_succeeds_iff {σ : Type} (station : Station σ) (a : RunArguments) (w : World σ) :
    ((finish station (.run a) w).1 = 0 ↔
      ∃ c, Completes station a w c ∧ (c.said station a).Heard station.host ∧
        ∀ v ∈ c.plan.verdicts station a c.opened, v.passed = true) ∧
    (∀ c, Completes station a w c → (c.said station a).Heard station.host →
      ((∃ v ∈ c.plan.verdicts station a c.opened, v.passed = false) →
        (finish station (.run a) w).1 = 1) ∧
      (finish station (.run a) w).2.world.files = c.final ∧
      (Separate station a c → ∀ x ∈ c.written station a,
        c.final.Holds station.host.cwd x.1 (Text.bytesOf x.2)) ∧
      (c.plan.account station a c.opened).TellsTotals (c.plan.verdicts station a c.opened)) ∧
    ∀ args, match Command.ofArguments args with
      | .ok command => command = .run a → execute station args w = finish station (.run a) w
      | .error _ => (execute station args w).1 ≠ 0 := by
  refine ⟨⟨fun h => ?_, ?_⟩, fun c hcompletes hheard => ?_, fun args => ?_⟩
  · obtain ⟨c, hcompletes, hheard⟩ := exists_completes_of_finish h
    refine ⟨c, hcompletes, hheard, ?_⟩
    rw [(finish_of_completes hcompletes hheard).1] at h
    rw [← c.plan.allPassed_iff]
    by_contra hsome
    rw [if_neg hsome] at h
    cases h
  · rintro ⟨c, hcompletes, hheard, hall⟩
    rw [(finish_of_completes hcompletes hheard).1, if_pos (c.plan.allPassed_iff.mpr hall)]
  · obtain ⟨hstatus, hworld⟩ := finish_of_completes hcompletes hheard
    refine ⟨fun hfailed => ?_, congrArg World.files hworld, hcompletes.toUnhindered.holds,
      Report.tellsTotals rfl⟩
    rw [hstatus, c.plan.not_allPassed_iff.mpr hfailed]
    rfl
  · unfold execute
    cases Command.ofArguments args with
    | ok command =>
        rintro rfl
        rfl
    | error e => exact Nat.succ_ne_zero 1

-- Tools of which the first one rejects what is valid.
def rejecting : Station Unit :=
  { succeeding with invoker := answering fun _ => .exited 1 }

def allOutputs : List String :=
  ["--catalog", "k.json", "--log", "l.jsonl", "--report", "r.md", "--artifact-index", "i.json"]

def allOutputsArguments : RunArguments :=
  { catalog := some "k.json", log := some "l.jsonl", report := some "r.md"
    artifactIndex := some "i.json" }

theorem map_fst_written_allOutputs (c : Course Unit) :
    (c.written rejecting allOutputsArguments).map Prod.fst =
      ["l.jsonl", "r.md", "r.json", "i.json"] := by
  have htwin : allOutputsArguments.reportPaths? = some ("r.md", "r.json") := by decide +kernel
  rw [Course.written, htwin]
  rfl

theorem separate_allOutputs {c : Course Unit}
    (h : Completes rejecting allOutputsArguments beforeRun.world c) :
    Separate rejecting allOutputsArguments c := by
  have hapart : ["l.jsonl", "r.md", "r.json", "i.json"].Pairwise fun p q =>
      ¬((indexed rejecting allOutputsArguments).run beforeRun).2.world.files.SameFile [] p q := by
    decide +kernel
  have hkept : (((prepare rejecting allOutputsArguments).run beforeRun).1.toOption.any fun plan =>
      let opened := ((prepare rejecting allOutputsArguments).run beforeRun).2.world
      let after := (plan.after rejecting allOutputsArguments opened).files
      plan.log = some ["l.jsonl"] && (after.locate [] "l.jsonl").toOption = some ["l.jsonl"] &&
        after.node? ["l.jsonl"] = opened.files.node? ["l.jsonl"]) = true := by
    decide +kernel
  obtain ⟨s₁, (hprepare : (prepare rejecting allOutputsArguments).run beforeRun = _), hopened⟩ :=
    (speaks_prepare rejecting allOutputsArguments).exists_of_heard ⟨h.prepares, rfl⟩
      (Said.heard_plain _)
  obtain ⟨s', (hindexed : (indexed rejecting allOutputsArguments).run beforeRun = _), hfinal⟩ :=
    (speaks_indexed rejecting allOutputsArguments).exists_of_heard ⟨c, h, rfl, rfl, rfl⟩
      (Said.heard_plain _)
  rw [hindexed, hfinal, ← map_fst_written_allOutputs c, List.pairwise_map] at hapart
  rw [hprepare] at hkept
  simp only [Except.toOption, Option.any_some, hopened, Bool.and_eq_true, decide_eq_true_eq]
    at hkept
  obtain ⟨⟨hplace, hlocated⟩, hnode⟩ := hkept
  refine ⟨hapart, fun path hpath place hlog => ?_, fun place hlog => ?_⟩
  · rw [hplace] at hlog
    cases hpath
    cases hlog
    exact Log.eq_ok_of_toOption hlocated
  · rw [hplace] at hlog
    cases hlog
    exact hnode

theorem run_succeeds_iff_rejecting :
    ∃ c, Command.ofArguments ("run" :: allOutputs) = .ok (.run allOutputsArguments) ∧
      Completes rejecting allOutputsArguments beforeRun.world c ∧
      (c.said rejecting allOutputsArguments).Heard .plain ∧
      (∃ v ∈ c.plan.verdicts rejecting allOutputsArguments c.opened, v.passed = false) ∧
      (execute rejecting ("run" :: allOutputs) beforeRun.world).1 = 1 ∧
      (c.written rejecting allOutputsArguments).map Prod.fst =
        ["l.jsonl", "r.md", "r.json", "i.json"] ∧
      Separate rejecting allOutputsArguments c ∧
      ∀ x ∈ c.written rejecting allOutputsArguments,
        c.final.Holds [] x.1 (Text.bytesOf x.2) := by
  have hargs : Command.ofArguments ("run" :: allOutputs) = .ok (.run allOutputsArguments) :=
    Log.eq_ok_of_toOption (by decide +kernel)
  have hfailing : (((indexed rejecting allOutputsArguments).run beforeRun).1.toOption.any fun x =>
      x.1.summary.allPassed = false) = true := by
    decide +kernel
  obtain ⟨c, hcompletes, hfailed, -⟩ := exists_completes_of_failing hfailing
  have hseparate := separate_allOutputs hcompletes
  have hheard := Said.heard_plain (c.said rejecting allOutputsArguments)
  obtain ⟨-, hcomplete, hexecute⟩ :=
    run_succeeds_iff rejecting allOutputsArguments beforeRun.world
  obtain ⟨hone, -, hholds, -⟩ := hcomplete c hcompletes hheard
  have hsame := hexecute ("run" :: allOutputs)
  rw [hargs] at hsame
  refine ⟨c, hargs, hcompletes, hheard, hfailed, ?_, map_fst_written_allOutputs c, hseparate,
    hholds hseparate⟩
  rw [hsame rfl]
  exact hone hfailed

-- Tools that all succeed, but take the log away.
def removing : Station Unit :=
  { succeeding with
    invoker := fun _ w => (.ok { status := .exited 0, elapsedMs := 0 },
      { w with files := w.files.without ["l.jsonl"] }) }

-- Tools that fail, and leave a link to an empty file where the log was.
def replacing : Station Unit :=
  { succeeding with
    invoker := fun _ w => (.ok { status := .exited 1, elapsedMs := 0 },
      { w with files := (w.files.set ["l.jsonl"] (.link "e")).set ["e"] (.file [] false) }) }

def logFlags : List String :=
  ["run", "--catalog", "k.json", "--log", "l.jsonl"]

def logOnly : RunArguments :=
  { catalog := some "k.json", log := some "l.jsonl" }

theorem ofArguments_logFlags : Command.ofArguments logFlags = .ok (.run logOnly) :=
  Log.eq_ok_of_toOption (by decide +kernel)

theorem failing_replacing : (((indexed replacing logOnly).run beforeRun).1.toOption.any fun x =>
    x.1.summary.allPassed = false) = true := by
  decide +kernel

theorem not_holds_replaced (c : Course Unit) :
    ¬((indexed replacing logOnly).run beforeRun).2.world.files.Holds [] "l.jsonl"
      (Text.bytesOf (c.plan.book replacing logOnly c.opened).text) := by
  intro hholds
  have hfile : (((indexed replacing logOnly).run beforeRun).2.world.files.fileOf? []
      "l.jsonl").isSome = true := by
    decide +kernel
  have hempty : ((indexed replacing logOnly).run beforeRun).2.world.files.readBytes []
      "l.jsonl" = .ok [] :=
    Log.eq_ok_of_toOption (by decide +kernel)
  rw [hholds.readBytes_eq hfile (by decide +kernel)] at hempty
  exact Book.bytesOf_text_ne_nil (entries_book_ne_nil _ _ _ _) (Except.ok.inj hempty)

theorem execute_logFlags (station : Station Unit) (w : World Unit) :
    execute station logFlags w = finish station (.run logOnly) w := by
  rw [execute, ofArguments_logFlags]

-- When the tools take the log away, nothing that is written or said fails and all passes, but the
-- run fails for the digest of its log, which nothing asked for. When they put something else in
-- its place, a run fails for its fixtures alone, and its log is lost.
theorem log_taken_away :
    (∃ c, Command.ofArguments logFlags = .ok (.run logOnly) ∧
      Unhindered removing logOnly beforeRun.world c ∧ (c.said removing logOnly).Heard .plain ∧
      (∀ v ∈ c.plan.verdicts removing logOnly c.opened, v.passed = true) ∧
      (execute removing logFlags beforeRun.world).1 = 1) ∧
    ∃ c, Command.ofArguments logFlags = .ok (.run logOnly) ∧
      Completes replacing logOnly beforeRun.world c ∧ (c.said replacing logOnly).Heard .plain ∧
      (∃ v ∈ c.plan.verdicts replacing logOnly c.opened, v.passed = false) ∧
      (execute replacing logFlags beforeRun.world).1 = 1 ∧
      ("l.jsonl", (c.plan.book replacing logOnly c.opened).text) ∈ c.written replacing logOnly ∧
      ¬c.final.Holds [] "l.jsonl"
        (Text.bytesOf (c.plan.book replacing logOnly c.opened).text) := by
  constructor
  · have hends : ((((prepare removing logOnly >>= fun plan => plan.run removing logOnly).run
        beforeRun).1.toOption.any fun done => done.summary.allPassed) &&
        (execute removing logFlags beforeRun.world).1 = 1) = true := by
      decide +kernel
    obtain ⟨hall, hstatus⟩ := Bool.and_eq_true_iff.mp hends
    rcases hrun : (prepare removing logOnly >>= fun plan => plan.run removing logOnly).run
      beforeRun with ⟨e | done, s'⟩
    · rw [hrun] at hall
      cases hall
    rw [hrun] at hall
    obtain ⟨_, ⟨plan, opened, _, _, ⟨hprepares, rfl⟩, ⟨⟨hruns, rfl, -⟩, rfl⟩, rfl⟩, -⟩ :=
      ((speaks_prepare removing logOnly).bind speaks_run_plan beforeRun done s').mp hrun
    refine ⟨⟨plan, opened, s'.world.files, s'.world.files, s'.world.files,
      emptyIndex removing logOnly⟩, ofArguments_logFlags, ⟨hprepares, hruns, rfl, rfl⟩,
      Said.heard_plain _, ?_, of_decide_eq_true hstatus⟩
    exact plan.allPassed_iff.mp hall
  · obtain ⟨c, hcompletes, hfailed, hfinal⟩ := exists_completes_of_failing failing_replacing
    have hheard := Said.heard_plain (c.said replacing logOnly)
    have hstatus := (finish_of_completes hcompletes hheard).1
    rw [c.plan.not_allPassed_iff.mpr hfailed, ← execute_logFlags] at hstatus
    refine ⟨c, ofArguments_logFlags, hcompletes, hheard, hfailed, hstatus, ?_, ?_⟩
    · rw [Course.written]
      exact List.mem_append_left _ (List.mem_singleton_self _)
    · rw [hfinal]
      exact not_holds_replaced c

end Conformance.CommandLine
