import Conformance.Proofs.Fixture.Deciding
import Conformance.Proofs.Fixture.Protocol
import Conformance.Proofs.Verdict.Passing

namespace Conformance

namespace Stage

-- The stages that are entered up to one, itself included.
def upTo : Stage → List Stage
  | compile => [compile]
  | assemble => [compile, assemble]
  | emulate => [compile, assemble, emulate]

theorem take_length_upTo (s : Stage) : all.take s.upTo.length = s.upTo := by
  cases s <;> rfl

end Stage

namespace Fixture

variable {f : Fixture} {host : Host} {config : Config} {dir : Path}

-- What is called can be told from the records.
theorem KeepsProtocol.invocation_eq {calls : List Call} {outcome : Outcome}
    {stages : List StageRecord} (h : f.KeepsProtocol host config dir calls outcome stages) :
    calls.map Call.invocation =
      (stages.map StageRecord.stage).map (f.command host config dir) := by
  rw [h.order]
  exact h.invoked

-- As many calls as lead up to a stage are the calls that lead up to it.
theorem KeepsProtocol.invocation_eq_upTo_iff {calls : List Call} {outcome : Outcome}
    {stages : List StageRecord} (h : f.KeepsProtocol host config dir calls outcome stages)
    (s : Stage) :
    calls.map Call.invocation = s.upTo.map (f.command host config dir) ↔
      stages.map StageRecord.stage = s.upTo := by
  constructor
  · intro hcalls
    have hlength : calls.length = s.upTo.length := by
      simpa using congrArg List.length hcalls
    rw [h.order, hlength, Stage.take_length_upTo]
  · intro hstages
    rw [h.invocation_eq, hstages]

-- The outcome and the records that tell of a crash in which nothing follows.
def CrashedAt (r : StageRecord) (seen : Outcome × List StageRecord) : Prop :=
  seen.1 = .crashed r.stage r.status.message ∧ seen.2.map StageRecord.stage = r.stage.upTo

theorem ofFailure_of_flooded {r : StageRecord} {limit : Nat}
    (h : r.status = .outputLimitExceeded limit) (s : Stage) :
    Outcome.ofFailure s r.status = .crashed s r.status.message := by
  rw [h]
  rfl

-- The stages end with a crash where the limit was passed, unless this was the assembler's
-- doing: its record is not looked at, and the emulator is called as ever.
theorem drive_crashedAt_iff {σ : Type} {invoker : Invoker σ} {w : World σ} {r : StageRecord}
    {limit : Nat} (hr : r ∈ (f.drive host config invoker dir w).1.2)
    (hflooded : r.status = .outputLimitExceeded limit) :
    CrashedAt r (f.drive host config invoker dir w).1 ↔ r.stage ≠ .assemble := by
  have hcompile : (f.compiling host config invoker dir w).1.stage = .compile :=
    stage_run host config dir _ .compile _
  have hassemble : (f.assembling host config invoker dir w).1.stage = .assemble :=
    stage_run host config dir _ .assemble _
  have hemulate : (f.emulating host config invoker dir w).1.stage = .emulate :=
    stage_run host config dir _ .emulate _
  have hcourse := f.drive_course host config invoker dir w
  generalize f.drive host config invoker dir w = seen at hcourse hr ⊢
  cases hcourse with
  | halted h =>
      obtain rfl := List.mem_singleton.mp hr
      refine iff_of_true ⟨?_, ?_⟩ (by simp [hcompile])
      · rw [hcompile]
        exact ofFailure_of_flooded hflooded .compile
      · simp [hcompile, Stage.upTo]
  | rejected code h hne =>
      obtain rfl := List.mem_singleton.mp hr
      cases h.symm.trans hflooded
  | accepted h hx =>
      obtain rfl := List.mem_singleton.mp hr
      cases h.symm.trans hflooded
  | executed h hx =>
      simp only [List.mem_cons, List.not_mem_nil, or_false] at hr
      rcases hr with rfl | rfl | rfl
      · cases h.symm.trans hflooded
      · refine iff_of_false ?_ (by simp [hassemble])
        rintro ⟨-, hstages⟩
        simp [hassemble, Stage.upTo] at hstages
      · refine iff_of_true ⟨?_, ?_⟩ (by simp [hemulate])
        · rw [hemulate, hflooded]
          rfl
        · simp [hcompile, hassemble, hemulate, Stage.upTo]

end Fixture

-- A captured stream that grew past its limit ends a fixture with a crash at its stage, with
-- no call of a later one and with a verdict that fails, exactly as long as it is not one of
-- the assembler's.
theorem flooded_stage_crashes_iff {σ : Type} (f : Fixture) (host : Host) (config : Config)
    (invoker : Invoker σ) (w : World σ) :
    ∃ dir calls, f.run host config (noting invoker) (w.noted []) =
        ((f.run host config invoker w).1, (f.run host config invoker w).2.noted calls) ∧
      ∀ r ∈ (f.run host config invoker w).1.stages, ∀ limit,
        r.status = .outputLimitExceeded limit →
        (((f.run host config invoker w).1.outcome = .crashed r.stage r.status.message ∧
            calls.map Call.invocation = r.stage.upTo.map (f.command host config dir) ∧
            (classify f (f.run host config invoker w).1 config).passed = false) ↔
          r.stage ≠ .assemble) := by
  have hfiles : (w.noted []).files = w.files := rfl
  unfold Fixture.run
  rw [hfiles]
  rcases Scratch.create host config f w.files with ⟨_ | scratch, files⟩
  · exact ⟨"", [], rfl, nofun⟩
  · obtain ⟨calls, hdrive, hprotocol⟩ :=
      f.exists_calls_drive host config invoker scratch.path { w with files := files }
    have hworld : { w.noted [] with files := files } = World.noted { w with files := files } [] :=
      rfl
    refine ⟨scratch.path, calls, ?_, fun r hr limit hflooded => ?_⟩
    · dsimp only
      rw [hworld, hdrive]
      rfl
    · dsimp only at hr ⊢
      rw [← Fixture.drive_crashedAt_iff hr hflooded, hprotocol.invocation_eq_upTo_iff]
      refine ⟨fun h => ⟨h.1, h.2.1⟩, fun h => ⟨h.1, h.2, ?_⟩⟩
      rw [Bool.eq_false_iff]
      exact fun hpassed => Fixture.crashed_ne_goal _ _ _
        (h.1.symm.trans ((Expectation.isMetBy_iff _ _).mp hpassed))

-- A program that is to exit with 0, with streams that may hold two thousand bytes.
def printing : Fixture :=
  ⟨"print.wacc", .valid, "valid/print.wacc", none⟩

def Config.narrow : Config :=
  { captureLimitBytes := 2048 }

-- One of the tools writes too much, and the others exit with 0.
def flooding (program : String) : Invoker Unit :=
  answering fun p => if p = program then .outputLimitExceeded 2048 else .exited 0

theorem flooded_compiler_crashes :
    ∃ r ∈ (printing.run .plain .narrow (flooding "./compile") ⟨Tree.empty, ()⟩).1.stages,
      r.status = .outputLimitExceeded 2048 ∧ r.stage ≠ .assemble ∧
        (printing.run .plain .narrow (flooding "./compile") ⟨Tree.empty, ()⟩).1.outcome =
          .crashed r.stage "output exceeded 2048 bytes" ∧
        (classify printing (printing.run .plain .narrow (flooding "./compile")
          ⟨Tree.empty, ()⟩).1 .narrow).passed = false := by
  obtain ⟨dir, calls, -, hiff⟩ := flooded_stage_crashes_iff printing .plain .narrow
    (flooding "./compile") ⟨Tree.empty, ()⟩
  have hflooded : ∃ r ∈ (printing.run .plain .narrow (flooding "./compile")
      ⟨Tree.empty, ()⟩).1.stages,
      r.status = .outputLimitExceeded 2048 ∧ r.stage ≠ .assemble := by
    decide +kernel
  obtain ⟨r, hr, hstatus, hstage⟩ := hflooded
  obtain ⟨houtcome, -, hfails⟩ := (hiff r hr 2048 hstatus).mpr hstage
  rw [hstatus] at houtcome
  exact ⟨r, hr, hstatus, hstage, houtcome.trans rfl, hfails⟩

-- The assembler is killed for what it wrote, and the fixture passes.
theorem flooded_assembler_passes :
    Config.narrow.captureDiagnostics = true ∧
      (∃ r ∈ (printing.run .plain .narrow (flooding Config.narrow.toolchain.assembler)
          ⟨Tree.empty, ()⟩).1.stages,
        r.stage = .assemble ∧ r.status = .outputLimitExceeded 2048) ∧
      (printing.run .plain .narrow (flooding Config.narrow.toolchain.assembler)
        ⟨Tree.empty, ()⟩).1.outcome = .exited 0 ∧
      (classify printing (printing.run .plain .narrow
        (flooding Config.narrow.toolchain.assembler) ⟨Tree.empty, ()⟩).1
        .narrow).passed = true := by
  decide +kernel

end Conformance
