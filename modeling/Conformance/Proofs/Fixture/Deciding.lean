import Conformance.Log.Book
import Conformance.Proofs.Fixture.Stages

namespace Conformance

-- Codes of 32 bits, as the system hands them on.
def ExitsInRange {σ : Type} (invoker : Invoker σ) : Prop :=
  ∀ i w result code, (invoker i w).1 = .ok result → result.status = .exited code →
    -2147483648 ≤ code ∧ code ≤ 2147483647

namespace Fixture

section Deciding

variable {σ : Type} (f : Fixture) (host : Host) (config : Config) {invoker : Invoker σ}
  (dir : Path) (w : World σ)

theorem stage_run (s : Stage) (i : Invocation) :
    (s.run host config invoker dir i w).1.stage = s := by
  unfold Stage.run Stage.note
  dsimp only
  split <;> rfl

theorem code_run (hcodes : ExitsInRange invoker) {s : Stage} {i : Invocation} {code : Int}
    (h : (s.run host config invoker dir i w).1.status = .exited code) :
    -2147483648 ≤ code ∧ code ≤ 2147483647 := by
  unfold Stage.run Stage.note at h
  dsimp only at h
  split at h
  · rename_i result hresult
    exact hcodes _ _ _ _ hresult h
  · cases h

theorem decidingStage_ofFailure (s : Stage) (status : Status) :
    Log.Entry.decidingStage (.ofFailure s status) = s := by
  cases status <;> rfl

theorem decidingStage_emulatedOutcome (status : Status) :
    Log.Entry.decidingStage (emulatedOutcome status) = .emulate := by
  cases status <;> rfl

theorem codeOf_ofFailure (s : Stage) (status : Status) :
    Log.Entry.codeOf (.ofFailure s status) = none := by
  cases status <;> rfl

-- The stage that decides an outcome is the last one that was entered. Without a
-- directory none is entered, and it counts as the compiler's.
theorem decidingStage_run :
    Log.Entry.decidingStage (f.run host config invoker w).1.outcome =
      ((f.run host config invoker w).1.stages.getLast?.map StageRecord.stage).getD .compile := by
  unfold run
  split
  · rfl
  · rename_i scratch files hscratch
    dsimp only
    have hcourse := f.drive_course host config invoker scratch.path { w with files := files }
    generalize f.drive host config invoker scratch.path { w with files := files } = seen at hcourse
    cases hcourse with
    | halted h => simp [decidingStage_ofFailure, compiling, stage_run]
    | rejected code h hne => simp [Log.Entry.decidingStage, compiling, stage_run]
    | accepted h hx => simp [Log.Entry.decidingStage, compiling, stage_run]
    | executed h hx => simp [decidingStage_emulatedOutcome, emulating, stage_run]

theorem codeOf_run (hcodes : ExitsInRange invoker) :
    ∀ code ∈ Log.Entry.codeOf (f.run host config invoker w).1.outcome,
      -2147483648 ≤ code ∧ code ≤ 2147483647 := by
  unfold run
  split
  · exact nofun
  · rename_i scratch files hscratch
    dsimp only
    have hcourse := f.drive_course host config invoker scratch.path { w with files := files }
    generalize f.drive host config invoker scratch.path { w with files := files } = seen at hcourse
    cases hcourse with
    | halted h => simp [codeOf_ofFailure]
    | rejected code h hne =>
        rintro _ ⟨⟩
        exact code_run host config scratch.path _ hcodes h
    | accepted h hx => exact nofun
    | executed h hx =>
        intro code hcode
        generalize (f.emulating host config invoker scratch.path
          { w with files := files }).1.status = status at hcode
        cases status with
        | exited n =>
            cases hcode
            have := Int.emod_lt_of_pos n (b := 256) (by decide)
            have := Int.emod_nonneg n (b := 256) (by decide)
            simp only [normalExitCode]
            omega
        | _ => cases hcode

end Deciding

end Fixture

end Conformance
