import Conformance.Proofs.Fixture.Stages
import Conformance.Verdict
import Mathlib.Data.Int.ModEq

namespace Conformance

namespace Expectation

-- The one outcome that meets an expectation.
def goal : Expectation → Outcome
  | rejectedWith code => .rejectedAs code
  | accepted => .accepted
  | exitsWith code => .exited code

theorem isMetBy_iff (e : Expectation) (o : Outcome) : e.isMetBy o = true ↔ o = e.goal := by
  cases e <;> cases o <;> simp [isMetBy, goal]

end Expectation

-- A configuration without a flaw tells the categories apart by their codes.
theorem Config.codes_ne {config : Config} (hv : config.flaw? = none) :
    config.codes.syntaxRejected ≠ config.codes.accepted ∧
      config.codes.semanticRejected ≠ config.codes.accepted := by
  have hcodes : ¬(config.codes.accepted = config.codes.syntaxRejected ∨
      config.codes.accepted = config.codes.semanticRejected ∨
      config.codes.syntaxRejected = config.codes.semanticRejected) := by
    intro h
    simp only [flaw?, h, if_true] at hv
    split_ifs at hv
  push Not at hcodes
  exact ⟨hcodes.1.symm, hcodes.2.1.symm⟩

theorem Config.expected_ne_accepted {config : Config} (hv : config.flaw? = none)
    {category : Category} (hc : category ≠ .valid) :
    config.codes.expected category ≠ config.codes.accepted := by
  obtain ⟨hrejected, hsemantic⟩ := config.codes_ne hv
  cases category with
  | valid => exact absurd rfl hc
  | syntaxInvalid => exact hrejected
  | semanticInvalid => exact hsemantic

namespace Fixture

-- The code a program is expected to exit with, before it is taken modulo 256.
def wantedCode (f : Fixture) (config : Config) : Int :=
  f.expectedExit.getD config.defaultExitCode

-- What the tools have to answer for a fixture to pass.
def Shows (f : Fixture) (host : Host) (config : Config) (invoker : Invoker σ) (dir : Path)
    (w : World σ) : Prop :=
  match f.category with
  | .valid =>
      (f.compiling host config invoker dir w).1.status = .exited config.codes.accepted ∧
        (config.frontEndOnly = false → ∃ code,
          (f.emulating host config invoker dir w).1.status = .exited code ∧
            code ≡ f.wantedCode config [ZMOD 256])
  | category =>
      (f.compiling host config invoker dir w).1.status = .exited (config.codes.expected category)

theorem emulatedOutcome_eq_exited_iff (status : Status) (n : Nat) :
    emulatedOutcome status = .exited n ↔
      ∃ code, status = .exited code ∧ normalExitCode code = n := by
  cases status <;> simp [emulatedOutcome, Outcome.ofFailure]

-- A code that a fixture names is normalized in its expectation, the default one as well.
theorem normalExitCode_wantedCode (f : Fixture) (config : Config) :
    normalExitCode (f.wantedCode config) =
      f.expectedExitCode.getD (normalExitCode config.defaultExitCode) := by
  cases h : f.expectedExit <;> simp [wantedCode, expectedExitCode, h]

theorem crashed_ne_goal (s : Stage) (detail : String) (e : Expectation) :
    Outcome.crashed s detail ≠ e.goal := by
  cases e <;> simp [Expectation.goal]

theorem ofFailure_ne_goal (s : Stage) (status : Status) (e : Expectation) :
    Outcome.ofFailure s status ≠ e.goal := by
  cases status with
  | timedOut => cases e <;> simp [Outcome.ofFailure, Expectation.goal]
  | _ => exact crashed_ne_goal s _ e

section Goal

variable {σ : Type} {f : Fixture} {host : Host} {config : Config} {invoker : Invoker σ}
  {dir : Path} {w : World σ}

theorem Shows.exists_code (h : f.Shows host config invoker dir w) :
    ∃ code, (f.compiling host config invoker dir w).1.status = .exited code := by
  unfold Shows at h
  split at h
  · exact ⟨_, h.1⟩
  · exact ⟨_, h⟩

theorem shows_valid_iff (hc : f.category = .valid)
    (ha : (f.compiling host config invoker dir w).1.status = .exited config.codes.accepted) :
    f.Shows host config invoker dir w ↔ (config.frontEndOnly = false → ∃ code,
      (f.emulating host config invoker dir w).1.status = .exited code ∧
        code ≡ f.wantedCode config [ZMOD 256]) := by
  simp only [Shows, hc, ha, true_and]

theorem shows_invalid_iff (hc : f.category ≠ .valid) :
    f.Shows host config invoker dir w ↔ (f.compiling host config invoker dir w).1.status =
      .exited (config.codes.expected f.category) := by
  cases h : f.category with
  | valid => exact absurd h hc
  | syntaxInvalid => simp only [Shows, h]
  | semanticInvalid => simp only [Shows, h]

theorem goal_invalid (hc : f.category ≠ .valid) :
    (Expectation.ofFixture f config).goal = .rejectedAs (config.codes.expected f.category) := by
  cases h : f.category with
  | valid => exact absurd h hc
  | syntaxInvalid => simp only [Expectation.ofFixture, h, Expectation.goal]
  | semanticInvalid => simp only [Expectation.ofFixture, h, Expectation.goal]

theorem goal_valid (hc : f.category = .valid) :
    (Expectation.ofFixture f config).goal =
      if config.frontEndOnly then .accepted
      else .exited (normalExitCode (f.wantedCode config)) := by
  rw [normalExitCode_wantedCode]
  simp only [Expectation.ofFixture, hc]
  split <;> rfl

-- The outcome of the stages meets the expectation of the fixture exactly when
-- the tools answered as they have to.
theorem drive_outcome_eq_goal_iff (hv : config.flaw? = none) :
    (f.drive host config invoker dir w).1.1 = (Expectation.ofFixture f config).goal ↔
      f.Shows host config invoker dir w := by
  have hcourse := f.drive_course host config invoker dir w
  generalize f.drive host config invoker dir w = seen at hcourse ⊢
  cases hcourse with
  | halted h =>
      constructor
      · intro hgoal
        exact absurd hgoal (ofFailure_ne_goal _ _ _)
      · intro hshows
        obtain ⟨code, hcode⟩ := hshows.exists_code
        exact absurd hcode (h code)
  | rejected code h hne =>
      by_cases hc : f.category = .valid
      · have hgoal : (Expectation.ofFixture f config).goal ≠ .rejectedAs code := by
          rw [goal_valid hc]
          split <;> simp
        have hshows : ¬f.Shows host config invoker dir w := by
          simp only [Shows, hc, h, Status.exited.injEq, hne, false_and, not_false_eq_true]
        exact iff_of_false hgoal.symm hshows
      · rw [goal_invalid hc, shows_invalid_iff hc, h]
        simp only [Outcome.rejectedAs.injEq, Status.exited.injEq]
  | accepted h hx =>
      by_cases hc : f.category = .valid
      · have hf : config.frontEndOnly = true := by
          simpa [executes, Category.executes, hc] using hx
        rw [goal_valid hc, shows_valid_iff hc h]
        simp [hf]
      · have hne := config.expected_ne_accepted hv hc
        rw [goal_invalid hc, shows_invalid_iff hc, h]
        simp [hne.symm]
  | executed h hx =>
      obtain ⟨hc, hf⟩ : f.category = .valid ∧ config.frontEndOnly = false := by
        simpa [executes, Category.executes] using hx
      rw [goal_valid hc, shows_valid_iff hc h]
      simp only [hf, Bool.false_eq_true, if_false, forall_const, emulatedOutcome_eq_exited_iff,
        normalExitCode_eq_iff, Int.ModEq]

-- Without a directory nothing is run, and the fixture crashed.
theorem run_outcome_eq_goal_iff (hv : config.flaw? = none) :
    (f.run host config invoker w).1.outcome = (Expectation.ofFixture f config).goal ↔
      ∃ scratch files, Scratch.create host config f w.files = (.ok scratch, files) ∧
        f.Shows host config invoker scratch.path { w with files := files } := by
  unfold run
  rcases hcreate : Scratch.create host config f w.files with ⟨result, files⟩
  cases result with
  | error e =>
      have hgoal : Outcome.crashed .compile ("scratch_dir_failed error=" ++ e.message) ≠
          (Expectation.ofFixture f config).goal :=
        crashed_ne_goal _ _ _
      simpa using hgoal
  | ok scratch =>
      simp only [Prod.mk.injEq, Except.ok.injEq]
      rw [drive_outcome_eq_goal_iff hv]
      constructor
      · intro hshows
        exact ⟨scratch, files, ⟨rfl, rfl⟩, hshows⟩
      · rintro ⟨_, _, ⟨rfl, rfl⟩, hshows⟩
        exact hshows

end Goal

end Fixture

-- A fixture passes exactly when it got a directory and the tools answered in it
-- as they have to. The records of its stages are kept unless it passes.
theorem classify_run_passed_iff {σ : Type} (f : Fixture) (host : Host) (config : Config)
    (invoker : Invoker σ) (w : World σ) (hv : config.flaw? = none) :
    ((classify f (f.run host config invoker w).1 config).passed = true ↔
      ∃ scratch files, Scratch.create host config f w.files = (.ok scratch, files) ∧
        f.Shows host config invoker scratch.path { w with files := files }) ∧
    (classify f (f.run host config invoker w).1 config).stages =
      if (classify f (f.run host config invoker w).1 config).passed then []
      else (f.run host config invoker w).1.stages := by
  refine ⟨?_, rfl⟩
  rw [← Fixture.run_outcome_eq_goal_iff hv]
  exact Expectation.isMetBy_iff _ _

-- A program that is to exit with -1 is seen to exit with 255. That the linker
-- was killed does not matter.
theorem classify_run_passed_negative_code :
    ({} : Config).flaw? = none ∧
      (classify ⟨"exit-1.wacc", .valid, "valid/exit-1.wacc", some (-1)⟩
        (Fixture.run ⟨"exit-1.wacc", .valid, "valid/exit-1.wacc", some (-1)⟩ .plain {}
          (answering fun p => if p = "qemu-arm" then .exited 255
            else if p = "./compile" then .exited 0 else .signaled (some 9))
          ⟨Tree.empty, ()⟩).1 {}).passed = true := by
  have hv : ({} : Config).flaw? = none := by decide +kernel
  refine ⟨hv, (classify_run_passed_iff _ _ _ _ _ hv).1.mpr ?_⟩
  have hcreate : Scratch.create .plain {} ⟨"exit-1.wacc", .valid, "valid/exit-1.wacc", some (-1)⟩
      Tree.empty = (.ok (.temporary "/tmp/wacc-exit-1.wacc-new"),
        ⟨[(["tmp"], .directory), (["tmp", "wacc-exit-1.wacc-new"], .directory)]⟩) := by
    decide +kernel
  exact ⟨_, _, hcreate, rfl, fun _ => ⟨255, rfl, by decide⟩⟩

end Conformance
