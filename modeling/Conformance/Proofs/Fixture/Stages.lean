import Conformance.Fixture.Run
import Mathlib.Tactic.SplitIfs

namespace Conformance

-- What the stages of a fixture come to, with the world behind them, when the
-- readings of the three stages are given. The reading of the assembler decides
-- nothing, and those of stages that are not carried out are not looked at.
inductive Course (accepted : Int) (executes : Bool)
    (compiled assembled emulated : StageRecord × World σ) :
    (Outcome × List StageRecord) × World σ → Prop
  | halted (h : ∀ code, compiled.1.status ≠ .exited code) :
      Course accepted executes compiled assembled emulated
        ((.ofFailure .compile compiled.1.status, [compiled.1]), compiled.2)
  | rejected (code : Int) (h : compiled.1.status = .exited code) (hne : code ≠ accepted) :
      Course accepted executes compiled assembled emulated
        ((.rejectedAs code, [compiled.1]), compiled.2)
  | accepted (h : compiled.1.status = .exited accepted) (hx : executes = false) :
      Course accepted executes compiled assembled emulated ((.accepted, [compiled.1]), compiled.2)
  | executed (h : compiled.1.status = .exited accepted) (hx : executes = true) :
      Course accepted executes compiled assembled emulated
        ((Fixture.emulatedOutcome emulated.1.status, [compiled.1, assembled.1, emulated.1]),
          emulated.2)

namespace Fixture

theorem currentDir_prepare (s : Stage) (config : Config) (dir : Path) (i : Invocation) :
    (s.prepare config dir i).currentDir = some dir := by
  unfold Stage.prepare
  split_ifs <;> rfl

theorem timeoutMs_prepare (s : Stage) (config : Config) (dir : Path) (i : Invocation) :
    (s.prepare config dir i).timeoutMs = i.timeoutMs := by
  unfold Stage.prepare
  split_ifs <;> rfl

variable {σ : Type} (f : Fixture) (host : Host) (config : Config) (invoker : Invoker σ)
  (dir : Path) (w : World σ)

-- The stages of a fixture in one directory, each carried out where the one
-- before it left the world, whatever that one showed.
def compiling : StageRecord × World σ :=
  Stage.compile.run host config invoker dir (f.compileCommand host config) w

def assembling : StageRecord × World σ :=
  Stage.assemble.run host config invoker dir (f.assembleCommand config)
    (f.compiling host config invoker dir w).2

def emulating : StageRecord × World σ :=
  Stage.emulate.run host config invoker dir (emulateCommand config)
    (f.assembling host config invoker dir w).2

theorem drive_course :
    Course config.codes.accepted (f.executes config) (f.compiling host config invoker dir w)
      (f.assembling host config invoker dir w) (f.emulating host config invoker dir w)
      (f.drive host config invoker dir w) := by
  unfold drive
  split
  rename_i compiled w' hcompiled
  have hc : f.compiling host config invoker dir w = (compiled, w') := hcompiled
  split
  · rename_i code h
    by_cases hne : code ≠ config.codes.accepted
    · rw [if_pos hne, hc]
      exact .rejected code h hne
    · rw [if_neg hne]
      have he : code = config.codes.accepted := Decidable.of_not_not hne
      split
      · rename_i hx
        have ha : Stage.assemble.run host config invoker dir (f.assembleCommand config) w' =
            f.assembling host config invoker dir w := by
          rw [assembling, hc]
        rw [ha, hc]
        exact .executed (he ▸ h) hx
      · rename_i hx
        rw [hc]
        exact .accepted (he ▸ h) (Bool.not_eq_true _ ▸ hx)
  · rename_i h
    rw [hc]
    exact .halted h

end Fixture

-- A host at the root, with one name for everything new.
def Host.plain : Host :=
  { cwd := [], temporary := "/tmp", freshEnd := "new", clock := fun _ => "" }

-- All artifacts are kept, in a directory at the root.
def Config.keeping : Config :=
  { keepArtifacts := true, workDir := some "/work" }

-- Tools that answer by the name of the program, in no time and without a trace.
def answering (answer : String → Status) : Invoker Unit := fun i w =>
  (.ok { status := answer i.program, elapsedMs := 0 }, w)

end Conformance
