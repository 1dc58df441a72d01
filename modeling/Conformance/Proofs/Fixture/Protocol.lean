import Conformance.Proofs.Fixture.Stages

namespace Conformance

-- One call of a tool, and what came back.
structure Call where
  invocation : Invocation
  reply : Except InvokeError InvocationResult

-- How a called tool ended. One that could not be watched to its end counts as not launched.
def Call.status (c : Call) : Status :=
  match c.reply with
  | .ok result => result.status
  | .error e => .launchFailed ("invoke_error error=" ++ e.message)

-- The world of an invoker that keeps a note of its calls.
def World.noted {σ : Type} (w : World σ) (calls : List Call) : World (σ × List Call) :=
  ⟨w.files, (w.tools, calls)⟩

-- The same invoker with a note of each call and of its reply, in order.
def noting {σ : Type} (invoker : Invoker σ) : Invoker (σ × List Call) := fun i w =>
  let (reply, after) := invoker i ⟨w.files, w.tools.1⟩
  (reply, after.noted (w.tools.2 ++ [⟨i, reply⟩]))

namespace Stage

-- How long a stage may take.
def bound? (config : Config) : Stage → Option Nat
  | compile => config.compileTimeoutMs
  | assemble => none
  | emulate => some config.emulateTimeoutMs

end Stage

-- The outcome that the record of the last stage stands for.
def Outcome.ofLast (accepted : Int) (r : StageRecord) : Outcome :=
  match r.status with
  | .exited code =>
      if r.stage = .emulate then .exited (code % 256).toNat
      else if code = accepted then .accepted
      else .rejectedAs code
  | .timedOut => .timedOut r.stage
  | status => .crashed r.stage status.message

namespace Fixture

-- What the tools are asked for in each stage.
def command (f : Fixture) (host : Host) (config : Config) (dir : Path) (s : Stage) : Invocation :=
  s.prepare config dir <| match s with
    | .compile => f.compileCommand host config
    | .assemble => f.assembleCommand config
    | .emulate => emulateCommand config

-- How the calls that are made for a fixture in a directory and what is seen of it go
-- together.
structure KeepsProtocol (f : Fixture) (host : Host) (config : Config) (dir : Path)
    (calls : List Call) (outcome : Outcome) (stages : List StageRecord) : Prop where
  -- the stages are entered in their order, with one call and one record each
  order : stages.map StageRecord.stage = Stage.all.take calls.length
  invoked : calls.map Call.invocation =
    (Stage.all.take calls.length).map (f.command host config dir)
  noted : stages.map (fun r => (r.command, r.status)) =
    calls.map fun c => (c.invocation.command, c.status)
  placed : ∀ c ∈ calls, c.invocation.currentDir = some dir
  bounded : calls.map (fun c => c.invocation.timeoutMs) =
    (Stage.all.take calls.length).map (Stage.bound? config)
  -- the compiler is always called, the assembler only for what it accepted, and the
  -- emulator whatever the assembler did
  compiled : ∃ r ∈ stages, r.stage = .compile
  assembled_iff : (∃ r ∈ stages, r.stage = .assemble) ↔
    (∃ r ∈ stages, r.stage = .compile ∧ r.status = .exited config.codes.accepted) ∧
      f.category = .valid ∧ config.frontEndOnly = false
  emulated_iff : (∃ r ∈ stages, r.stage = .emulate) ↔ ∃ r ∈ stages, r.stage = .assemble
  decided : ∃ last, stages.getLast? = some last ∧
    outcome = .ofLast config.codes.accepted last

end Fixture

-- The readings leave one course only.
theorem Course.unique {σ : Type} {accepted : Int} {executes : Bool}
    {compiled assembled emulated : StageRecord × World σ}
    {seen seen' : (Outcome × List StageRecord) × World σ}
    (h : Course accepted executes compiled assembled emulated seen)
    (h' : Course accepted executes compiled assembled emulated seen') : seen = seen' := by
  cases h <;> cases h' <;> simp_all

namespace Fixture

-- A call and a record of the same stage.
structure Noted (f : Fixture) (host : Host) (config : Config) (dir : Path) (s : Stage) (c : Call)
    (r : StageRecord) : Prop where
  invocation : c.invocation = f.command host config dir s
  stage : r.stage = s
  command : r.command = c.invocation.command
  status : r.status = c.status

section Protocol

variable {f : Fixture} {host : Host} {config : Config} {dir : Path}

theorem currentDir_command (s : Stage) : (f.command host config dir s).currentDir = some dir :=
  currentDir_prepare s config dir _

theorem timeoutMs_command (s : Stage) :
    (f.command host config dir s).timeoutMs = s.bound? config := by
  unfold command
  rw [timeoutMs_prepare]
  cases s <;> rfl

-- Only the compiler is called when it does not accept, or when nothing is to be executed.
theorem keepsProtocol_of_compiled {c : Call} {r : StageRecord}
    (h : f.Noted host config dir .compile c r)
    (hstop : r.status = .exited config.codes.accepted → f.executes config = false) :
    f.KeepsProtocol host config dir [c] (.ofLast config.codes.accepted r) [r] where
  order := by simp [h.stage, Stage.all]
  invoked := by simp [h.invocation, Stage.all]
  noted := by simp [h.command, h.status]
  placed := by simp [h.invocation, currentDir_command]
  bounded := by simp [h.invocation, timeoutMs_command, Stage.all]
  compiled := ⟨r, by simp, h.stage⟩
  assembled_iff := by
    have hnone : ¬∃ r' ∈ [r], r'.stage = .assemble := by simp [h.stage]
    refine iff_of_false hnone ?_
    rintro ⟨⟨r', hr', -, haccepted⟩, hvalid, hfull⟩
    obtain rfl := List.mem_singleton.mp hr'
    simpa [executes, Category.executes, hvalid, hfull] using hstop haccepted
  emulated_iff := by simp [h.stage]
  decided := ⟨r, rfl, rfl⟩

theorem keepsProtocol_of_executed {c c' c'' : Call} {r r' r'' : StageRecord}
    (h : f.Noted host config dir .compile c r) (h' : f.Noted host config dir .assemble c' r')
    (h'' : f.Noted host config dir .emulate c'' r'')
    (haccepted : r.status = .exited config.codes.accepted) (hexecutes : f.executes config = true) :
    f.KeepsProtocol host config dir [c, c', c''] (.ofLast config.codes.accepted r'')
      [r, r', r''] where
  order := by simp [h.stage, h'.stage, h''.stage, Stage.all]
  invoked := by simp [h.invocation, h'.invocation, h''.invocation, Stage.all]
  noted := by simp [h.command, h.status, h'.command, h'.status, h''.command, h''.status]
  placed := by simp [h.invocation, h'.invocation, h''.invocation, currentDir_command]
  bounded := by simp [h.invocation, h'.invocation, h''.invocation, timeoutMs_command, Stage.all]
  compiled := ⟨r, by simp, h.stage⟩
  assembled_iff := by
    refine iff_of_true ⟨r', by simp, h'.stage⟩ ⟨⟨r, by simp, h.stage, haccepted⟩, ?_⟩
    simpa [executes, Category.executes] using hexecutes
  emulated_iff := iff_of_true ⟨r'', by simp, h''.stage⟩ ⟨r', by simp, h'.stage⟩
  decided := ⟨r'', rfl, rfl⟩

theorem ofFailure_eq_ofLast {r : StageRecord} (accepted : Int)
    (h : ∀ code, r.status ≠ .exited code) :
    Outcome.ofFailure r.stage r.status = .ofLast accepted r := by
  unfold Outcome.ofFailure Outcome.ofLast
  cases hs : r.status with
  | exited code => exact absurd hs (h code)
  | _ => rfl

theorem ofLast_of_exited {r : StageRecord} {code : Int} (accepted : Int)
    (h : r.status = .exited code) (hstage : r.stage = .compile) :
    Outcome.ofLast accepted r = if code = accepted then .accepted else .rejectedAs code := by
  simp [Outcome.ofLast, h, hstage]

theorem emulatedOutcome_eq_ofLast {r : StageRecord} (accepted : Int) (h : r.stage = .emulate) :
    emulatedOutcome r.status = .ofLast accepted r := by
  unfold emulatedOutcome Outcome.ofLast
  cases r.status <;> simp [h, Outcome.ofFailure, normalExitCode]

end Protocol

section Noting

variable {σ : Type} (f : Fixture) (host : Host) (config : Config) (invoker : Invoker σ)
  (dir : Path) (w : World σ)

-- The call that is made in a stage, from a world.
def call (s : Stage) (w : World σ) : Call :=
  ⟨f.command host config dir s, (invoker (f.command host config dir s) w).1⟩

theorem noted_run (s : Stage) (i : Invocation)
    (hi : s.prepare config dir i = f.command host config dir s) :
    f.Noted host config dir s (f.call host config invoker dir s w)
      (s.run host config invoker dir i w).1 := by
  refine ⟨rfl, ?_, ?_, ?_⟩ <;>
    simp only [Stage.run, Stage.note, hi, call, Call.status] <;>
    cases (invoker (f.command host config dir s) w).1 <;> rfl

-- The three calls, if all are made.
def calls : List Call :=
  [f.call host config invoker dir .compile w,
    f.call host config invoker dir .assemble (f.compiling host config invoker dir w).2,
    f.call host config invoker dir .emulate (f.assembling host config invoker dir w).2]

theorem compiling_noting :
    f.compiling host config (noting invoker) dir (w.noted []) =
      ((f.compiling host config invoker dir w).1,
        (f.compiling host config invoker dir w).2.noted
          ((f.calls host config invoker dir w).take 1)) :=
  rfl

theorem assembling_noting :
    f.assembling host config (noting invoker) dir (w.noted []) =
      ((f.assembling host config invoker dir w).1,
        (f.assembling host config invoker dir w).2.noted
          ((f.calls host config invoker dir w).take 2)) :=
  rfl

theorem emulating_noting :
    f.emulating host config (noting invoker) dir (w.noted []) =
      ((f.emulating host config invoker dir w).1,
        (f.emulating host config invoker dir w).2.noted (f.calls host config invoker dir w)) :=
  rfl

-- The stages are the same when their calls are noted, and they keep to the protocol.
theorem exists_calls_drive :
    ∃ calls, f.drive host config (noting invoker) dir (w.noted []) =
        ((f.drive host config invoker dir w).1,
          (f.drive host config invoker dir w).2.noted calls) ∧
      f.KeepsProtocol host config dir calls (f.drive host config invoker dir w).1.1
        (f.drive host config invoker dir w).1.2 := by
  have hcompiled := f.noted_run host config invoker dir w
    .compile (f.compileCommand host config) rfl
  have hassembled := f.noted_run host config invoker dir (f.compiling host config invoker dir w).2
    .assemble (f.assembleCommand config) rfl
  have hemulated := f.noted_run host config invoker dir (f.assembling host config invoker dir w).2
    .emulate (emulateCommand config) rfl
  rw [← compiling] at hcompiled
  rw [← assembling] at hassembled
  rw [← emulating] at hemulated
  have hnoting := f.drive_course host config (noting invoker) dir (w.noted [])
  rw [compiling_noting, assembling_noting, emulating_noting] at hnoting
  have hcourse := f.drive_course host config invoker dir w
  generalize f.drive host config invoker dir w = seen at hcourse ⊢
  cases hcourse with
  | halted h =>
      refine ⟨_, hnoting.unique (.halted h), ?_⟩
      rw [← hcompiled.stage, ofFailure_eq_ofLast config.codes.accepted h]
      exact keepsProtocol_of_compiled hcompiled fun h' => absurd h' (h _)
  | rejected code h hne =>
      refine ⟨_, hnoting.unique (.rejected code h hne), ?_⟩
      have hlast := ofLast_of_exited config.codes.accepted h hcompiled.stage
      rw [if_neg hne] at hlast
      rw [← hlast]
      exact keepsProtocol_of_compiled hcompiled fun h' => absurd (h.symm.trans h') (by simp [hne])
  | accepted h hx =>
      refine ⟨_, hnoting.unique (.accepted h hx), ?_⟩
      have hlast := ofLast_of_exited config.codes.accepted h hcompiled.stage
      rw [if_pos rfl] at hlast
      rw [← hlast]
      exact keepsProtocol_of_compiled hcompiled fun _ => hx
  | executed h hx =>
      refine ⟨_, hnoting.unique (.executed h hx), ?_⟩
      rw [emulatedOutcome_eq_ofLast config.codes.accepted hemulated.stage]
      exact keepsProtocol_of_executed hcompiled hassembled hemulated h hx

end Noting

end Fixture

-- For each fixture and whatever the tools answer: without a directory nothing is called,
-- and otherwise the calls and what is seen of them keep to the protocol. That the calls
-- are noted here changes neither what is seen nor what is left behind.
theorem run_keepsProtocol {σ : Type} (f : Fixture) (host : Host) (config : Config)
    (invoker : Invoker σ) (w : World σ) :
    ∃ calls, f.run host config (noting invoker) (w.noted []) =
        ((f.run host config invoker w).1, (f.run host config invoker w).2.noted calls) ∧
      match (Scratch.create host config f w.files).1 with
      | .error _ => calls = [] ∧ (f.run host config invoker w).1.stages = [] ∧
          ∃ detail, (f.run host config invoker w).1.outcome = .crashed .compile detail
      | .ok scratch => f.KeepsProtocol host config scratch.path calls
          (f.run host config invoker w).1.outcome (f.run host config invoker w).1.stages := by
  have hfiles : (w.noted []).files = w.files := rfl
  unfold Fixture.run
  rw [hfiles]
  rcases Scratch.create host config f w.files with ⟨_ | scratch, files⟩
  · exact ⟨[], rfl, rfl, rfl, _, rfl⟩
  · obtain ⟨calls, hdrive, hprotocol⟩ :=
      f.exists_calls_drive host config invoker scratch.path { w with files := files }
    refine ⟨calls, ?_, hprotocol⟩
    have hworld : { w.noted [] with files := files } = World.noted { w with files := files } [] :=
      rfl
    dsimp only
    rw [hworld, hdrive]
    rfl

end Conformance
