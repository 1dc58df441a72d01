import Conformance.Proofs.Fixture.Protocol
import Conformance.Verdict

namespace Conformance

-- What a command asks for, wherever it is run and whatever was run before.
structure Request where
  program : String
  args : List String
  timeoutMs : Option Nat
  captureLimit : Option Nat
deriving DecidableEq, Repr

def Invocation.request (i : Invocation) : Request :=
  ⟨i.program, i.args, i.timeoutMs, i.captureLimit⟩

-- What comes back for it, with what is written to the two streams.
structure Answer where
  result : Except InvokeError InvocationResult
  stdout : Text.Bytes
  stderr : Text.Bytes

instance decidableEqReply : DecidableEq (Except InvokeError InvocationResult)
  | .ok a, .ok b => decidable_of_iff (a = b) ⟨congrArg Except.ok, Except.ok.inj⟩
  | .error a, .error b => decidable_of_iff (a = b) ⟨congrArg Except.error, Except.error.inj⟩
  | .ok _, .error _ => isFalse nofun
  | .error _, .ok _ => isFalse nofun

-- What can be read of a captured stream.
def Tree.captured (t : Tree) (cwd : Place) (p : Path) : Text.Bytes :=
  match t.readBytes cwd p with
  | .ok data => data
  | .error _ => []

-- The streams of an answer are in the files that they were captured into.
def Answer.Captured (a : Answer) (cwd : Place) (t : Tree) : OutputPolicy → Prop
  | .discard => True
  | .capture out err => t.captured cwd out = a.stdout ∧ t.captured cwd err = a.stderr

instance (a : Answer) (cwd : Place) (t : Tree) (output : OutputPolicy) :
    Decidable (a.Captured cwd t output) :=
  match output with
  | .discard => isTrue trivial
  | .capture _ _ => inferInstanceAs (Decidable (_ ∧ _))

-- An invocation in some world is answered as its request says. Nothing is captured of a
-- command that could not be watched to its end.
def Invocation.AnsweredBy (answer : Request → Answer) (cwd : Place) (invoker : Invoker σ)
    (i : Invocation) (w : World σ) : Prop :=
  (invoker i w).1 = (answer i.request).result ∧
    ((answer i.request).result.isOk = true →
      (answer i.request).Captured cwd (invoker i w).2.files i.output)

instance (answer : Request → Answer) (cwd : Place) (invoker : Invoker σ) (i : Invocation)
    (w : World σ) : Decidable (i.AnsweredBy answer cwd invoker w) :=
  inferInstanceAs (Decidable (_ ∧ (_ → _)))

theorem captureTail_eq_tailOf (t : Tree) (cwd : Place) (p : Path) (limit : Nat) :
    captureTail t cwd p limit = tailOf limit (t.captured cwd p) := by
  unfold captureTail Tree.captured
  cases t.readBytes cwd p with
  | ok data => rfl
  | error e => simp [tailOf, Text.lossy, Text.Utf8.pieces]

-- What is kept of the streams of an answer.
def Answer.diagnostics? (a : Answer) (limit : Nat) : Option Diagnostics :=
  let d : Diagnostics := ⟨tailOf limit a.stdout, tailOf limit a.stderr⟩
  if d.stdout = "" ∧ d.stderr = "" then none else some d

namespace Stage

-- What a stage asks for.
def request (config : Config) (i : Invocation) : Request :=
  { i.request with
    captureLimit := if config.captureDiagnostics then some config.captureLimitBytes
      else i.captureLimit }

theorem request_prepare (s : Stage) (config : Config) (dir : Path) (i : Invocation) :
    (s.prepare config dir i).request = request config i := by
  unfold prepare request
  cases config.captureDiagnostics <;> rfl

theorem command_prepare (s : Stage) (config : Config) (dir : Path) (i : Invocation) :
    (s.prepare config dir i).command = i.command := by
  unfold prepare
  cases config.captureDiagnostics <;> rfl

-- The record of a stage, told from the answer that it gets.
def recordOf (s : Stage) (config : Config) (answer : Request → Answer) (i : Invocation) :
    StageRecord :=
  match (answer (request config i)).result with
  | .ok result => {
      stage := s
      command := i.command
      status := result.status
      elapsedMs := result.elapsedMs
      diagnostics :=
        if config.captureDiagnostics then
          (answer (request config i)).diagnostics? config.diagnosticLimitBytes
        else none }
  | .error e => {
      stage := s
      command := i.command
      status := .launchFailed ("invoke_error error=" ++ e.message)
      elapsedMs := 0
      diagnostics := none }

theorem run_eq_recordOf {σ : Type} (s : Stage) (host : Host) (config : Config)
    {invoker : Invoker σ} {answer : Request → Answer} (dir : Path) (i : Invocation) (w : World σ)
    (h : (s.prepare config dir i).AnsweredBy answer host.cwd invoker w) :
    (s.run host config invoker dir i w).1 = s.recordOf config answer i := by
  obtain ⟨hresult, hcaptured⟩ := h
  rw [request_prepare] at hresult hcaptured
  unfold run note recordOf
  dsimp only
  rw [hresult, command_prepare]
  cases hanswer : (answer (request config i)).result with
  | error e => rfl
  | ok result =>
      replace hcaptured := hcaptured (by rw [hanswer]; rfl)
      dsimp only
      congr 1
      by_cases hc : config.captureDiagnostics = true
      · rw [if_pos hc, if_pos hc]
        have houtput : (s.prepare config dir i).output =
            .capture (s.stdoutPath dir) (s.stderrPath dir) := by
          rw [prepare, if_pos hc]
          rfl
        rw [houtput] at hcaptured
        obtain ⟨hout, herr⟩ := hcaptured
        unfold Diagnostics.read? Answer.diagnostics?
        rw [captureTail_eq_tailOf, captureTail_eq_tailOf, hout, herr]
      · rw [if_neg hc, if_neg hc]

end Stage

namespace Fixture

-- What a stage calls, before it is set up to run in a directory.
def bareCommand (f : Fixture) (host : Host) (config : Config) : Stage → Invocation
  | .compile => f.compileCommand host config
  | .assemble => f.assembleCommand config
  | .emulate => emulateCommand config

-- Only the directory that a command is given from outside is looked at.
theorem bareCommand_congr {host host' : Host} (h : host'.cwd = host.cwd) (f : Fixture)
    (config : Config) (s : Stage) :
    f.bareCommand host' config s = f.bareCommand host config s := by
  cases s <;> simp only [bareCommand, compileCommand, Host.cwdPath, h]

section Answered

variable {σ : Type} (f : Fixture) (host : Host) (config : Config) (invoker : Invoker σ)
  (answer : Request → Answer)

-- Each stage that is carried out in a directory is answered.
def AnsweredIn (dir : Path) (w : World σ) : Prop :=
  (f.command host config dir .compile).AnsweredBy answer host.cwd invoker w ∧
    ((f.compiling host config invoker dir w).1.status = .exited config.codes.accepted →
      f.executes config = true →
      (f.command host config dir .assemble).AnsweredBy answer host.cwd invoker
          (f.compiling host config invoker dir w).2 ∧
        (f.command host config dir .emulate).AnsweredBy answer host.cwd invoker
          (f.assembling host config invoker dir w).2)

-- A fixture gets its directory, and each of its stages is answered in it.
def Answered (w : World σ) : Prop :=
  match Scratch.create host config f w.files with
  | (.error _, _) => False
  | (.ok scratch, files) =>
      f.AnsweredIn host config invoker answer scratch.path { w with files := files }

instance (dir : Path) (w : World σ) : Decidable (f.AnsweredIn host config invoker answer dir w) :=
  inferInstanceAs (Decidable (_ ∧ (_ → _ → _)))

instance (w : World σ) : Decidable (f.Answered host config invoker answer w) :=
  match hcreate : Scratch.create host config f w.files with
  | (.error _, _) => isFalse (by rw [Answered, hcreate]; exact id)
  | (.ok scratch, files) =>
      decidable_of_iff
        (f.AnsweredIn host config invoker answer scratch.path { w with files := files })
        (by rw [Answered, hcreate])

-- What is seen of a fixture, told from the answers that it gets.
def seenBy : Outcome × List StageRecord :=
  let compiled := Stage.compile.recordOf config answer (f.bareCommand host config .compile)
  let assembled := Stage.assemble.recordOf config answer (f.bareCommand host config .assemble)
  let emulated := Stage.emulate.recordOf config answer (f.bareCommand host config .emulate)
  if compiled.status = .exited config.codes.accepted ∧ f.executes config = true then
    (.ofLast config.codes.accepted emulated, [compiled, assembled, emulated])
  else (.ofLast config.codes.accepted compiled, [compiled])

-- The verdict on it.
def verdictBy : Verdict :=
  classify f ⟨f.name, (f.seenBy host config answer).1, (f.seenBy host config answer).2, none⟩
    config

variable {f host config invoker answer}

theorem drive_eq_seenBy {dir : Path} {w : World σ}
    (h : f.AnsweredIn host config invoker answer dir w) :
    (f.drive host config invoker dir w).1 = f.seenBy host config answer := by
  have hcompile : (f.compiling host config invoker dir w).1 =
      Stage.compile.recordOf config answer (f.bareCommand host config .compile) :=
    Stage.run_eq_recordOf .compile host config dir _ w h.1
  have hstage : (f.compiling host config invoker dir w).1.stage = .compile :=
    (f.noted_run host config invoker dir w .compile (f.compileCommand host config) rfl).stage
  have hcourse := f.drive_course host config invoker dir w
  unfold seenBy
  rw [← hcompile]
  generalize f.drive host config invoker dir w = seen at hcourse ⊢
  cases hcourse with
  | halted hnot =>
      dsimp only
      rw [if_neg fun haccepted => hnot _ haccepted.1,
        ← ofFailure_eq_ofLast config.codes.accepted hnot, hstage]
  | rejected code hcode hne =>
      have hother : ¬((f.compiling host config invoker dir w).1.status =
          .exited config.codes.accepted ∧ f.executes config = true) := by
        rintro ⟨haccepted, -⟩
        exact hne (Status.exited.inj (hcode.symm.trans haccepted))
      dsimp only
      rw [if_neg hother, ofLast_of_exited config.codes.accepted hcode hstage, if_neg hne]
  | accepted haccepted hx =>
      dsimp only
      rw [if_neg (by simp [hx]), ofLast_of_exited config.codes.accepted haccepted hstage,
        if_pos rfl]
  | executed haccepted hx =>
      obtain ⟨hassembled, hemulated⟩ := h.2 haccepted hx
      have hassemble : (f.assembling host config invoker dir w).1 =
          Stage.assemble.recordOf config answer (f.bareCommand host config .assemble) :=
        Stage.run_eq_recordOf .assemble host config dir _ _ hassembled
      have hemulate : (f.emulating host config invoker dir w).1 =
          Stage.emulate.recordOf config answer (f.bareCommand host config .emulate) :=
        Stage.run_eq_recordOf .emulate host config dir _ _ hemulated
      have hlast : (f.emulating host config invoker dir w).1.stage = .emulate :=
        (f.noted_run host config invoker dir _ .emulate (emulateCommand config) rfl).stage
      dsimp only
      rw [if_pos ⟨haccepted, hx⟩, ← hassemble, ← hemulate, emulatedOutcome_eq_ofLast _ hlast]

-- The verdict on a fixture that is answered is told from the answers alone.
theorem classify_run_eq_verdictBy {w : World σ} (h : f.Answered host config invoker answer w) :
    classify f (f.run host config invoker w).1 config = f.verdictBy host config answer := by
  unfold Answered at h
  unfold run verdictBy
  rcases hcreate : Scratch.create host config f w.files with ⟨_ | scratch, files⟩
  · rw [hcreate] at h
    exact h.elim
  · rw [hcreate] at h
    dsimp only
    rw [drive_eq_seenBy h]
    rfl

theorem verdictBy_congr {host' : Host} (h : host'.cwd = host.cwd) :
    f.verdictBy host' config answer = f.verdictBy host config answer := by
  simp only [verdictBy, seenBy, bareCommand_congr h]

end Answered

end Fixture

end Conformance
