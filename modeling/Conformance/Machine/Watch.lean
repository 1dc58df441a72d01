import Conformance.Machine.Kernel
import Conformance.Process.Invoker
import Conformance.Process.Wait

namespace Conformance.Machine

-- The number of the process that an invocation starts, and that of its parent.
def mainNumber : Nat := 1000
def parentNumber : Nat := 999

def statusOf : Ending → Status
  | .exited status => .exited status
  | .killed signal => .signaled (some signal)

def captures (i : Invocation) : List Path :=
  match i.output with
  | .discard => []
  | .capture stdout stderr => [stdout, stderr]

-- How large a captured stream is, as far as its name tells.
def size? (st : Store) (cwd : Place) (p : Path) : Option Nat :=
  match st.files.locate cwd p with
  | .ok place => st.sizeAt? place
  | .error _ => none

-- What is seen of the invoked program at some time, in milliseconds.
def poll (host : Host) (i : Invocation) (k : Kernel) (time : Nat) : Poll where
  sight := match k.ending? mainNumber with
    | some ending => .ended (statusOf ending)
    | none => .running
  elapsed := time * millisecond
  elapsedAtPause := time * millisecond
  sizes := (captures i).map (size? k.store host.cwd)

-- What is done to the invoked program when it breaks its bounds. Its group is reached through
-- another program, the one that is found under the name kill.
def hands (host : Host) : Hands Kernel
  | .killGroup, k =>
      match findProgram k.store.settled.files host.cwd usualPath "kill" with
      | .ok _ => (.ok (), k.strike Signal.kill fun e => e.self.group = mainNumber)
      | .error e => (.error e, k)
  | .killChild, k => (.ok (), k.strike Signal.kill fun e => e.self.number = mainNumber)
  | .reap, k => k.reap mainNumber

section Watching

variable (programs : Programs)

def runTo (limit : Option Nat) (k : Kernel) : Kernel :=
  Kernel.run programs mainNumber limit Act.patience k

-- The polls up to the one that decides, latest first, with the time and the
-- machine then.
def polls (host : Host) (i : Invocation) (b : Bounds) :
    Nat → Nat → Kernel → List Poll → List Poll × Nat × Kernel
  | 0, time, k, seen => (seen, time, k)
  | fuel + 1, time, k, seen =>
      let k := runTo programs (some (time * 1000)) k
      let p := poll host i k time
      match b.turn p with
      | .pause length => polls host i b fuel (time + length / millisecond) k (p :: seen)
      | _ => (p :: seen, time, k)

-- A program is waited for, and killed when it breaks its bounds. What it has
-- started is not waited for.
def await (host : Host) (intervalMs : Nat) (i : Invocation) (k : Kernel) :
    Except InvokeError InvocationResult × Store :=
  let unbounded := i.timeoutMs = none ∧ i.watchedLimit = none
  let interval := intervalMs * millisecond
  let (seen, time, k) := if unbounded then
      let k := runTo programs none k
      let time := k.store.clock / 1000
      ([poll host i k time], time, k)
    else polls programs host i (i.bounds interval) Act.patience 0 k []
  match i.await interval (hands host) seen.reverse k with
  | some ending =>
      (ending.result.map fun status => ⟨status, time⟩, ending.after.store.settled)
  | none => (.error (.wait i.program (.other "the process does not end")), k.store.settled)

end Watching

end Conformance.Machine
