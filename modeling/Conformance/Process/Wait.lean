import Conformance.Process.Invocation

namespace Conformance

-- What a look at a child shows.
inductive Sight where
  | running
  | ended (status : Status)
  | failed (cause : IoError)
deriving DecidableEq, Repr

-- One poll of a child. Times count from the beginning of the wait, in
-- nanoseconds, and are read twice: for the bounds and for the pause.
structure Poll where
  sight : Sight
  elapsed : Nat
  elapsedAtPause : Nat
  -- of the captured streams, as far as they can be told
  sizes : List (Option Nat)
deriving DecidableEq, Repr

-- How long a child may run, how much it may write, and how often it is polled.
structure Bounds where
  timeout : Option Nat
  limitBytes : Option Nat
  interval : Nat
deriving DecidableEq, Repr

-- What follows from a poll.
inductive Turn where
  -- the child ended by itself
  | over (status : Status)
  | lost (cause : IoError)
  -- the child is killed and reaped, and this is its status
  | stop (status : Status)
  | pause (length : Nat)
deriving DecidableEq, Repr

def millisecond : Nat := 1000000

namespace Bounds

def timedOut (b : Bounds) (p : Poll) : Bool :=
  b.timeout.any fun timeout => timeout ≤ p.elapsed

def overflowed (limit : Nat) (p : Poll) : Bool :=
  p.sizes.any fun size => size.any fun n => limit < n

def pauseLength (b : Bounds) (p : Poll) : Nat :=
  let length := match b.timeout with
    | some timeout => min b.interval (timeout - p.elapsedAtPause)
    | none => b.interval
  max length millisecond

-- An end of its own counts even when the child is late or wrote too much, and
-- lateness counts more than what was written.
def turn (b : Bounds) (p : Poll) : Turn :=
  match p.sight with
  | .ended status => .over status
  | .failed cause => .lost cause
  | .running =>
      if b.timedOut p then .stop .timedOut
      else match b.limitBytes with
        | some limit =>
            if overflowed limit p then .stop (.outputLimitExceeded limit)
            else .pause (b.pauseLength p)
        | none => .pause (b.pauseLength p)

end Bounds

-- What is done to a child that broke its bounds.
inductive Deed where
  | killGroup
  | killChild
  | reap
deriving DecidableEq, Repr

-- How deeds are carried out, and what they change of all that stands around a child.
abbrev Hands (κ : Type) :=
  Deed → κ → Except IoError Unit × κ

-- The same hands with a note of all that they were asked for, in order.
def Hands.noting (hands : Hands κ) : Hands (κ × List Deed) := fun deed k =>
  let (result, after) := hands deed k.1
  (result, (after, k.2 ++ [deed]))

-- Kills what the child has started along with it, then the child itself, and waits for its end.
-- Only the last must go well, for the child may have ended before it is killed.
def terminate (hands : Hands κ) (k : κ) : Except IoError Unit × κ :=
  let (_, k) := hands .killGroup k
  let (_, k) := hands .killChild k
  hands .reap k

-- How a wait came to its end, and what stands around the child then.
structure WaitEnd (κ : Type) where
  result : Except InvokeError Status
  after : κ

-- Polls until one of them decides. Nothing follows from polls that all leave
-- the child running.
def waitFor (program : String) (b : Bounds) (hands : Hands κ) :
    List Poll → κ → Option (WaitEnd κ)
  | [], _ => none
  | p :: rest, k =>
      match b.turn p with
      | .over status => some ⟨.ok status, k⟩
      | .lost cause => some ⟨.error (.wait program cause), k⟩
      | .stop status =>
          match terminate hands k with
          | (.ok _, k) => some ⟨.ok status, k⟩
          | (.error cause, k) => some ⟨.error (.reap program cause), k⟩
      | .pause _ => waitFor program b hands rest k

-- A wait without any bound, which ends with the child.
def waitPlainly (program : String) : List Poll → κ → Option (WaitEnd κ)
  | [], _ => none
  | p :: rest, k =>
      match p.sight with
      | .ended status => some ⟨.ok status, k⟩
      | .failed cause => some ⟨.error (.wait program cause), k⟩
      | .running => waitPlainly program rest k

-- Only captured streams are measured.
def Invocation.watchedLimit (i : Invocation) : Option Nat :=
  match i.output with
  | .capture _ _ => i.captureLimit
  | .discard => none

def Invocation.bounds (i : Invocation) (interval : Nat) : Bounds where
  timeout := i.timeoutMs.map fun ms => ms * millisecond
  limitBytes := i.watchedLimit
  interval := max interval millisecond

-- A command without bounds is waited for without polling.
def Invocation.await (i : Invocation) (interval : Nat) (hands : Hands κ) (polls : List Poll)
    (k : κ) : Option (WaitEnd κ) :=
  if i.timeoutMs = none ∧ i.watchedLimit = none then waitPlainly i.program polls k
  else waitFor i.program (i.bounds interval) hands polls k

end Conformance
