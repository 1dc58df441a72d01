import Conformance.Process.Wait
import Mathlib.Data.List.Infix
import Mathlib.Tactic.SplitIfs

namespace Conformance

namespace Bounds

variable {b : Bounds} {p : Poll}

-- What a look at a running child finds beyond its bounds.
def broken? (b : Bounds) (p : Poll) : Option Status :=
  if b.timedOut p then some .timedOut
  else match b.limitBytes with
    | some limit => if overflowed limit p then some (.outputLimitExceeded limit) else none
    | none => none

theorem turn_of_ended {status : Status} (h : p.sight = .ended status) :
    b.turn p = .over status := by
  rw [turn, h]

theorem turn_of_failed {cause : IoError} (h : p.sight = .failed cause) :
    b.turn p = .lost cause := by
  rw [turn, h]

theorem turn_of_running (h : p.sight = .running) :
    b.turn p = match b.broken? p with
      | some status => .stop status
      | none => .pause (b.pauseLength p) := by
  rw [turn, h, broken?]
  dsimp only
  split_ifs
  · rfl
  · cases b.limitBytes with
    | none => rfl
    | some limit =>
        dsimp only
        split_ifs <;> rfl

theorem broken?_eq_none_iff :
    b.broken? p = none ↔
      b.timedOut p = false ∧ ∀ limit ∈ b.limitBytes, overflowed limit p = false := by
  unfold broken?
  by_cases hlate : b.timedOut p = true
  · simp [hlate]
  · cases b.limitBytes <;> simp [hlate]

-- Lateness counts more than what was written.
theorem broken?_eq_some {status : Status} (h : b.broken? p = some status) :
    b.timedOut p = true ∧ status = .timedOut ∨
      ∃ limit ∈ b.limitBytes, overflowed limit p = true ∧ status = .outputLimitExceeded limit := by
  unfold broken? at h
  split_ifs at h with hlate
  · exact .inl ⟨hlate, (Option.some.inj h).symm⟩
  · cases hlimit : b.limitBytes with
    | none =>
        rw [hlimit] at h
        cases h
    | some limit =>
        rw [hlimit] at h
        dsimp only at h
        split_ifs at h with hover
        exact .inr ⟨limit, rfl, hover, (Option.some.inj h).symm⟩

-- A look after which the wait goes on.
def Passes (b : Bounds) (p : Poll) : Prop :=
  p.sight = .running ∧ b.broken? p = none

variable {κ : Type}

-- How a look brings a wait to its end.
inductive Decides (program : String) (b : Bounds) (hands : Hands κ) (p : Poll) (k : κ) :
    WaitEnd κ → Prop
  | ended (status : Status) (h : p.sight = .ended status) :
      Decides program b hands p k ⟨.ok status, k⟩
  | lost (cause : IoError) (h : p.sight = .failed cause) :
      Decides program b hands p k ⟨.error (.wait program cause), k⟩
  | stopped (status : Status) (after : κ) (h : p.sight = .running)
      (hbroken : b.broken? p = some status) (hreap : terminate hands k = (.ok (), after)) :
      Decides program b hands p k ⟨.ok status, after⟩
  | unreaped (status : Status) (cause : IoError) (after : κ) (h : p.sight = .running)
      (hbroken : b.broken? p = some status) (hreap : terminate hands k = (.error cause, after)) :
      Decides program b hands p k ⟨.error (.reap program cause), after⟩

end Bounds

section Waiting

variable {κ : Type} {program : String} {b : Bounds} {hands : Hands κ} {k : κ} {p : Poll}
  {e : WaitEnd κ} {before rest polls : List Poll}

theorem waitFor_cons_of_passes (h : b.Passes p) :
    waitFor program b hands (p :: rest) k = waitFor program b hands rest k := by
  rw [waitFor, Bounds.turn_of_running h.1, h.2]

theorem waitFor_cons_of_decides (h : b.Decides program hands p k e) :
    waitFor program b hands (p :: rest) k = some e := by
  cases h with
  | ended status h => rw [waitFor, Bounds.turn_of_ended h]
  | lost cause h => rw [waitFor, Bounds.turn_of_failed h]
  | stopped status after h hbroken hreap =>
      rw [waitFor, Bounds.turn_of_running h, hbroken]
      dsimp only
      rw [hreap]
  | unreaped status cause after h hbroken hreap =>
      rw [waitFor, Bounds.turn_of_running h, hbroken]
      dsimp only
      rw [hreap]

-- Each look either leaves the wait going on or brings it to one end.
theorem passes_or_exists_decides (program : String) (b : Bounds) (hands : Hands κ) (p : Poll)
    (k : κ) : b.Passes p ∨ ∃ e, b.Decides program hands p k e := by
  cases hsight : p.sight with
  | ended status => exact .inr ⟨_, .ended status hsight⟩
  | failed cause => exact .inr ⟨_, .lost cause hsight⟩
  | running =>
      cases hbroken : b.broken? p with
      | none => exact .inl ⟨hsight, hbroken⟩
      | some status =>
          rcases hreap : terminate hands k with ⟨_ | cause, after⟩
          · exact .inr ⟨_, .unreaped status _ after hsight hbroken hreap⟩
          · exact .inr ⟨_, .stopped status after hsight hbroken hreap⟩

theorem waitFor_append (h : ∀ p ∈ before, b.Passes p) :
    waitFor program b hands (before ++ rest) k = waitFor program b hands rest k := by
  induction before with
  | nil => rfl
  | cons p before ih =>
      rw [List.cons_append, waitFor_cons_of_passes (h p List.mem_cons_self)]
      exact ih fun q hq => h q (List.mem_cons_of_mem p hq)

-- A wait ends at the first look that does not leave it going on, in the way that this
-- look decides.
theorem waitFor_eq_some_iff :
    waitFor program b hands polls k = some e ↔
      ∃ before p rest, polls = before ++ p :: rest ∧ (∀ q ∈ before, b.Passes q) ∧
        b.Decides program hands p k e := by
  constructor
  · intro h
    induction polls with
    | nil => cases h
    | cons p rest ih =>
        rcases passes_or_exists_decides program b hands p k with hpasses | ⟨e', hdecides⟩
        · rw [waitFor_cons_of_passes hpasses] at h
          obtain ⟨before, q, more, rfl, hbefore, hdecides⟩ := ih h
          exact ⟨p :: before, q, more, rfl, List.forall_mem_cons.mpr ⟨hpasses, hbefore⟩, hdecides⟩
        · rw [waitFor_cons_of_decides hdecides] at h
          cases h
          exact ⟨[], p, rest, rfl, nofun, hdecides⟩
  · rintro ⟨before, p, rest, rfl, hbefore, hdecides⟩
    rw [waitFor_append hbefore, waitFor_cons_of_decides hdecides]

-- What comes behind the look that decides is not waited for.
theorem waitFor_append_of_eq_some (h : waitFor program b hands polls k = some e) :
    waitFor program b hands (polls ++ rest) k = some e := by
  obtain ⟨before, p, more, rfl, hbefore, hdecides⟩ := waitFor_eq_some_iff.mp h
  exact waitFor_eq_some_iff.mpr
    ⟨before, p, more ++ rest, List.append_assoc before (p :: more) rest, hbefore, hdecides⟩

-- A wait does end when some look does not leave it going on.
theorem exists_waitFor_eq_some (program : String) (hands : Hands κ) (k : κ) (hp : p ∈ polls)
    (hends : ¬b.Passes p) :
    ∃ e, waitFor program b hands polls k = some e := by
  induction polls with
  | nil => cases hp
  | cons q rest ih =>
      rcases passes_or_exists_decides program b hands q k with hpasses | ⟨e, hdecides⟩
      · rw [waitFor_cons_of_passes hpasses]
        refine ih ((List.mem_cons.mp hp).resolve_left ?_)
        rintro rfl
        exact hends hpasses
      · exact ⟨e, waitFor_cons_of_decides hdecides⟩

end Waiting

section Terminating

variable {κ : Type} (hands : Hands κ) (k : κ)

theorem terminate_eq :
    terminate hands k = hands .reap (hands .killChild (hands .killGroup k).2).2 :=
  rfl

-- A child that is stopped is killed together with its group, then by itself, and then reaped.
theorem terminate_noting (done : List Deed) :
    terminate hands.noting (k, done) =
      ((terminate hands k).1, (terminate hands k).2, done ++ [.killGroup, .killChild, .reap]) := by
  simp [terminate_eq, Hands.noting]

end Terminating

end Conformance
