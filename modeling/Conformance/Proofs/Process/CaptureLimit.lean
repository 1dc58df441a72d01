import Conformance.Proofs.Process.Waiting
import Mathlib.Data.List.Forall2
import Mathlib.Data.List.Pairwise

namespace Conformance

-- An end that a child comes to by itself.
def Status.IsNormal : Status → Prop
  | .exited _ => True
  | .signaled _ => True
  | _ => False

-- No captured stream is larger at the first of two looks than at the second.
def Poll.NoLarger (p q : Poll) : Prop :=
  List.Forall₂ (fun before after => ∀ n ∈ before, ∃ m ∈ after, n ≤ m) p.sizes q.sizes

-- A child that is looked at until it is found to have ended. The sizes at that look are
-- those at its end.
structure Life where
  looks : List Poll
  last : Poll
  status : Status
  running : ∀ p ∈ looks, p.sight = .running
  ended : last.sight = .ended status
  normal : status.IsNormal
  grows : (looks ++ [last]).Pairwise Poll.NoLarger

namespace Life

def polls (life : Life) : List Poll :=
  life.looks ++ [life.last]

-- The child was found late, or with too much written when it was last found running.
def Noticed (life : Life) (b : Bounds) (limit : Nat) : Prop :=
  (∃ p ∈ life.looks, b.timedOut p = true) ∨
    ∃ p ∈ life.looks.getLast?, Bounds.overflowed limit p = true

end Life

-- The child was terminated for one of the two bounds. The reaping may have failed.
def WaitEnd.Stopped {κ : Type} (program : String) (hands : Hands κ) (k : κ) (limit : Nat)
    (e : WaitEnd κ) : Prop :=
  e.after = (terminate hands k).2 ∧
    (e.result = .ok .timedOut ∨ e.result = .ok (.outputLimitExceeded limit) ∨
      ∃ cause, (terminate hands k).1 = .error cause ∧ e.result = .error (.reap program cause))

section CaptureLimit

variable {κ : Type} {program : String} {hands : Hands κ} {k : κ} {limit : Nat} {e : WaitEnd κ}
  {status : Status} {b : Bounds}

theorem WaitEnd.Stopped.not_normal (h : e.Stopped program hands k limit)
    (hok : e.result = .ok status) : ¬status.IsNormal := by
  rcases h.2 with hlate | hover | ⟨cause, -, hfailed⟩
  · cases hok.symm.trans hlate
    exact id
  · cases hok.symm.trans hover
    exact id
  · cases hok.symm.trans hfailed

namespace Bounds

variable {p q : Poll}

theorem overflowed_of_noLarger (h : p.NoLarger q) (hover : overflowed limit p = true) :
    overflowed limit q = true := by
  have hgrown : ∀ before after : List (Option Nat),
      List.Forall₂ (fun m n => ∀ a ∈ m, ∃ b ∈ n, a ≤ b) before after →
      (before.any fun size => size.any fun n => limit < n) = true →
      (after.any fun size => size.any fun n => limit < n) = true := by
    intro before after hsizes
    induction hsizes with
    | nil => exact id
    | @cons size size' before after hsize _ ih =>
        rw [List.any_cons, List.any_cons, Bool.or_eq_true, Bool.or_eq_true]
        refine Or.imp (fun hlarge => ?_) ih
        simp only [Option.any_eq_true, decide_eq_true_eq] at hlarge ⊢
        obtain ⟨n, hn, hlt⟩ := hlarge
        obtain ⟨m, hm, hle⟩ := hsize n hn
        exact ⟨m, hm, hlt.trans_le hle⟩
  exact hgrown p.sizes q.sizes h hover

theorem not_isNormal_of_broken? (h : b.broken? p = some status) : ¬status.IsNormal := by
  rcases broken?_eq_some h with ⟨-, rfl⟩ | ⟨limit, -, -, rfl⟩ <;> exact id

-- Only a child that is found to have ended comes to an end of its own.
theorem Decides.ended_of_isNormal (h : b.Decides program hands p k e) (hok : e.result = .ok status)
    (hnormal : status.IsNormal) : p.sight = .ended status := by
  cases h with
  | ended status' h =>
      cases hok
      exact h
  | lost cause h => cases hok
  | stopped status' after h hbroken hreap =>
      cases hok
      exact absurd hnormal (not_isNormal_of_broken? hbroken)
  | unreaped status' cause after h hbroken hreap => cases hok

theorem Decides.stopped_of_running (h : b.Decides program hands p k e)
    (hrunning : p.sight = .running) (hlimit : b.limitBytes = some limit) :
    e.Stopped program hands k limit := by
  cases h with
  | ended status h => rw [hrunning] at h; cases h
  | lost cause h => rw [hrunning] at h; cases h
  | stopped status after h hbroken hreap =>
      refine ⟨by rw [hreap], ?_⟩
      rcases broken?_eq_some hbroken with ⟨-, rfl⟩ | ⟨limit', hlimit', -, rfl⟩
      · exact .inl rfl
      · rw [hlimit] at hlimit'
        cases hlimit'
        exact .inr (.inl rfl)
  | unreaped status cause after h hbroken hreap =>
      exact ⟨by rw [hreap], .inr (.inr ⟨cause, by rw [hreap], rfl⟩)⟩

end Bounds

namespace Life

variable {life : Life}

-- Streams that only grow are too large at the last look at a running child if they are
-- at any.
theorem exists_overflowed_iff :
    (∃ p ∈ life.looks, Bounds.overflowed limit p = true) ↔
      ∃ p ∈ life.looks.getLast?, Bounds.overflowed limit p = true := by
  constructor
  · rintro ⟨p, hp, hover⟩
    have hne := List.ne_nil_of_mem hp
    have hsplit : life.looks.dropLast ++ [life.looks.getLast hne] = life.looks :=
      List.dropLast_append_getLast hne
    refine ⟨life.looks.getLast hne, List.getLast?_eq_getLast_of_ne_nil hne, ?_⟩
    have hgrows : life.looks.Pairwise Poll.NoLarger := (List.pairwise_append.mp life.grows).1
    rw [← hsplit] at hgrows hp
    rcases List.mem_append.mp hp with hearlier | hlast
    · exact Bounds.overflowed_of_noLarger
        ((List.pairwise_append.mp hgrows).2.2 p hearlier _ (List.mem_singleton_self _)) hover
    · rwa [← List.mem_singleton.mp hlast]
  · rintro ⟨p, hp, hover⟩
    exact ⟨p, List.mem_of_getLast? hp, hover⟩

-- A child is noticed exactly when a look at it does not leave the wait going on.
theorem noticed_iff (hlimit : b.limitBytes = some limit) :
    life.Noticed b limit ↔ ∃ p ∈ life.looks, ¬b.Passes p := by
  have hbreaks : ∀ p ∈ life.looks,
      (¬b.Passes p ↔ b.timedOut p = true ∨ Bounds.overflowed limit p = true) := by
    intro p hp
    simp [Bounds.Passes, life.running p hp, Bounds.broken?_eq_none_iff, hlimit, or_iff_not_imp_left]
  unfold Noticed
  rw [← exists_overflowed_iff, ← exists_or]
  refine exists_congr fun p => ?_
  rw [← and_or_left]
  exact and_congr_right fun hp => (hbreaks p hp).symm

theorem waitFor_polls_of_forall_passes (h : ∀ p ∈ life.looks, b.Passes p) :
    waitFor program b hands life.polls k = some ⟨.ok life.status, k⟩ := by
  rw [polls, waitFor_append h]
  exact waitFor_cons_of_decides (.ended life.status life.ended)

theorem waitFor_polls_of_noticed (hlimit : b.limitBytes = some limit)
    (h : life.Noticed b limit) :
    ∃ e, waitFor program b hands life.polls k = some e ∧ e.Stopped program hands k limit := by
  obtain ⟨p, hp, hends⟩ := (noticed_iff hlimit).mp h
  obtain ⟨e, hwait⟩ := exists_waitFor_eq_some program hands k hp hends
  refine ⟨e, waitFor_append_of_eq_some hwait, ?_⟩
  obtain ⟨before, q, rest, hlooks, -, hdecides⟩ := waitFor_eq_some_iff.mp hwait
  have hq : q ∈ life.looks := by
    rw [hlooks]
    exact List.mem_append_right before List.mem_cons_self
  exact hdecides.stopped_of_running (life.running q hq) hlimit

-- What a wait saw before it told of a normal end is the whole of a child's life.
theorem exists_of_waitFor_normal {polls : List Poll} (hgrows : polls.Pairwise Poll.NoLarger)
    (hwait : waitFor program b hands polls k = some e)
    (hok : e.result = .ok status) (hnormal : status.IsNormal) :
    ∃ (life : Life) (rest : List Poll), polls = life.polls ++ rest ∧ life.status = status ∧
      ∀ p ∈ life.looks, b.Passes p := by
  obtain ⟨before, last, rest, rfl, hbefore, hdecides⟩ := waitFor_eq_some_iff.mp hwait
  rw [List.append_cons] at hgrows ⊢
  exact ⟨{ looks := before
           last := last
           status := status
           running := fun p hp => (hbefore p hp).1
           ended := hdecides.ended_of_isNormal hok hnormal
           normal := hnormal
           grows := (List.pairwise_append.mp hgrows).1 }, rest, rfl, rfl, hbefore⟩

end Life

end CaptureLimit

-- A command whose streams are measured is polled.
theorem Invocation.await_eq_waitFor {κ : Type} {i : Invocation} {limit : Nat}
    (hlimit : i.watchedLimit = some limit) (interval : Nat) (hands : Hands κ) :
    i.await interval hands = waitFor i.program (i.bounds interval) hands := by
  funext polls k
  rw [Invocation.await, if_neg (by simp [hlimit])]

-- A normal end told of a child keeps to the limit as long as a child that ends with too
-- much written was noticed when it was last found running. Such a child is killed, and a
-- child that was not noticed ends normally, however much it wrote since.
theorem Invocation.normal_end_within_limit_iff {κ : Type} (i : Invocation) (interval : Nat)
    (hands : Hands κ) (k : κ) (limit : Nat) (hlimit : i.watchedLimit = some limit) :
    (∀ life : Life,
      ((∀ e status, i.await interval hands life.polls k = some e → e.result = .ok status →
          status.IsNormal → Bounds.overflowed limit life.last = false) ↔
        (Bounds.overflowed limit life.last = true → life.Noticed (i.bounds interval) limit)) ∧
      (life.Noticed (i.bounds interval) limit →
        ∃ e, i.await interval hands life.polls k = some e ∧ e.Stopped i.program hands k limit) ∧
      (¬life.Noticed (i.bounds interval) limit →
        i.await interval hands life.polls k = some ⟨.ok life.status, k⟩)) ∧
    ∀ polls e status, polls.Pairwise Poll.NoLarger → i.await interval hands polls k = some e →
      e.result = .ok status → status.IsNormal →
      ∃ (life : Life) (rest : List Poll), polls = life.polls ++ rest ∧ life.status = status ∧
        ¬life.Noticed (i.bounds interval) limit := by
  have hbounds : (i.bounds interval).limitBytes = some limit := hlimit
  rw [await_eq_waitFor hlimit]
  have hquiet : ∀ life : Life, ¬life.Noticed (i.bounds interval) limit →
      waitFor i.program (i.bounds interval) hands life.polls k = some ⟨.ok life.status, k⟩ := by
    intro life hnot
    rw [Life.noticed_iff hbounds] at hnot
    push Not at hnot
    exact Life.waitFor_polls_of_forall_passes hnot
  refine ⟨fun life => ⟨⟨fun hkeeps hover => ?_, fun hnoticed e status hwait hok hnormal => ?_⟩,
    Life.waitFor_polls_of_noticed hbounds, hquiet life⟩, ?_⟩
  · by_contra hnot
    rw [hkeeps _ _ (hquiet life hnot) rfl life.normal] at hover
    cases hover
  · by_contra hover
    obtain ⟨e', hwait', hstopped⟩ :=
      Life.waitFor_polls_of_noticed hbounds (hnoticed (eq_true_of_ne_false hover))
    rw [hwait] at hwait'
    cases hwait'
    exact hstopped.not_normal hok hnormal
  · intro polls e status hgrows hwait hok hnormal
    obtain ⟨life, rest, hpolls, hstatus, hpasses⟩ :=
      Life.exists_of_waitFor_normal hgrows hwait hok hnormal
    refine ⟨life, rest, hpolls, hstatus, fun hnoticed => ?_⟩
    obtain ⟨p, hp, hends⟩ := (Life.noticed_iff hbounds).mp hnoticed
    exact hends (hpasses p hp)

-- A writer whose output is measured, and which is looked at once a second.
def measuredWriter : Invocation :=
  ((Invocation.mk "sh" [] none none .discard none).capturing "out" "err").withCaptureLimit (some 8)

-- It writes all of its seventeen bytes after the only look that finds it running.
def quickWriter : Life where
  looks := [⟨.running, 0, 0, [some 0, some 0]⟩]
  last := ⟨.ended (.exited 0), 1000000000, 1000000000, [some 17, some 0]⟩
  status := .exited 0
  running := by decide
  ended := rfl
  normal := trivial
  grows := by
    simp [Poll.NoLarger]

-- The same, with a second look before its end.
def slowWriter : Life where
  looks := [⟨.running, 0, 0, [some 0, some 0]⟩,
    ⟨.running, 1000000000, 1000000000, [some 17, some 0]⟩]
  last := ⟨.ended (.exited 0), 2000000000, 2000000000, [some 17, some 0]⟩
  status := .exited 0
  running := by decide
  ended := rfl
  normal := trivial
  grows := by
    simp [Poll.NoLarger]

-- Hands that do nothing but note what they are asked for.
def idleHands : Hands (Unit × List Deed) :=
  Hands.noting fun _ k => (.ok (), k)

theorem Invocation.quick_flood_ends_normally :
    measuredWriter.watchedLimit = some 8 ∧
      measuredWriter.await 1000000000 idleHands quickWriter.polls ((), []) =
        some ⟨.ok (.exited 0), ((), [])⟩ ∧
      Bounds.overflowed 8 quickWriter.last = true :=
  ⟨rfl, rfl, rfl⟩

theorem Invocation.slow_flood_is_stopped :
    measuredWriter.watchedLimit = some 8 ∧ Bounds.overflowed 8 slowWriter.last = true ∧
      ∃ e, measuredWriter.await 1000000000 idleHands slowWriter.polls ((), []) = some e ∧
        e.Stopped "sh" idleHands ((), []) 8 :=
  ⟨rfl, rfl,
    ((normal_end_within_limit_iff measuredWriter 1000000000 idleHands ((), []) 8 rfl).1
      slowWriter).2.1 (.inr ⟨_, rfl, rfl⟩)⟩

end Conformance
