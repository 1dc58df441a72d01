import Conformance.Proofs.Process.Terminal
import Mathlib.Algebra.Order.Floor.Div
import Mathlib.Data.List.Chain

namespace Conformance

namespace Bounds

variable {b : Bounds} {p : Poll} {polls : List Poll} {timeout length : Nat}

theorem turn_eq_pause_iff : b.turn p = .pause length ↔ b.Passes p ∧ length = b.pauseLength p := by
  cases hsight : p.sight with
  | ended status =>
      rw [turn_of_ended hsight]
      exact iff_of_false nofun fun h => by cases hsight.symm.trans h.1.1
  | failed cause =>
      rw [turn_of_failed hsight]
      exact iff_of_false nofun fun h => by cases hsight.symm.trans h.1.1
  | running =>
      rw [turn_of_running hsight, Passes, hsight]
      cases b.broken? p with
      | none => simp [eq_comm]
      | some status => simp

theorem turn_of_passes (h : b.Passes p) : b.turn p = .pause (b.pauseLength p) :=
  turn_eq_pause_iff.mpr ⟨h, rfl⟩

section Pauses

variable (h : b.turn p = .pause length)
include h

theorem millisecond_le_of_turn : millisecond ≤ length := by
  rw [(turn_eq_pause_iff.mp h).2]
  exact Nat.le_max_right _ _

theorem le_remaining_of_turn (htimeout : b.timeout = some timeout) :
    length ≤ max millisecond (timeout - p.elapsedAtPause) := by
  rw [(turn_eq_pause_iff.mp h).2, pauseLength, htimeout]
  dsimp only
  omega

-- A child that is left running was in time at the look.
theorem elapsed_lt_of_turn (htimeout : b.timeout = some timeout) : p.elapsed < timeout := by
  have hwithin := (broken?_eq_none_iff_within.mp (turn_eq_pause_iff.mp h).1.2).1
  exact Nat.lt_of_not_le fun hle => hwithin ⟨timeout, htimeout, hle⟩

end Pauses

-- Times in whole milliseconds.
structure IsWhole (b : Bounds) : Prop where
  interval : millisecond ∣ b.interval
  timeout : ∀ timeout ∈ b.timeout, millisecond ∣ timeout

theorem IsWhole.dvd_pauseLength (h : b.IsWhole) (hp : millisecond ∣ p.elapsedAtPause) :
    millisecond ∣ b.pauseLength p := by
  unfold pauseLength
  refine max_rec' (millisecond ∣ ·) ?_ (Nat.dvd_refl millisecond)
  cases htimeout : b.timeout with
  | none => exact h.interval
  | some timeout =>
      have hrest : millisecond ∣ timeout - p.elapsedAtPause :=
        Nat.dvd_sub (h.timeout timeout htimeout) hp
      exact min_rec' (millisecond ∣ ·) h.interval hrest

-- Looks on a clock that does not go back, with sleeps between them that last at least as long
-- as they are asked for.
structure OnClock (b : Bounds) (polls : List Poll) : Prop where
  steady : ∀ p ∈ polls, p.elapsed ≤ p.elapsedAtPause
  slept : polls.IsChain fun p q =>
    ∀ length, b.turn p = .pause length → p.elapsedAtPause + length ≤ q.elapsed

namespace OnClock

theorem tail (h : b.OnClock (p :: polls)) : b.OnClock polls :=
  ⟨fun q hq => h.steady q (List.mem_cons_of_mem p hq), h.slept.tail⟩

theorem left {more : List Poll} (h : b.OnClock (polls ++ more)) : b.OnClock polls :=
  ⟨fun p hp => h.steady p (List.mem_append_left more hp), h.slept.left_of_append⟩

theorem take (h : b.OnClock polls) (n : Nat) : b.OnClock (polls.take n) :=
  ⟨fun p hp => h.steady p (List.mem_of_mem_take hp), h.slept.take n⟩

-- Each pause takes the clock a millisecond on, from wherever the first look finds it.
theorem length_mul_le_elapsed {before rest : List Poll} {start : Nat}
    (h : b.OnClock (before ++ p :: rest)) (hpasses : ∀ q ∈ before, b.Passes q)
    (hstart : ∀ q ∈ (before ++ p :: rest).head?, start ≤ q.elapsed) :
    start + before.length * millisecond ≤ p.elapsed := by
  induction before generalizing start with
  | nil => simpa using hstart
  | cons q before ih =>
      have hturn := turn_of_passes (hpasses q List.mem_cons_self)
      have hpause := millisecond_le_of_turn hturn
      have hsteady := h.steady q List.mem_cons_self
      have hfirst : start ≤ q.elapsed := hstart q rfl
      have hnext : ∀ r ∈ (before ++ p :: rest).head?, start + millisecond ≤ r.elapsed := by
        intro r hr
        have hslept := (List.isChain_cons.mp h.slept).1 r hr _ hturn
        omega
      have hlater := ih h.tail (fun r hr => hpasses r (List.mem_cons_of_mem q hr)) hnext
      rw [List.length_cons, Nat.succ_mul]
      omega

-- The wait goes on for as many looks as there are milliseconds in its time, and no longer.
theorem length_le_of_forall_passes (h : b.OnClock polls) (htimeout : b.timeout = some timeout)
    (hpasses : ∀ p ∈ polls, b.Passes p) : polls.length ≤ timeout ⌈/⌉ millisecond := by
  rcases List.eq_nil_or_concat polls with rfl | ⟨before, last, rfl⟩
  · exact Nat.zero_le _
  · rw [List.concat_eq_append] at h hpasses ⊢
    have hbefore : 0 + before.length * millisecond ≤ last.elapsed :=
      h.length_mul_le_elapsed (fun q hq => hpasses q (List.mem_append_left _ hq))
        fun _ _ => Nat.zero_le _
    have hlast := elapsed_lt_of_turn (turn_of_passes (hpasses last (by simp))) htimeout
    have htime : timeout ≤ millisecond * (timeout ⌈/⌉ millisecond) :=
      le_smul_ceilDiv (by decide : 0 < millisecond)
    have hlt : millisecond * before.length < millisecond * (timeout ⌈/⌉ millisecond) := by
      rw [Nat.mul_comm millisecond before.length]
      omega
    rw [List.length_append, List.length_singleton]
    exact Nat.lt_of_mul_lt_mul_left hlt

-- With one look more than that it has come to its end.
theorem exists_waitFor_take_eq_some (h : b.OnClock polls) (htimeout : b.timeout = some timeout)
    (hlong : timeout ⌈/⌉ millisecond < polls.length) {κ : Type} (program : String)
    (hands : Hands κ) (k : κ) :
    ∃ e, waitFor program b hands (polls.take (timeout ⌈/⌉ millisecond + 1)) k = some e ∧
      waitFor program b hands polls k = some e := by
  have hends : ∃ p ∈ polls.take (timeout ⌈/⌉ millisecond + 1), ¬b.Passes p := by
    by_contra hnone
    push Not at hnone
    have hle := (h.take _).length_le_of_forall_passes htimeout hnone
    rw [List.length_take] at hle
    omega
  obtain ⟨p, hp, hends⟩ := hends
  obtain ⟨e, he⟩ := exists_waitFor_eq_some program hands k hp hends
  refine ⟨e, he, ?_⟩
  rw [← List.take_append_drop (timeout ⌈/⌉ millisecond + 1) polls]
  exact waitFor_append_of_eq_some he

end OnClock

end Bounds

theorem Invocation.isWhole_bounds (i : Invocation) (intervalMs : Nat) :
    (i.bounds (intervalMs * millisecond)).IsWhole := by
  constructor
  · exact max_rec' (millisecond ∣ ·) (Nat.dvd_mul_left millisecond intervalMs) (Nat.dvd_refl _)
  · intro timeout htimeout
    obtain ⟨ms, -, rfl⟩ := Option.map_eq_some_iff.mp htimeout
    exact Nat.dvd_mul_left millisecond ms

end Conformance
