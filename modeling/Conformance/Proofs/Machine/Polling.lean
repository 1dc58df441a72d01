import Conformance.Proofs.Machine.Killing
import Conformance.Proofs.Machine.Slicing
import Conformance.Proofs.Process.Terminal

namespace Conformance

namespace Machine

open Kernel (EndsBy)

variable (programs : Programs) (host : Host) (i : Invocation) {b : Bounds} {k : Kernel}
  {ending : Ending} {time fuel stop : Nat} (seen : List Poll)

-- The machine at the time of a look, and what the look shows.
def reached (time : Nat) (k : Kernel) : Kernel :=
  runTo programs (some (time * 1000)) k

def look (time : Nat) (k : Kernel) : Poll :=
  poll host i (reached programs time k) time

theorem sight_poll_of_ended (h : k.ending? mainNumber = some ending) :
    (poll host i k time).sight = .ended (statusOf ending) := by
  rw [poll, h]

theorem sight_poll_of_running (h : k.ending? mainNumber = none) :
    (poll host i k time).sight = .running := by
  rw [poll, h]

theorem polls_of_ended (h : (reached programs time k).ending? mainNumber = some ending) :
    (polls programs host i b (fuel + 1) time k seen).1 = look programs host i time k :: seen := by
  have hturn : b.turn (poll host i (runTo programs (some (time * 1000)) k) time) =
      .over (statusOf ending) :=
    Bounds.turn_of_ended (sight_poll_of_ended host i h)
  rw [polls, hturn]
  rfl

section Unbounded

variable (htimeout : b.timeout = none) (hlimit : b.limitBytes = none)
include htimeout hlimit

-- A child that runs is looked at again, no less than a millisecond later.
theorem polls_of_running (h : (reached programs time k).ending? mainNumber = none) :
    ∃ pause, 1 ≤ pause ∧ polls programs host i b (fuel + 1) time k seen =
      polls programs host i b fuel (time + pause) (reached programs time k)
        (look programs host i time k :: seen) := by
  have hturn : b.turn (poll host i (runTo programs (some (time * 1000)) k) time) =
      .pause (b.pauseLength (look programs host i time k)) := by
    obtain ⟨hrunning, hwithin⟩ : b.Passes (look programs host i time k) :=
      Bounds.passes_of_unbounded htimeout hlimit (sight_poll_of_running host i h)
    exact (Bounds.turn_of_running hrunning).trans (by rw [hwithin])
  refine ⟨b.pauseLength (look programs host i time k) / millisecond, ?_, ?_⟩
  · exact (Nat.one_le_div_iff (by decide)).mpr (Nat.le_max_right _ _)
  · rw [polls, hturn]
    rfl

-- A child that ends is seen to run at all looks but the last. What it does up to a look is a
-- part of what it does anyway, and each look is later than the one before.
theorem polls_of_endsBy (hends : EndsBy programs mainNumber ending stop Act.patience k)
    (hfuel : stop ≤ (time + fuel) * 1000) :
    ∃ last looks, (polls programs host i b (fuel + 1) time k seen).1 = last :: (looks ++ seen) ∧
      last.sight = .ended (statusOf ending) ∧ ∀ p ∈ looks, p.sight = .running := by
  induction fuel generalizing time k seen with
  | zero =>
      have hended := hends.ending_run hfuel (Nat.le_refl Act.patience)
      exact ⟨_, [], polls_of_ended programs host i seen hended,
        sight_poll_of_ended host i hended, nofun⟩
  | succ fuel ih =>
      have hpart : EndsBy programs mainNumber ending stop Act.patience (reached programs time k) :=
        hends.run (time * 1000) Act.patience
      cases hended : (reached programs time k).ending? mainNumber with
      | some other =>
          obtain rfl := hpart.ending_eq hended
          exact ⟨_, [], polls_of_ended programs host i seen hended,
            sight_poll_of_ended host i hended, nofun⟩
      | none =>
          obtain ⟨pause, hpause, hgoes⟩ :=
            polls_of_running programs host i seen htimeout hlimit hended
          have hlater : time + (fuel + 1) ≤ time + pause + fuel := by
            rw [Nat.add_right_comm]
            exact Nat.add_le_add_left hpause (time + fuel)
          obtain ⟨last, looks, heq, hlast, hlooks⟩ := ih (look programs host i time k :: seen) hpart
            (hfuel.trans (Nat.mul_le_mul_right 1000 hlater))
          refine ⟨last, looks ++ [look programs host i time k], ?_, hlast, ?_⟩
          · rw [hgoes, heq, List.append_assoc]
            rfl
          · intro p hp
            rcases List.mem_append.mp hp with hp | hp
            · exact hlooks p hp
            · rw [List.mem_singleton.mp hp]
              exact sight_poll_of_running host i hended

-- Polling a child that ends comes to this end, and nothing is done to it.
theorem waitFor_polls_of_endsBy {κ : Type} (program : String) (hands : Hands κ) (after : κ)
    (hends : EndsBy programs mainNumber ending stop Act.patience k)
    (hfuel : stop ≤ (0 + fuel) * 1000) :
    waitFor program b hands (polls programs host i b (fuel + 1) 0 k []).1.reverse after =
      some ⟨.ok (statusOf ending), after⟩ := by
  obtain ⟨last, looks, heq, hlast, hlooks⟩ :=
    polls_of_endsBy programs host i [] htimeout hlimit hends hfuel
  rw [heq, List.append_nil, List.reverse_cons, waitFor_append]
  · exact waitFor_cons_of_decides (.ended _ hlast)
  · intro p hp
    exact Bounds.passes_of_unbounded htimeout hlimit (hlooks p (List.mem_reverse.mp hp))

end Unbounded

-- Waiting for a child without looking at it comes to the end that the child has.
theorem await_of_ended {i : Invocation} (htimeout : i.timeoutMs = none)
    (hlimit : i.watchedLimit = none) (intervalMs : Nat)
    (h : (runTo programs none k).ending? mainNumber = some ending) :
    ∃ time, (await programs host intervalMs i k).1 = .ok ⟨statusOf ending, time⟩ := by
  let ended : Kernel := runTo programs none k
  refine ⟨ended.store.clock / 1000, ?_⟩
  have hsight : (poll host i ended (ended.store.clock / 1000)).sight = .ended (statusOf ending) :=
    sight_poll_of_ended host i h
  simp only [await, Invocation.await, htimeout, hlimit, and_self, if_true, List.reverse_singleton,
    waitPlainly]
  rw [hsight]
  rfl

-- A wait ends at the first look that is final, and at none when no look is, and tells what is
-- to be told there. A child that still runs then is killed with its group, killed and reaped, in
-- this order, and nothing else is done to any. A plain wait tells what polling would tell, of the
-- same looks as well as of the same child in the machine.
theorem waitFor_first_end :
    (∀ (κ : Type) program (b : Bounds) (hands : Hands κ) polls k,
      (∀ e, waitFor program b hands polls k = some e ↔
        ∃ before p rest, polls = before ++ p :: rest ∧ (∀ q ∈ before, ¬b.Final q) ∧ b.Final p ∧
          b.Answers program hands k p e) ∧
      ((∃ e, waitFor program b hands polls k = some e) ↔ ∃ p ∈ polls, b.Final p)) ∧
    (∀ (κ : Type) (hands : Hands κ) k done, terminate hands.noting (k, done) =
      ((terminate hands k).1, (terminate hands k).2, done ++ [.killGroup, .killChild, .reap])) ∧
    (∀ host k, ∃ after, terminate (hands host) k = (.ok (), after) ∧ Terminated host k after) ∧
    (∀ (κ : Type) (i : Invocation) interval (hands : Hands κ) polls k,
      i.await interval hands polls k = waitFor i.program (i.bounds interval) hands polls k) ∧
    ∀ i : Invocation, i.timeoutMs = none → i.watchedLimit = none →
      ∀ programs host intervalMs k ending,
        (runTo programs none k).ending? mainNumber = some ending →
        (∃ time, (await programs host intervalMs i k).1 = .ok ⟨statusOf ending, time⟩) ∧
        ∃ rounds, ∀ more (κ : Type) (hands : Hands κ) after,
          waitFor i.program (i.bounds (intervalMs * millisecond)) hands
            (polls programs host i (i.bounds (intervalMs * millisecond)) (rounds + more) 0 k
              []).1.reverse after =
                some ⟨.ok (statusOf ending), after⟩ := by
  refine ⟨fun κ program b hands polls k =>
      ⟨fun e => waitFor_eq_some_iff_final, exists_waitFor_eq_some_iff⟩,
    fun κ hands k done => terminate_noting hands k done, terminate_hands,
    fun κ i interval hands polls k => i.await_eq_waitFor_bounds interval, ?_⟩
  intro i htimeout hlimit programs host intervalMs k ending hended
  refine ⟨await_of_ended programs host htimeout hlimit intervalMs hended, ?_⟩
  obtain ⟨stop, hends⟩ := Kernel.exists_endsBy hended
  have hbounds : (i.bounds (intervalMs * millisecond)).timeout = none := by
    rw [Invocation.bounds, htimeout]
    rfl
  refine ⟨stop + 1, fun more κ hands after => ?_⟩
  rw [Nat.add_right_comm]
  have hfuel : stop ≤ (0 + (stop + more)) * 1000 := by omega
  exact waitFor_polls_of_endsBy programs host i hbounds hlimit i.program hands after hends hfuel

-- A child that rests for a while is waited for and polled to the same end. It is in time even
-- if it is seen to have ended when all its time is over. One that rests for ever is killed when
-- its time is over, and is reaped.
theorem waitFor_first_end_rested :
    let host : Host :=
      { cwd := [], temporary := "/tmp", freshEnd := "a", clock := fun _ => "2024-01-01T00:00:00Z" }
    let late : Bounds := ⟨some 5, some 8, millisecond⟩
    let seen : List Poll := [⟨.running, 1, 1, [none, some 8]⟩, ⟨.ended (.exited 3), 7, 7, [some 9]⟩]
    let i : Invocation := { program := "rests" }
    let me : Self :=
      { number := mainNumber, parent := parentNumber, group := mainNumber, cwd := [] }
    let resting (micros : Option Nat) : Kernel :=
      ⟨{ files := ⟨[]⟩ }, [⟨me, .rest micros fun _ => .done (.exited 3), 0, false⟩], 1001⟩
    waitFor "rests" late (hands host).noting seen (resting none, []) =
        some ⟨.ok (.exited 3), (resting none, [])⟩ ∧
      (∃ after, waitFor "rests" late (hands host).noting [⟨.running, 7, 7, []⟩] (resting none, []) =
        some ⟨.ok .timedOut, after⟩ ∧ (∀ e ∈ after.1.entries, e.self.number ≠ mainNumber) ∧
          after.2 = [.killGroup, .killChild, .reap]) ∧
      (∃ time, (await (fun _ => none) host 10 i (resting (some 5000))).1 = .ok ⟨.exited 3, time⟩) ∧
      ∃ rounds, waitFor "rests" (i.bounds (10 * millisecond)) (hands host)
        (polls (fun _ => none) host i (i.bounds (10 * millisecond)) rounds 0 (resting (some 5000))
          []).1.reverse (resting none) =
          some ⟨.ok (.exited 3), resting none⟩ := by
  intro host late seen i me resting
  have hended : (runTo (fun _ => none) none (resting (some 5000))).ending? mainNumber =
      some (.exited 3) := by
    decide +kernel
  obtain ⟨hfirst, hnoted, hkilled, -, hplain⟩ := waitFor_first_end
  obtain ⟨after, hterminate, hterminated⟩ := hkilled host (resting none)
  have hall : terminate (hands host).noting (resting none, []) =
      (.ok (), after, [.killGroup, .killChild, .reap]) := by
    rw [hnoted, hterminate]
    rfl
  obtain ⟨htime, rounds, hpolls⟩ := hplain i rfl rfl (fun _ => none) host 10 _ _ hended
  refine ⟨((hfirst _ _ _ _ _ _).1 _).mpr ⟨[seen[0]], seen[1], [], rfl, ?_, ?_, ?_⟩, ?_, htime,
    rounds, hpolls 0 _ (hands host) (resting none)⟩
  · simp [seen, late, Bounds.Final, Bounds.Late, Bounds.Flooded]
  · exact .inl ⟨.exited 3, rfl⟩
  · constructor <;> simp [seen]
  · refine ⟨(after, [.killGroup, .killChild, .reap]),
      ((hfirst _ _ _ _ _ _).1 _).mpr ⟨[], _, [], rfl, List.forall_mem_nil _, ?_, ?_⟩,
      hterminated.reaped, rfl⟩
    · exact .inr (.inr (.inl ⟨5, rfl, by decide⟩))
    · constructor <;> simp [hall, Bounds.Late, late]

end Machine

end Conformance
