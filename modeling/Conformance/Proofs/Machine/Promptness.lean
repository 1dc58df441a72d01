import Conformance.Proofs.Machine.Polling
import Conformance.Proofs.Process.Pausing

namespace Conformance

namespace Machine

section Looks

variable (programs : Programs) (host : Host) (i : Invocation) {b : Bounds} {k : Kernel}
  {time fuel length : Nat}

-- The looks that a machine takes at a child, in their order.
def looks (b : Bounds) (fuel time : Nat) (k : Kernel) : List Poll :=
  (polls programs host i b fuel time k []).1.reverse

theorem polls_append_seen (seen : List Poll) :
    (polls programs host i b fuel time k seen).1 =
      (polls programs host i b fuel time k []).1 ++ seen := by
  induction fuel generalizing time k seen with
  | zero => rfl
  | succ fuel ih =>
      rw [polls, polls]
      split
      · rw [ih, ih [_], List.append_assoc]
        rfl
      · rfl

theorem looks_of_pause (h : b.turn (look programs host i time k) = .pause length) :
    looks programs host i b (fuel + 1) time k = look programs host i time k ::
      looks programs host i b fuel (time + length / millisecond) (reached programs time k) := by
  have hgoes : polls programs host i b (fuel + 1) time k [] =
      polls programs host i b fuel (time + length / millisecond) (reached programs time k)
        [look programs host i time k] := by
    rw [polls]
    unfold look reached at h
    rw [h]
    rfl
  rw [looks, hgoes, polls_append_seen, List.reverse_append]
  rfl

theorem looks_of_end (h : ¬b.Passes (look programs host i time k)) :
    looks programs host i b (fuel + 1) time k = [look programs host i time k] := by
  have hturn : ∀ length, b.turn (look programs host i time k) ≠ .pause length :=
    fun length hpause => h (Bounds.turn_eq_pause_iff.mp hpause).1
  unfold look reached at hturn
  rw [looks, polls]
  split
  · rename_i length hpause
    exact absurd hpause (hturn length)
  · rfl

theorem elapsed_of_head?_looks {p : Poll}
    (h : p ∈ (looks programs host i b fuel time k).head?) : p.elapsed = time * millisecond := by
  cases fuel with
  | zero => cases h
  | succ fuel =>
      by_cases hpasses : b.Passes (look programs host i time k)
      · rw [looks_of_pause programs host i (Bounds.turn_of_passes hpasses)] at h
        cases h
        rfl
      · rw [looks_of_end programs host i hpasses] at h
        cases h
        rfl

-- A machine stops looking when it has to, or when it is told to look no more.
theorem looks_cases (b : Bounds) (fuel time : Nat) (k : Kernel) :
    (∀ p ∈ looks programs host i b fuel time k, b.Passes p) ∧
        (looks programs host i b fuel time k).length = fuel ∨
      ∃ before p, looks programs host i b fuel time k = before ++ [p] ∧
        (∀ q ∈ before, b.Passes q) ∧ ¬b.Passes p := by
  induction fuel generalizing time k with
  | zero => exact .inl ⟨nofun, rfl⟩
  | succ fuel ih =>
      let first : Poll := look programs host i time k
      by_cases hpasses : b.Passes first
      · rw [looks_of_pause programs host i (Bounds.turn_of_passes hpasses)]
        rcases ih (time + b.pauseLength first / millisecond) (reached programs time k) with
          ⟨hall, hlength⟩ | ⟨before, p, heq, hbefore, hends⟩
        · exact .inl
            ⟨List.forall_mem_cons.mpr ⟨hpasses, hall⟩, by rw [List.length_cons, hlength]⟩
        · refine .inr ⟨_ :: before, p, by rw [heq]; rfl, ?_, hends⟩
          exact List.forall_mem_cons.mpr ⟨hpasses, hbefore⟩
      · exact .inr ⟨[], first, looks_of_end programs host i hpasses, nofun, hpasses⟩

-- The clock of a machine counts milliseconds, so a sleep of whole milliseconds lasts as long as it
-- is asked for.
theorem onClock_looks (hwhole : b.IsWhole) :
    b.OnClock (looks programs host i b fuel time k) := by
  induction fuel generalizing time k with
  | zero => exact ⟨nofun, .nil⟩
  | succ fuel ih =>
      by_cases hpasses : b.Passes (look programs host i time k)
      · have hdvd : millisecond ∣ b.pauseLength (look programs host i time k) :=
          hwhole.dvd_pauseLength (Nat.dvd_mul_left millisecond time)
        rw [looks_of_pause programs host i (Bounds.turn_of_passes hpasses)]
        refine ⟨List.forall_mem_cons.mpr ⟨Nat.le_refl _, ih.steady⟩,
          List.isChain_cons.mpr ⟨fun q hq length hturn => ?_, ih.slept⟩⟩
        rw [elapsed_of_head?_looks programs host i hq, (Bounds.turn_eq_pause_iff.mp hturn).2,
          Nat.add_mul, Nat.div_mul_cancel hdvd]
        exact Nat.le_refl _
      · rw [looks_of_end programs host i hpasses]
        exact ⟨List.forall_mem_singleton.mpr (Nat.le_refl _), .singleton _⟩

-- A machine looks at a child once for each millisecond of its time and once more, at most, and has
-- then come to an end with it, whatever the child does.
theorem exists_waitFor_looks {timeout : Nat} (hwhole : b.IsWhole)
    (htimeout : b.timeout = some timeout) (hfuel : timeout ⌈/⌉ millisecond < fuel) {κ : Type}
    (program : String) (hands : Hands κ) (after : κ) :
    (looks programs host i b fuel time k).length ≤ timeout ⌈/⌉ millisecond + 1 ∧
      ∃ e, waitFor program b hands (looks programs host i b fuel time k) after = some e := by
  have hclock : b.OnClock (looks programs host i b fuel time k) :=
    onClock_looks programs host i hwhole
  rcases looks_cases programs host i b fuel time k with
    ⟨hall, hlength⟩ | ⟨before, p, heq, hbefore, hends⟩
  · have hle := hclock.length_le_of_forall_passes htimeout hall
    omega
  · rw [heq] at hclock ⊢
    have hle := hclock.left.length_le_of_forall_passes htimeout hbefore
    have hlast : p ∈ before ++ [p] := List.mem_append_right _ (List.mem_singleton_self p)
    exact ⟨by simpa using hle, exists_waitFor_eq_some program hands after hlast hends⟩

end Looks

-- A wait with a bound on its time takes one look for each millisecond of it and one more, at most,
-- before it ends or begins to kill. Each pause is a millisecond or goes to the end of the time, so
-- that none goes more than a millisecond past that, or past the moment at which it is asked for
-- where the time has run out since the look. Only such a pause goes further than the end of the
-- time and a millisecond.
theorem waits_end_promptly :
    (∀ (b : Bounds) (timeout : Nat), b.timeout = some timeout →
      (∀ (κ : Type) program (hands : Hands κ) k polls, b.OnClock polls →
        timeout ⌈/⌉ millisecond < polls.length →
        ∃ e, waitFor program b hands (polls.take (timeout ⌈/⌉ millisecond + 1)) k = some e ∧
          waitFor program b hands polls k = some e) ∧
      ∀ p length, b.turn p = .pause length →
        millisecond ≤ length ∧ length ≤ max millisecond (timeout - p.elapsedAtPause) ∧
        p.elapsedAtPause + length ≤ max timeout p.elapsedAtPause + millisecond ∧
        (timeout + millisecond < p.elapsedAtPause + length ↔ timeout < p.elapsedAtPause) ∧
        (p.elapsed ≤ p.elapsedAtPause → p.elapsed + length ≤ timeout + millisecond)) ∧
    ∀ (i : Invocation) (ms : Nat), i.timeoutMs = some ms →
      ∀ programs host intervalMs k more (κ : Type) program (hands : Hands κ) after,
        let b := i.bounds (intervalMs * millisecond)
        (looks programs host i b (ms + 1 + more) 0 k).length ≤ ms + 1 ∧
          ∃ e, waitFor program b hands (looks programs host i b (ms + 1 + more) 0 k) after =
            some e := by
  refine ⟨fun b timeout htimeout => ⟨fun κ program hands k polls hclock hlong => ?_,
    fun p length hturn => ?_⟩, ?_⟩
  · exact hclock.exists_waitFor_take_eq_some htimeout hlong program hands k
  · have hleast := Bounds.millisecond_le_of_turn hturn
    have hmost := Bounds.le_remaining_of_turn hturn htimeout
    have hlook := Bounds.elapsed_lt_of_turn hturn htimeout
    have hpositive : 0 < millisecond := by decide
    exact ⟨hleast, hmost, by omega, by omega, fun hsteady => by omega⟩
  · intro i ms hms programs host intervalMs k more κ program hands after b
    have htimeout : b.timeout = some (ms * millisecond) := by
      simp only [b, Invocation.bounds, hms, Option.map_some]
    have hceil : ms * millisecond ⌈/⌉ millisecond = ms := by
      rw [Nat.mul_comm]
      exact smul_ceilDiv (by decide) ms
    have hfuel : ms * millisecond ⌈/⌉ millisecond < ms + 1 + more := by omega
    let seen : List Poll := looks programs host i b (ms + 1 + more) 0 k
    have hend : seen.length ≤ ms * millisecond ⌈/⌉ millisecond + 1 ∧
        ∃ e, waitFor program b hands seen after = some e :=
      exists_waitFor_looks programs host i (i.isWhole_bounds intervalMs) htimeout hfuel program
        hands after
    rwa [hceil] at hend

-- The time runs out between the two readings of the clock at the third look, which still asks for
-- a whole millisecond, and the fourth look finds it over. The bound on the looks is reached.
theorem waits_end_promptly_halfMillisecond :
    let b : Bounds := ⟨some 2500000, some 8, millisecond⟩
    let seen : List Poll := [⟨.running, 0, 0, [none, some 8]⟩,
      ⟨.running, 1000000, 1000000, [some 8]⟩, ⟨.running, 2000000, 2600000, [some 8]⟩,
      ⟨.running, 3600000, 3600000, [some 8]⟩]
    let host : Host :=
      { cwd := [], temporary := "/tmp", freshEnd := "a", clock := fun _ => "2024-01-01T00:00:00Z" }
    let i : Invocation := { program := "rests", timeoutMs := some 2 }
    let me : Self :=
      { number := mainNumber, parent := parentNumber, group := mainNumber, cwd := [] }
    let k : Kernel :=
      ⟨{ files := ⟨[]⟩ }, [⟨me, .rest none fun _ => .done (.exited 3), 0, false⟩], 1001⟩
    b.OnClock seen ∧ b.turn seen[2] = .pause millisecond ∧
      (∃ e, waitFor "rests" b (hands host) (seen.take 4) k = some e) ∧
      seen[2].elapsed + millisecond ≤ 2500000 + millisecond ∧
      (looks (fun _ => none) host i (i.bounds (10 * millisecond)) 3 0 k).length ≤ 3 := by
  intro b seen host i me k
  have hclock : b.OnClock seen := by
    constructor
    · decide
    · simp [seen, b, Bounds.turn, Bounds.timedOut, Bounds.overflowed, Bounds.pauseLength,
        millisecond]
  have hturn : b.turn seen[2] = .pause millisecond := by decide
  obtain ⟨hends, hpauses⟩ := waits_end_promptly.1 b 2500000 rfl
  obtain ⟨e, he, -⟩ := hends Kernel "rests" (hands host) k seen hclock (by decide)
  exact ⟨hclock, hturn, ⟨e, he⟩, (hpauses _ _ hturn).2.2.2.2 (by decide),
    (waits_end_promptly.2 i 2 rfl (fun _ => none) host 10 k 0 Kernel "rests" (hands host) k).1⟩

-- A look a tenth of a millisecond before the end of five milliseconds finds the child in time. By
-- the second reading of the clock ten have passed, and the sleep that is asked for then goes to the
-- eleventh, although the clock does not go back and each sleep lasts as long as it is asked for.
theorem late_reading_goes_past :
    let b : Bounds := { program := "rests", timeoutMs := some 5 : Invocation }.bounds millisecond
    let p : Poll := ⟨.running, 4900000, 10000000, []⟩
    b.timeout = some (5 * millisecond) ∧ b.interval = millisecond ∧
      b.OnClock [p, ⟨.running, 11000000, 11000000, []⟩] ∧ b.turn p = .pause millisecond ∧
      5 * millisecond + millisecond < p.elapsedAtPause + millisecond := by
  intro b p
  have hturn : b.turn p = .pause millisecond := by decide
  refine ⟨rfl, rfl, ⟨by decide, ?_⟩, hturn, by decide⟩
  simp [hturn, p, millisecond]

end Machine

end Conformance
