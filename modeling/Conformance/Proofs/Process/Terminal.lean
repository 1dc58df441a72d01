import Conformance.Proofs.Process.Waiting

namespace Conformance

namespace Bounds

variable {κ : Type} {program : String} {b : Bounds} {hands : Hands κ} {k : κ} {p : Poll}
  {e : WaitEnd κ} {polls : List Poll}

def Late (b : Bounds) (p : Poll) : Prop :=
  ∃ timeout, b.timeout = some timeout ∧ timeout ≤ p.elapsed

-- A captured stream that cannot be measured counts as one within the limit.
def Flooded (b : Bounds) (p : Poll) (limit : Nat) : Prop :=
  b.limitBytes = some limit ∧ ∃ size, some size ∈ p.sizes ∧ limit < size

-- A look at which a wait comes to its end.
def Final (b : Bounds) (p : Poll) : Prop :=
  (∃ status, p.sight = .ended status) ∨ (∃ cause, p.sight = .failed cause) ∨ b.Late p ∨
    ∃ limit, b.Flooded p limit

-- What a wait tells that comes to its end at a look, and what it has done to the child.
structure Answers (b : Bounds) (program : String) (hands : Hands κ) (k : κ) (p : Poll)
    (e : WaitEnd κ) : Prop where
  -- an end of its own counts even when the child is late or wrote too much
  ended : ∀ status, p.sight = .ended status → e.result = .ok status ∧ e.after = k
  failed : ∀ cause, p.sight = .failed cause →
    e.result = .error (.wait program cause) ∧ e.after = k
  -- a child that still runs is killed, and must be reaped before anything else is told
  killed : p.sight = .running → e.after = (terminate hands k).2
  unreaped : p.sight = .running → ∀ cause, (terminate hands k).1 = .error cause →
    e.result = .error (.reap program cause)
  late : p.sight = .running → (terminate hands k).1 = .ok () → b.Late p →
    e.result = .ok .timedOut
  flooded : p.sight = .running → (terminate hands k).1 = .ok () → ¬b.Late p →
    ∀ limit, b.Flooded p limit → e.result = .ok (.outputLimitExceeded limit)

theorem timedOut_iff : b.timedOut p = true ↔ b.Late p := by
  simp [timedOut, Late, Option.any_eq_true]

theorem overflowed_iff {limit : Nat} :
    overflowed limit p = true ↔ ∃ size, some size ∈ p.sizes ∧ limit < size := by
  simp only [overflowed, List.any_eq_true, Option.any_eq_true, decide_eq_true_eq]
  constructor
  · rintro ⟨_, hmem, size, rfl, hlt⟩
    exact ⟨size, hmem, hlt⟩
  · rintro ⟨size, hmem, hlt⟩
    exact ⟨some size, hmem, size, rfl, hlt⟩

theorem broken?_eq_none_iff_within :
    b.broken? p = none ↔ ¬b.Late p ∧ ∀ limit, ¬b.Flooded p limit := by
  rw [broken?_eq_none_iff, ← timedOut_iff, Bool.not_eq_true]
  simp only [Flooded, ← overflowed_iff, not_and, Bool.not_eq_true, Option.mem_def]

theorem passes_iff_not_final : b.Passes p ↔ ¬b.Final p := by
  rw [Passes, broken?_eq_none_iff_within, Final]
  cases p.sight <;> simp

theorem passes_of_unbounded (htimeout : b.timeout = none) (hlimit : b.limitBytes = none)
    (h : p.sight = .running) : b.Passes p := by
  rw [passes_iff_not_final]
  simp [Final, Late, Flooded, htimeout, hlimit, h]

theorem broken?_of_late (h : b.Late p) : b.broken? p = some .timedOut := by
  rw [broken?, if_pos (timedOut_iff.mpr h)]

theorem broken?_of_flooded {limit : Nat} (hlate : ¬b.Late p) (h : b.Flooded p limit) :
    b.broken? p = some (.outputLimitExceeded limit) := by
  rw [broken?, if_neg (mt timedOut_iff.mp hlate), h.1]
  exact if_pos (overflowed_iff.mpr h.2)

theorem Decides.final (h : b.Decides program hands p k e) : b.Final p := by
  by_contra hnot
  obtain ⟨hrunning, hwithin⟩ := passes_iff_not_final.mpr hnot
  cases h with
  | ended status h => cases hrunning.symm.trans h
  | lost cause h => cases hrunning.symm.trans h
  | stopped status after h hbroken hreap => cases hwithin.symm.trans hbroken
  | unreaped status cause after h hbroken hreap => cases hwithin.symm.trans hbroken

theorem Decides.answers (h : b.Decides program hands p k e) : b.Answers program hands k p e := by
  cases h with
  | ended status h => constructor <;> simp [h]
  | lost cause h => constructor <;> simp [h]
  | unreaped status cause after h hbroken hreap => constructor <;> simp [h, hreap]
  | stopped status after h hbroken hreap =>
      constructor
      · simp [h]
      · simp [h]
      · simp [hreap]
      · simp [hreap]
      · intro _ _ hlate
        rw [broken?_of_late hlate] at hbroken
        cases hbroken
        rfl
      · intro _ _ hlate limit hflooded
        rw [broken?_of_flooded hlate hflooded] at hbroken
        cases hbroken
        rfl

-- What is to be told at a look is all there is to the end of a wait.
theorem Decides.eq_of_answers {e' : WaitEnd κ} (h : b.Decides program hands p k e)
    (h' : b.Answers program hands k p e') : e' = e := by
  have heq : ∀ result after, e'.result = result → e'.after = after → e' = ⟨result, after⟩ := by
    rintro _ _ rfl rfl
    rfl
  cases h with
  | ended status h => exact heq _ _ (h'.ended status h).1 (h'.ended status h).2
  | lost cause h => exact heq _ _ (h'.failed cause h).1 (h'.failed cause h).2
  | unreaped status cause after h hbroken hreap =>
      have hafter := h'.killed h
      have hfailed := h'.unreaped h cause
      rw [hreap] at hafter hfailed
      exact heq _ _ (hfailed rfl) hafter
  | stopped status after h hbroken hreap =>
      have hafter := h'.killed h
      have hlated := h'.late h
      have hflooded := h'.flooded h
      rw [hreap] at hafter hlated hflooded
      refine heq _ _ ?_ hafter
      by_cases hlate : b.Late p
      · rw [broken?_of_late hlate] at hbroken
        cases hbroken
        exact hlated rfl hlate
      · rcases broken?_eq_some hbroken with ⟨htimedOut, -⟩ | ⟨limit, hlimit, hover, rfl⟩
        · exact absurd (timedOut_iff.mp htimedOut) hlate
        · exact hflooded rfl hlate limit ⟨hlimit, overflowed_iff.mp hover⟩

theorem decides_iff :
    b.Decides program hands p k e ↔ b.Final p ∧ b.Answers program hands k p e := by
  constructor
  · intro h
    exact ⟨h.final, h.answers⟩
  · rintro ⟨hfinal, hanswers⟩
    rcases passes_or_exists_decides program b hands p k with hpasses | ⟨e', hdecides⟩
    · exact absurd hfinal (passes_iff_not_final.mp hpasses)
    · rwa [hdecides.eq_of_answers hanswers]

end Bounds

section Waiting

variable {κ : Type} {program : String} {b : Bounds} {hands : Hands κ} {k : κ} {polls : List Poll}

-- A wait ends at the first final look, and tells what is to be told there.
theorem waitFor_eq_some_iff_final {e : WaitEnd κ} : waitFor program b hands polls k = some e ↔
    ∃ before p rest, polls = before ++ p :: rest ∧ (∀ q ∈ before, ¬b.Final q) ∧ b.Final p ∧
      b.Answers program hands k p e := by
  simp only [waitFor_eq_some_iff, Bounds.passes_iff_not_final, Bounds.decides_iff]

theorem exists_waitFor_eq_some_iff :
    (∃ e, waitFor program b hands polls k = some e) ↔ ∃ p ∈ polls, b.Final p := by
  constructor
  · rintro ⟨e, h⟩
    obtain ⟨before, p, rest, rfl, -, hfinal, -⟩ := waitFor_eq_some_iff_final.mp h
    exact ⟨p, List.mem_append_right before List.mem_cons_self, hfinal⟩
  · rintro ⟨p, hp, hfinal⟩
    exact exists_waitFor_eq_some program hands k hp fun h =>
      Bounds.passes_iff_not_final.mp h hfinal

-- Without bounds a look ends a wait just when the child does not run any more, so that polling
-- it comes to the same as waiting for it.
theorem waitPlainly_eq_waitFor (htimeout : b.timeout = none) (hlimit : b.limitBytes = none) :
    waitPlainly program polls k = waitFor program b hands polls k := by
  induction polls with
  | nil => rfl
  | cons p rest ih =>
      rw [waitPlainly]
      cases hsight : p.sight with
      | ended status => exact (waitFor_cons_of_decides (.ended status hsight)).symm
      | failed cause => exact (waitFor_cons_of_decides (.lost cause hsight)).symm
      | running =>
          exact ih.trans
            (waitFor_cons_of_passes (Bounds.passes_of_unbounded htimeout hlimit hsight)).symm

-- Whether a command is polled or waited for, the end of it is the same.
theorem Invocation.await_eq_waitFor_bounds (i : Invocation) (interval : Nat) :
    i.await interval hands polls k = waitFor i.program (i.bounds interval) hands polls k := by
  unfold Invocation.await
  split
  · rename_i hunbounded
    exact waitPlainly_eq_waitFor (by simp [Invocation.bounds, hunbounded.1]) hunbounded.2
  · rfl

end Waiting

end Conformance
