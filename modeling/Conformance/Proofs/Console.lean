import Conformance.Console
import Mathlib.Data.List.Basic

namespace Conformance.Console

variable {c c₁ c' : Console} {output : Output} {outputs more : List Output} {e : IoError}

-- The same console, but all that is told to it from now on gets out.
def healed (c : Console) : Console :=
  { c with fault? := fun _ => none }

-- How often some outputs are tried, if each gets out.
def tries (outputs : List Output) : Nat :=
  outputs.countP Output.isTried

-- What some outputs add to what is written, if each gets out.
def joined (outputs : List Output) : String :=
  String.join (outputs.map Output.shown)

theorem tries_append (outputs more : List Output) :
    tries (outputs ++ more) = tries outputs + tries more :=
  List.countP_append

theorem joined_append (outputs more : List Output) :
    joined (outputs ++ more) = joined outputs ++ joined more := by
  simp [joined]

-- Some outputs got out one after the other, and none of these attempts was to fail.
structure Took (outputs : List Output) (c c' : Console) : Prop where
  written : c'.written = c.written ++ joined outputs
  fault? : c'.fault? = c.fault?
  attempts : c'.attempts = c.attempts + tries outputs
  clear : ∀ n, c.attempts ≤ n → n < c.attempts + tries outputs → c.fault? n = none

-- The console on which some outputs got out.
def taking (c : Console) (outputs : List Output) : Console :=
  { c with attempts := c.attempts + tries outputs, written := c.written ++ joined outputs }

theorem took_taking (h : ∀ n, c.attempts ≤ n → n < c.attempts + tries outputs →
    c.fault? n = none) : Took outputs c (c.taking outputs) :=
  ⟨rfl, rfl, rfl, h⟩

theorem Took.eq_taking (h : Took outputs c c') : c' = c.taking outputs := by
  cases c'
  simpa only [taking, mk.injEq] using ⟨h.fault?, h.attempts, h.written⟩

theorem Took.healed (h : Took outputs c c') : Took outputs c.healed c'.healed :=
  ⟨h.written, rfl, h.attempts, fun _ _ _ => rfl⟩

@[simp] theorem took_nil_iff : Took [] c c' ↔ c' = c := by
  constructor
  · intro h
    simpa [taking, joined, tries] using h.eq_taking
  · rintro rfl
    exact ⟨by simp [joined], rfl, rfl, fun _ hle hlt => absurd hlt (Nat.not_lt.mpr hle)⟩

theorem took_append_iff :
    Took (outputs ++ more) c c' ↔ ∃ c₁, Took outputs c c₁ ∧ Took more c₁ c' := by
  constructor
  · intro h
    have hclear := h.clear
    rw [tries_append] at hclear
    refine ⟨c.taking outputs, took_taking fun n hle hlt => hclear n hle (by omega), ?_⟩
    refine ⟨?_, h.fault?, ?_, fun n hle hlt => hclear n ?_ ?_⟩
    · simp [h.written, taking, joined_append, String.append_assoc]
    · rw [h.attempts, tries_append, taking, Nat.add_assoc]
    · exact Nat.le_trans (Nat.le_add_right _ _) hle
    · simp only [taking] at hlt
      omega
  · rintro ⟨c₁, h, h'⟩
    refine ⟨?_, h'.fault?.trans h.fault?, ?_, fun n hle hlt => ?_⟩
    · rw [h'.written, h.written, joined_append, String.append_assoc]
    · rw [h'.attempts, h.attempts, tries_append, Nat.add_assoc]
    · rw [tries_append] at hlt
      by_cases hfirst : n < c.attempts + tries outputs
      · exact h.clear n hle hfirst
      · rw [← h.fault?]
        exact h'.clear n (by rw [h.attempts]; omega) (by rw [h.attempts]; omega)

theorem put_eq_ok_iff : c.put output = (.ok (), c') ↔ Took [output] c c' := by
  unfold put
  by_cases htried : output.isTried = true
  · have htries : tries [output] = 1 := by simp [tries, htried]
    have hjoined : joined [output] = output.shown := by simp [joined]
    rw [if_pos htried]
    dsimp only
    constructor
    · intro h
      split at h
      · cases h
      · rename_i hfault
        cases h
        refine ⟨by rw [hjoined], rfl, by rw [htries], fun n hle hlt => ?_⟩
        have hn : n = c.attempts := by omega
        rwa [hn]
    · intro h
      rw [h.clear c.attempts (Nat.le_refl _) (by omega), h.eq_taking, taking, htries, hjoined]
  · have hjoined : joined [output] = "" := by
      cases output <;> simp_all [joined, Output.isTried, Output.shown]
    have htries : tries [output] = 0 := by simp [tries, htried]
    rw [if_neg htried]
    constructor
    · rintro ⟨⟩
      exact ⟨by rw [hjoined, String.append_empty], rfl, by rw [htries, Nat.add_zero],
        fun n hle hlt => by omega⟩
    · intro h
      rw [h.eq_taking, taking, htries, hjoined, String.append_empty, Nat.add_zero]

-- An output that did not get out was tried in vain.
theorem put_eq_error (h : c.put output = (.error e, c')) :
    c'.written = c.written ∧ output.isTried = true ∧ c.fault? c.attempts = some e := by
  unfold put at h
  by_cases htried : output.isTried = true
  · rw [if_pos htried] at h
    dsimp only at h
    split at h
    · rename_i hfault
      cases h
      exact ⟨rfl, htried, hfault⟩
    · cases h
  · rw [if_neg htried] at h
    cases h

theorem putAll_eq_ok_iff : c.putAll outputs = (.ok (), c') ↔ Took outputs c c' := by
  induction outputs generalizing c with
  | nil =>
      rw [took_nil_iff, putAll]
      exact ⟨fun h => by cases h; rfl, fun h => by rw [h]⟩
  | cons output rest ih =>
      rw [← List.singleton_append, took_append_iff]
      simp only [← put_eq_ok_iff, ← ih, List.singleton_append, putAll]
      rcases c.put output with ⟨_ | _, c₁⟩
      · simp
      · simp

end Conformance.Console
