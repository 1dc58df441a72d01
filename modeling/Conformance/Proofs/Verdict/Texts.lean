import Conformance.Log.Book
import Conformance.Proofs.Json.Scalar
import Conformance.Proofs.Verdict.Passing

namespace Conformance

namespace Text

theorem natText_injective : Function.Injective (toString : Nat → String) := by
  intro m n h
  have hdigits : Nat.toDigits 10 m = Nat.toDigits 10 n := by
    have htexts := congrArg String.toList h
    rwa [Nat.toString_eq_repr, Nat.toString_eq_repr, Nat.toList_repr, Nat.toList_repr] at htexts
  rw [← Nat.ofDigitChars_ten_toDigits (n := m), hdigits, Nat.ofDigitChars_ten_toDigits]

-- No digit is a minus sign.
theorem natText_ne_negative (m n : Nat) :
    toString (Int.ofNat m) ≠ toString (Int.negSucc n) := by
  intro h
  have htexts : Nat.toDigits 10 m = '-' :: Nat.toDigits 10 (n + 1) := by
    rw [← Json.toList_text_ofNat, ← Json.toList_text_negSucc]
    exact congrArg String.toList h
  have hdigit : Json.isDigit '-' = true :=
    Json.isDigit_of_mem_toDigits (htexts ▸ List.mem_cons_self)
  cases hdigit

theorem intText_injective : Function.Injective (toString : Int → String) := by
  intro i j h
  cases i with
  | ofNat m =>
      cases j with
      | ofNat n => exact congrArg Int.ofNat (natText_injective h)
      | negSucc n => exact absurd h (natText_ne_negative m n)
  | negSucc m =>
      cases j with
      | ofNat n => exact absurd h.symm (natText_ne_negative n m)
      | negSucc n =>
          have hsucc : m + 1 = n + 1 := natText_injective ((String.append_right_inj "-").mp h)
          exact congrArg Int.negSucc (Nat.succ.inj hsucc)

end Text

namespace Outcome

-- An outcome without its code or its detail.
inductive Shape where
  | accepted
  | rejected
  | exited
  | timedOut (stage : Stage)
  | crashed (stage : Stage)
deriving DecidableEq

namespace Shape

def all : List Shape :=
  [accepted, rejected, exited] ++ Stage.all.map timedOut ++ Stage.all.map crashed

theorem mem_all (s : Shape) : s ∈ all := by
  rcases s with _ | _ | _ | (_ | _ | _) | (_ | _ | _) <;> decide

-- What the text of an outcome begins with.
def opening : Shape → String
  | accepted => "accepted"
  | rejected => "compiler exit "
  | exited => "program exit "
  | timedOut stage => stage.name ++ " timed out"
  | crashed stage => stage.name ++ " crashed: "

-- No text begins in two ways.
theorem eq_of_opening_prefix {s t : Shape} (h : s.opening.toList <+: t.opening.toList) :
    s = t := by
  have hall : ∀ s ∈ all, ∀ t ∈ all, s.opening.toList <+: t.opening.toList → s = t := by
    decide +kernel
  exact hall s s.mem_all t t.mem_all h

end Shape

def shape : Outcome → Shape
  | accepted => .accepted
  | rejectedAs _ => .rejected
  | exited _ => .exited
  | timedOut stage => .timedOut stage
  | crashed stage _ => .crashed stage

-- What the text goes on with.
def remainder : Outcome → String
  | accepted => ""
  | rejectedAs code => toString code
  | exited code => toString code
  | timedOut _ => ""
  | crashed _ detail => detail

theorem message_eq (o : Outcome) : o.message = o.shape.opening ++ o.remainder := by
  cases o with
  | accepted => exact String.append_empty.symm
  | rejectedAs code => rfl
  | exited code => rfl
  | timedOut stage => exact String.append_empty.symm
  | crashed stage detail => rfl

theorem parts_eq_of_message_eq {o o' : Outcome} (h : o.message = o'.message) :
    o.shape = o'.shape ∧ o.remainder = o'.remainder := by
  rw [message_eq, message_eq] at h
  have htexts := congrArg String.toList h
  rw [String.toList_append, String.toList_append] at htexts
  have hopening : o.shape.opening.toList <+: o'.shape.opening.toList ∨
      o'.shape.opening.toList <+: o.shape.opening.toList :=
    List.prefix_or_prefix_of_prefix (htexts ▸ List.prefix_append _ _) (List.prefix_append _ _)
  have hshape : o.shape = o'.shape := hopening.elim Shape.eq_of_opening_prefix
    fun hprefix => (Shape.eq_of_opening_prefix hprefix).symm
  rw [hshape] at h
  exact ⟨hshape, (String.append_right_inj _).mp h⟩

-- Different outcomes are told in different words.
theorem message_injective : Function.Injective message := by
  intro o o' h
  obtain ⟨hshape, hremainder⟩ := parts_eq_of_message_eq h
  cases o with
  | accepted => cases o' with
    | accepted => rfl
    | _ => cases hshape
  | rejectedAs code => cases o' with
    | rejectedAs code' => rw [Text.intText_injective hremainder]
    | _ => cases hshape
  | exited code => cases o' with
    | exited code' => rw [Text.natText_injective hremainder]
    | _ => cases hshape
  | timedOut stage => cases o' with
    | timedOut stage' =>
        cases hshape
        rfl
    | _ => cases hshape
  | crashed stage detail => cases o' with
    | crashed stage' detail' =>
        cases hshape
        exact congrArg (crashed stage) hremainder
    | _ => cases hshape

end Outcome

-- What is expected is told in the words for the one outcome that meets it.
theorem Expectation.message_goal (e : Expectation) : e.goal.message = e.message := by
  cases e <;> rfl

-- An expectation is met exactly if the outcome is told in its words.
theorem Expectation.isMetBy_iff_message_eq (e : Expectation) (o : Outcome) :
    e.isMetBy o = true ↔ e.message = o.message := by
  rw [isMetBy_iff, ← message_goal, Outcome.message_injective.eq_iff, eq_comm]

theorem Log.Entry.outcome_ofVerdict_eq_pass_iff (v : Verdict) :
    (ofVerdict v).outcome = some .pass ↔ v.passed = true := by
  rcases v with ⟨_, _, _ | _, _, outcome, _, _⟩
  · cases outcome <;> simp [ofVerdict, markOf]
  · simp [ofVerdict, markOf]

-- A verdict passes exactly if what was expected and what was observed are told in the same
-- words. So the table of failures has one row for each verdict whose two texts differ, and a
-- line of a log says `pass` if and only if the two texts in its details are the same.
theorem classify_passed_iff_same_text (config : Config) :
    (∀ f run, (classify f run config).passed = true ↔
      (classify f run config).expected = (classify f run config).outcome.message) ∧
    (∀ seen : List (Fixture × FixtureRun),
      (Summary.ofResults (seen.map fun p => classify p.1 p.2 config)).failures.map
          Report.failureRow =
        ((seen.map fun p => classify p.1 p.2 config).filter fun v =>
          v.expected ≠ v.outcome.message).map fun v =>
            Report.row [v.fixtureId, v.category.name, v.expected, v.outcome.message]) ∧
    ∀ f run, ∃ expected observed,
      (Log.Entry.ofVerdict (classify f run config)).details = some (.object
        [("expected", .string expected), ("observed", .string observed)]) ∧
      ((Log.Entry.ofVerdict (classify f run config)).outcome = some .pass ↔
        expected = observed) := by
  have hpassed : ∀ f run, (classify f run config).passed = true ↔
      (classify f run config).expected = (classify f run config).outcome.message :=
    fun f run => Expectation.isMetBy_iff_message_eq (.ofFixture f config) run.outcome
  refine ⟨hpassed, fun seen => ?_, fun f run => ?_⟩
  · have hfailures : (Summary.ofResults (seen.map fun p => classify p.1 p.2 config)).failures =
        (seen.map fun p => classify p.1 p.2 config).filter fun v =>
          v.expected ≠ v.outcome.message := by
      refine List.filter_congr fun v hv => ?_
      obtain ⟨p, -, rfl⟩ := List.mem_map.mp hv
      rw [Bool.eq_iff_iff, Bool.not_eq_true', Bool.eq_false_iff, decide_eq_true_eq]
      exact not_congr (hpassed p.1 p.2)
    rw [hfailures]
    rfl
  · refine ⟨_, _, rfl, ?_⟩
    rw [Log.Entry.outcome_ofVerdict_eq_pass_iff]
    exact hpassed f run

end Conformance
