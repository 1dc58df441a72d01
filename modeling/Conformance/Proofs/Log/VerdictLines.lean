import Conformance.Log.Check
import Conformance.Proofs.Json.Normal
import Conformance.Proofs.Json.Record

namespace Conformance.Log

open Json

-- A member of the object on a line. Of equal names the last one counts.
def lineMember? (text name : String) : Option Value :=
  (Value.ofText text).toOption.bind (Value.member? name)

-- The members that tell which fixture a verdict is about, and how it came out.
def verdictNames : List String :=
  ["fixture", "category", "outcome"]

namespace Entry

-- No field of an entry is set by the member of another one.
theorem layout_keeps : ∀ field ∈ layout.fields,
    (field.name ≠ "event" → field.Keeps Entry.event) ∧
    (field.name ≠ "fixture" → field.Keeps Entry.fixture) ∧
    (field.name ≠ "category" → field.Keeps Entry.category) ∧
    (field.name ≠ "outcome" → field.Keeps Entry.outcome) := by
  intro field hm
  simp only [layout, List.mem_cons, List.not_mem_nil, or_false] at hm
  rcases hm with rfl | rfl | rfl | rfl | rfl | rfl | rfl | rfl | rfl | rfl | rfl | rfl | rfl <;>
    refine ⟨?_, ?_, ?_, ?_⟩ <;> intro hne <;>
    first
    | exact absurd rfl hne
    | exact Field.keeps_required fun _ _ => rfl
    | exact Field.keeps_absent fun _ _ => rfl

end Entry

theorem missingFields_eq_nil_iff (line : Nat) (message : String) (obj : Value)
    (fields : List String) :
    missingFields line message obj fields = [] ↔
      ∀ name ∈ fields, (obj.member? name).isSome = true := by
  simp [missingFields, List.filter_eq_nil_iff, Option.isSome_iff_ne_none]

-- An accepted line holds an object of the right form, which is the entry.
theorem object_of_checkLine {text : String} {line : Nat} {entry : Entry}
    (h : checkLine text line = .ok entry) :
    ∃ members, Value.ofText text = .ok (.object members) ∧
      formViolations line (.object members) = [] ∧
      decodeValue Entry.layout.decode (.object members) = .ok entry := by
  unfold checkLine at h
  split at h
  · cases h
  · rename_i members hread
    split at h
    · rename_i hform
      split at h
      · rename_i found hdecode
        cases h
        exact ⟨members, hread, hform, hdecode⟩
      · cases h
    · cases h
  · cases h

-- The names of a verdict are on each accepted line that tells one, but a null
-- counts as a name that is there and decodes to nothing.
theorem checkLine_verdict_iff {text : String} {line : Nat} {entry : Entry}
    (h : checkLine text line = .ok entry) (he : entry.event = "fixture_verdict") :
    (∀ name ∈ verdictNames, (lineMember? text name).isSome = true) ∧
    ((entry.fixture.isSome = true ∧ entry.category.isSome = true ∧ entry.outcome.isSome = true) ↔
      ∀ name ∈ verdictNames, lineMember? text name ≠ some .null) := by
  obtain ⟨members, hread, hform, hdecode⟩ := object_of_checkLine h
  have hnormal := normal_of_ofText hread
  have hmember : ∀ name, lineMember? text name = (Value.object members).member? name := by
    intro name
    simp [lineMember?, hread, Except.toOption]
  simp only [formViolations, List.append_eq_nil_iff, missingFields_eq_nil_iff] at hform
  obtain ⟨⟨⟨⟨⟨⟨hrequired, _⟩, _⟩, _⟩, _⟩, hverdict⟩, _⟩ := hform
  obtain ⟨event, hevent⟩ := Option.isSome_iff_exists.mp (hrequired "event" (by simp))
  have htext : event = .string "fixture_verdict" := by
    have hdecoded := decodeValue_required hnormal hevent hdecode Entry.event
      (fun v e => { e with event := v }) (fun field hm => (Entry.layout_keeps field hm).1) rfl
      fun _ _ => rfl
    exact eq_string_of_decode (he ▸ hdecoded)
  have hpresent : ∀ name ∈ verdictNames, ((Value.object members).member? name).isSome = true := by
    rw [verdictFields, isVerdict, hevent, htext] at hverdict
    exact (missingFields_eq_nil_iff _ _ _ _).mp hverdict
  refine ⟨fun name hn => (hmember name).symm ▸ hpresent name hn, ?_⟩
  obtain ⟨fixture, hfixture⟩ := Option.isSome_iff_exists.mp (hpresent "fixture" (by decide))
  obtain ⟨category, hcategory⟩ := Option.isSome_iff_exists.mp (hpresent "category" (by decide))
  obtain ⟨outcome, houtcome⟩ := Option.isSome_iff_exists.mp (hpresent "outcome" (by decide))
  have hf := decodeValue_absent hnormal hfixture hdecode Entry.fixture
    (fun v e => { e with fixture := v }) (fun field hm => (Entry.layout_keeps field hm).2.1) rfl
    fun _ _ => rfl
  have hc := decodeValue_absent hnormal hcategory hdecode Entry.category
    (fun v e => { e with category := v }) (fun field hm => (Entry.layout_keeps field hm).2.2.1) rfl
    fun _ _ => rfl
  have ho := decodeValue_absent hnormal houtcome hdecode Entry.outcome
    (fun v e => { e with outcome := v }) (fun field hm => (Entry.layout_keeps field hm).2.2.2) rfl
    fun _ _ => rfl
  simp [hf, hc, ho, verdictNames, hmember, hfixture, hcategory, houtcome]

theorem eq_ok_of_toOption {x : Except ε α} {a : α} (h : x.toOption = some a) :
    x = .ok a := by
  cases x with
  | error e => cases h
  | ok b => exact congrArg Except.ok (Option.some.inj h)

-- A verdict with some members behind the ones that every line has.
def verdictLine (members : String) : String :=
  "\x7b\"timestamp\":\"t\",\"trace_id\":\"a::b::1\",\"level\":\"info\"," ++
    "\"event\":\"fixture_verdict\"," ++ members ++ "\x7d"

-- The last of two equal names counts, so the null before it does no harm.
theorem checkLine_verdict_repeated_name :
    ∃ entry, checkLine (verdictLine
        "\"fixture\":null,\"fixture\":\"x\",\"category\":\"valid\",\"outcome\":\"pass\"") 1 =
        .ok entry ∧ entry.event = "fixture_verdict" ∧
      entry.fixture.isSome = true ∧ entry.category.isSome = true ∧ entry.outcome.isSome = true := by
  have hevent : (checkLine (verdictLine
      "\"fixture\":null,\"fixture\":\"x\",\"category\":\"valid\",\"outcome\":\"pass\"")
      1).toOption.map Entry.event = some "fixture_verdict" := by
    decide +kernel
  have htexts : ∀ name ∈ verdictNames, ((lineMember? (verdictLine
      "\"fixture\":null,\"fixture\":\"x\",\"category\":\"valid\",\"outcome\":\"pass\"")
      name).bind Value.text?).isSome = true := by
    decide +kernel
  obtain ⟨entry, hread, he⟩ := Option.map_eq_some_iff.mp hevent
  have h := eq_ok_of_toOption hread
  refine ⟨entry, h, he, (checkLine_verdict_iff h he).2.mpr fun name hn hnull => ?_⟩
  have htext := htexts name hn
  rw [hnull] at htext
  cases htext

-- A verdict about no fixture, without a category and an outcome, is accepted.
theorem checkLine_accepts_null_verdict :
    ∃ entry, checkLine (verdictLine "\"fixture\":null,\"category\":null,\"outcome\":null") 1 =
        .ok entry ∧ entry.event = "fixture_verdict" ∧
      entry.fixture = none ∧ entry.category = none ∧ entry.outcome = none := by
  have hfields : (checkLine (verdictLine "\"fixture\":null,\"category\":null,\"outcome\":null")
      1).toOption.map (fun e => (e.event, e.fixture, e.category, e.outcome)) =
      some ("fixture_verdict", none, none, none) := by
    decide +kernel
  obtain ⟨entry, hread, hentry⟩ := Option.map_eq_some_iff.mp hfields
  simp only [Prod.mk.injEq] at hentry
  exact ⟨entry, eq_ok_of_toOption hread, hentry⟩

end Conformance.Log
