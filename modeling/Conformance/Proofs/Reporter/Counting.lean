import Conformance.Proofs.Catalog.Account
import Mathlib.Data.List.Induction

namespace Conformance

namespace Reporter

-- What can be asked of a reporter.
inductive Call where
  | banner
  | beginCategory (category : Category) (skipped : Nat)
  | record (v : Verdict)
  | finishCategory

namespace Call

def verdict? : Call → Option Verdict
  | record v => some v
  | _ => none

-- The call neither begins nor ends a category.
def staysWithin : Call → Bool
  | banner => true
  | record _ => true
  | _ => false

end Call

-- The reporter behind a call, whether or not the call came to its end.
def after (r : Reporter) : Call → Reporter
  | .banner => r.banner.2
  | .beginCategory category skipped => (r.beginCategory category skipped).2
  | .record v => (r.record v).2
  | .finishCategory => r.finishCategory.2

def afterAll (r : Reporter) (calls : List Call) : Reporter :=
  calls.foldl after r

-- The category that calls began last, with the verdicts that were handed over since, when
-- no call has ended it.
def LeaveOpen (calls : List Call) (category : Category) (skipped : Nat)
    (verdicts : List Verdict) : Prop :=
  ∃ before since, calls = before ++ .beginCategory category skipped :: since ∧
    (∀ call ∈ since, call.staysWithin = true) ∧ verdicts = since.filterMap Call.verdict?

section LeaveOpen

variable {calls : List Call} {call : Call} {category : Category} {skipped : Nat}
  {verdicts : List Verdict}

theorem not_leaveOpen_nil : ¬LeaveOpen [] category skipped verdicts := by
  rintro ⟨before, since, hcalls, -⟩
  exact List.append_ne_nil_of_right_ne_nil before (List.cons_ne_nil _ since) hcalls.symm

theorem filterMap_verdict?_concat (calls : List Call) (call : Call) :
    (calls ++ [call]).filterMap Call.verdict? =
      calls.filterMap Call.verdict? ++ call.verdict?.toList := by
  rw [List.filterMap_append, List.filterMap_cons, List.filterMap_nil]
  cases call.verdict? <;> rfl

-- With one more call, the category is the one that this call begins, or the one before if the
-- call stays within it.
theorem leaveOpen_concat_iff : LeaveOpen (calls ++ [call]) category skipped verdicts ↔
    (call = .beginCategory category skipped ∧ verdicts = []) ∨
      call.staysWithin = true ∧ ∃ earlier, LeaveOpen calls category skipped earlier ∧
        verdicts = earlier ++ call.verdict?.toList := by
  constructor
  · rintro ⟨before, since, hcalls, hwithin, rfl⟩
    rcases List.eq_nil_or_concat' since with rfl | ⟨since, last, rfl⟩
    · obtain ⟨-, hcall⟩ := List.append_inj' hcalls rfl
      exact .inl ⟨List.singleton_inj.mp hcall, rfl⟩
    · rw [← List.cons_append, ← List.append_assoc] at hcalls
      obtain ⟨rfl, hcall⟩ := List.append_inj' hcalls rfl
      obtain rfl := List.singleton_inj.mp hcall
      refine .inr ⟨hwithin call (List.mem_append_right _ (List.mem_singleton_self call)), _,
        ⟨before, since, rfl, fun other h => hwithin other (List.mem_append_left _ h), rfl⟩, ?_⟩
      exact filterMap_verdict?_concat since call
  · rintro (⟨rfl, rfl⟩ | ⟨hcall, earlier, ⟨before, since, rfl, hwithin, rfl⟩, rfl⟩)
    · exact ⟨calls, [], rfl, nofun, rfl⟩
    · refine ⟨before, since ++ [call], List.append_assoc _ _ _, ?_, ?_⟩
      · intro other hother
        rcases List.mem_append.mp hother with hother | hother
        · exact hwithin other hother
        · rwa [List.mem_singleton.mp hother]
      · exact (filterMap_verdict?_concat since call).symm

theorem leaveOpen_of_not_mem {before since : List Call} (h : .finishCategory ∉ since) :
    ∃ category' skipped' verdicts, LeaveOpen (before ++ .beginCategory category skipped :: since)
      category' skipped' verdicts := by
  induction since using List.reverseRecOn with
  | nil => exact ⟨category, skipped, [], before, [], rfl, nofun, rfl⟩
  | append_singleton since last ih =>
      rw [List.mem_append, List.mem_singleton, not_or] at h
      obtain ⟨category', skipped', verdicts, hopen⟩ := ih h.1
      rw [← List.cons_append, ← List.append_assoc]
      simp only [leaveOpen_concat_iff]
      cases last with
      | banner => exact ⟨_, _, _, .inr ⟨rfl, _, hopen, rfl⟩⟩
      | beginCategory category skipped => exact ⟨_, _, _, .inl ⟨rfl, rfl⟩⟩
      | record v => exact ⟨_, _, _, .inr ⟨rfl, _, hopen, rfl⟩⟩
      | finishCategory => exact absurd rfl h.2

-- A category is left open exactly if one was begun behind the last end of one.
theorem exists_leaveOpen_iff : (∃ category skipped verdicts,
      LeaveOpen calls category skipped verdicts) ↔
    ∃ before category skipped since,
      calls = before ++ .beginCategory category skipped :: since ∧ .finishCategory ∉ since := by
  constructor
  · rintro ⟨category, skipped, verdicts, before, since, hcalls, hwithin, -⟩
    exact ⟨before, category, skipped, since, hcalls, fun hfinish => nomatch hwithin _ hfinish⟩
  · rintro ⟨before, category, skipped, since, rfl, hfinish⟩
    exact leaveOpen_of_not_mem hfinish

end LeaveOpen

section Current

variable (r : Reporter) (console : Console) (calls : List Call)

theorem current_after_banner : (r.after .banner).current = r.current :=
  rfl

theorem current_after_beginCategory (category : Category) (skipped : Nat) :
    (r.after (.beginCategory category skipped)).current = some (.opened category skipped) :=
  rfl

theorem record_of_closed (h : r.current = none) (v : Verdict) :
    r.record v = (.error (.other "verdict recorded outside of a category"), r) := by
  rw [record, h]

theorem current_after_record (v : Verdict) :
    (r.after (.record v)).current = r.current.map fun report => report.counting v := by
  rw [after]
  cases h : r.current with
  | none => rw [record_of_closed r h, h, Option.map_none]
  | some report =>
      rw [record, h]
      rfl

theorem finishCategory_of_closed (h : r.current = none) :
    r.finishCategory = (.error (.other "no category in progress"), r) := by
  rw [finishCategory, h]

-- The category is closed first, and then its report is told.
theorem finishCategory_of_open {report : CategoryReport} (h : r.current = some report) :
    r.finishCategory = ((r.console.putAll (closingPieces report)).1.map fun _ => report,
      ⟨(r.console.putAll (closingPieces report)).2, none⟩) := by
  rw [finishCategory, h]
  simp only [tell]
  cases r.console.putAll (closingPieces report) with
  | mk result c => cases result <;> rfl

theorem current_after_finishCategory : (r.after .finishCategory).current = none := by
  rw [after]
  cases h : r.current with
  | none => rw [finishCategory_of_closed r h, h]
  | some report => rw [finishCategory_of_open r h]

theorem afterAll_concat (call : Call) :
    r.afterAll (calls ++ [call]) = (r.afterAll calls).after call :=
  List.foldl_concat after r call calls

-- A verdict more in the report on some verdicts.
theorem counting_ofVerdicts (category : Category) (skipped : Nat) (verdicts : List Verdict)
    (v : Verdict) : (CategoryReport.ofVerdicts category skipped verdicts).counting v =
      .ofVerdicts category skipped (verdicts ++ [v]) :=
  CategoryReport.foldl_counting category skipped verdicts [v]

-- Whichever writes failed, the report that is open counts all verdicts that were handed over.
theorem current_afterAll_iff (report : CategoryReport) :
    (afterAll { console := console } calls).current = some report ↔
      ∃ category skipped verdicts, LeaveOpen calls category skipped verdicts ∧
        report = .ofVerdicts category skipped verdicts := by
  induction calls using List.reverseRecOn generalizing report with
  | nil => exact iff_of_false nofun fun ⟨_, _, _, hopen, _⟩ => not_leaveOpen_nil hopen
  | append_singleton calls call ih =>
      rw [afterAll_concat]
      simp only [leaveOpen_concat_iff]
      cases call with
      | banner =>
          rw [current_after_banner, ih]
          simp [Call.staysWithin, Call.verdict?]
      | beginCategory category skipped =>
          rw [current_after_beginCategory]
          constructor
          · rintro ⟨⟩
            exact ⟨category, skipped, [], .inl ⟨rfl, rfl⟩, rfl⟩
          · rintro ⟨_, _, _, ⟨⟨⟩, rfl⟩ | ⟨hwithin, -⟩, rfl⟩
            · rfl
            · cases hwithin
      | record v =>
          rw [current_after_record, Option.map_eq_some_iff]
          constructor
          · rintro ⟨earlier, hearlier, rfl⟩
            obtain ⟨category, skipped, verdicts, hopen, rfl⟩ := (ih earlier).mp hearlier
            exact ⟨category, skipped, _, .inr ⟨rfl, verdicts, hopen, rfl⟩,
              counting_ofVerdicts category skipped verdicts v⟩
          · rintro ⟨category, skipped, _, ⟨⟨⟩, -⟩ | ⟨-, verdicts, hopen, rfl⟩, rfl⟩
            exact ⟨_, (ih _).mpr ⟨category, skipped, verdicts, hopen, rfl⟩,
              counting_ofVerdicts category skipped verdicts v⟩
      | finishCategory =>
          rw [current_after_finishCategory]
          simp [Call.staysWithin]

end Current

-- What holds of a reporter behind some calls, whichever pieces of text could not be written.
structure Counts (calls : List Call) (r : Reporter) : Prop where
  open_iff : (∃ report, r.current = some report) ↔
    ∃ before category skipped since,
      calls = before ++ .beginCategory category skipped :: since ∧ .finishCategory ∉ since
  -- nothing is written and nothing changes outside of a category
  record_closed : r.current = none → ∀ v,
    r.record v = (.error (.other "verdict recorded outside of a category"), r)
  finish_closed : r.current = none →
    r.finishCategory = (.error (.other "no category in progress"), r)
  balanced : ∀ report, r.current = some report →
    report.total = report.passed + report.failing.length
  -- the end of a category that is open gives its report, unless this cannot be written
  finish_open : ∀ category skipped verdicts, LeaveOpen calls category skipped verdicts →
    r.finishCategory.1 = (r.console.putAll
      (closingPieces (.ofVerdicts category skipped verdicts))).1.map
        fun _ => .ofVerdicts category skipped verdicts
  finish_ok : ∀ report r', r.finishCategory = (.ok report, r') →
    ∃ category skipped verdicts, LeaveOpen calls category skipped verdicts ∧
      report.category = category ∧ report.skipped = skipped ∧
      report.total = verdicts.length ∧
      report.passed = (verdicts.filter Verdict.passed).length ∧
      report.failing = (verdicts.filter fun v => !v.passed).map Verdict.fixtureId ∧
      report.total = report.passed + report.failing.length

-- A reporter loses no verdict and counts none twice, whatever is asked of it and whichever
-- writes of its console fail.
theorem afterAll_counts (console : Console) (calls : List Call) :
    Counts calls (afterAll { console := console } calls) := by
  have hcurrent := current_afterAll_iff console calls
  generalize afterAll { console := console } calls = r at hcurrent ⊢
  refine ⟨?_, record_of_closed r, finishCategory_of_closed r, ?_, ?_, ?_⟩
  · rw [← exists_leaveOpen_iff]
    constructor
    · rintro ⟨report, hreport⟩
      obtain ⟨category, skipped, verdicts, hopen, -⟩ := (hcurrent report).mp hreport
      exact ⟨category, skipped, verdicts, hopen⟩
    · rintro ⟨category, skipped, verdicts, hopen⟩
      exact ⟨_, (hcurrent _).mpr ⟨category, skipped, verdicts, hopen, rfl⟩⟩
  · intro report hreport
    obtain ⟨category, skipped, verdicts, -, rfl⟩ := (hcurrent report).mp hreport
    exact CategoryReport.total_eq_passed_add_failed category skipped verdicts
  · intro category skipped verdicts hopen
    rw [finishCategory_of_open r ((hcurrent _).mpr ⟨category, skipped, verdicts, hopen, rfl⟩)]
  · intro report r' hfinish
    cases h : r.current with
    | none =>
        rw [finishCategory_of_closed r h] at hfinish
        cases hfinish
    | some report' =>
        obtain ⟨category, skipped, verdicts, hopen, rfl⟩ := (hcurrent report').mp h
        rw [finishCategory_of_open r h] at hfinish
        cases hput : (r.console.putAll
            (closingPieces (.ofVerdicts category skipped verdicts))).1 with
        | error e =>
            rw [hput] at hfinish
            cases hfinish
        | ok _ =>
            rw [hput] at hfinish
            cases hfinish
            exact ⟨category, skipped, verdicts, hopen, rfl, rfl, rfl, rfl, rfl,
              CategoryReport.total_eq_passed_add_failed category skipped verdicts⟩

-- A category whose first verdict cannot be written. It is begun with four pieces of text, and
-- the category before it is still open then.
def interrupted : Console :=
  { fault? := fun n => if n = 8 then some .noSpace else none }

def lost : Verdict :=
  ⟨"lost.wacc", .syntaxInvalid, false, "compiler exit 100", .accepted, 3, []⟩

def told : Verdict :=
  ⟨"told.wacc", .syntaxInvalid, true, "compiler exit 100", .rejectedAs 100, 3, []⟩

theorem finishCategory_counts_lost :
    let r := afterAll { console := interrupted }
      [.beginCategory .valid 0, .beginCategory .syntaxInvalid 2]
    let r' := afterAll { console := interrupted } [.beginCategory .valid 0,
      .beginCategory .syntaxInvalid 2, .record lost, .banner, .record told]
    (r.record lost).1 = .error .noSpace ∧
      r'.finishCategory.1 = .ok ⟨.syntaxInvalid, 2, 1, 2, ["lost.wacc"]⟩ := by
  refine ⟨rfl, ?_⟩
  have hopen : LeaveOpen [.beginCategory .valid 0, .beginCategory .syntaxInvalid 2, .record lost,
      .banner, .record told] .syntaxInvalid 2 [lost, told] :=
    ⟨[.beginCategory .valid 0], [.record lost, .banner, .record told], rfl,
      by simp [Call.staysWithin], rfl⟩
  exact ((afterAll_counts interrupted _).finish_open .syntaxInvalid 2 [lost, told] hopen).trans rfl

end Reporter

end Conformance
