import Conformance.Proofs.Catalog.Account
import Conformance.Proofs.Console
import Conformance.Proofs.Log.Adding

namespace Conformance

-- One thing that a run does.
inductive RunStep where
  | ran (f : Fixture)
  | logged (e : Log.Entry)
  | saved
  | told (output : Output)

namespace RunStep

def fixture? : RunStep → Option Fixture
  | ran f => some f
  | _ => none

def entry? : RunStep → Option Log.Entry
  | logged e => some e
  | _ => none

def output? : RunStep → Option Output
  | told output => some output
  | _ => none

end RunStep

-- What can be seen of a run while it goes on: all but the category that is open.
structure RunTrace (σ : Type) where
  world : World σ
  console : Console
  log : Option Log.Book

namespace RunTrace

variable {σ : Type}

def healed (t : RunTrace σ) : RunTrace σ :=
  { t with console := t.console.healed }

-- The state of a run with a category open, or with none.
def withOpen (t : RunTrace σ) (current : Option CategoryReport) : RunState σ :=
  ⟨t.world, ⟨t.console, current⟩, t.log⟩

end RunTrace

def RunState.trace {σ : Type} (s : RunState σ) : RunTrace σ :=
  ⟨s.world, s.reporter.console, s.log⟩

namespace Setting

variable {σ : Type} (setting : Setting σ)

-- A step by itself.
def carry : RunStep → RunTrace σ → Except IoError Unit × RunTrace σ
  | .ran f, t =>
      (.ok (), { t with world := (f.run setting.host setting.config setting.invoker t.world).2 })
  | .logged e, t =>
      let (result, log) := Log.Book.emitIn setting.host.clock e t.log
      (result, { t with log := log })
  | .saved, t => (Log.Book.flushIn t.log, t)
  | .told output, t =>
      let (result, console) := t.console.put output
      (result, { t with console := console })

-- Some steps one after the other, up to the first that fails.
def carryOut : List RunStep → RunTrace σ → Except IoError Unit × RunTrace σ
  | [], t => (.ok (), t)
  | step :: rest, t =>
      match setting.carry step t with
      | (.ok _, t) => carryOut rest t
      | (.error e, t) => (.error e, t)

theorem carryOut_append (xs ys : List RunStep) (t : RunTrace σ) :
    setting.carryOut (xs ++ ys) t = match setting.carryOut xs t with
      | (.ok _, t') => setting.carryOut ys t'
      | (.error e, t') => (.error e, t') := by
  induction xs generalizing t with
  | nil => rfl
  | cons step rest ih =>
      rcases hstep : setting.carry step t with ⟨_ | _, t'⟩
      · simp only [List.cons_append, carryOut, hstep]
      · simp only [List.cons_append, carryOut, hstep, ih]

theorem carryOut_append_eq_ok {xs ys : List RunStep} {t t' : RunTrace σ}
    (h : setting.carryOut (xs ++ ys) t = (.ok (), t')) :
    ∃ t₁, setting.carryOut xs t = (.ok (), t₁) ∧ setting.carryOut ys t₁ = (.ok (), t') := by
  rw [carryOut_append] at h
  rcases hxs : setting.carryOut xs t with ⟨_ | _, t₁⟩
  · rw [hxs] at h
    cases h
  · rw [hxs] at h
    exact ⟨t₁, rfl, h⟩

theorem flushIn_of_carryOut_saved {t t' : RunTrace σ}
    (h : setting.carryOut [.saved] t = (.ok (), t')) : Log.Book.flushIn t.log = .ok () := by
  simp only [carryOut, carry] at h
  split at h
  · rename_i hflush
    exact congrArg Prod.fst hflush
  · cases h

theorem carryOut_map_told (outputs : List Output) (t : RunTrace σ) :
    setting.carryOut (outputs.map .told) t =
      ((t.console.putAll outputs).1, { t with console := (t.console.putAll outputs).2 }) := by
  induction outputs generalizing t with
  | nil => rfl
  | cons output rest ih =>
      rcases hput : t.console.put output with ⟨_ | _, c⟩
      · simp only [List.map_cons, carryOut, carry, Console.putAll, hput]
      · simp only [List.map_cons, carryOut, carry, Console.putAll, hput, ih]

-- What some steps did that were all carried out.
structure Carried (done : List RunStep) (t t' : RunTrace σ) : Prop where
  world : t'.world = setting.after t.world (done.filterMap RunStep.fixture?)
  log : t'.log = t.log.map fun book =>
    book.addAll setting.host.clock (done.filterMap RunStep.entry?)
  console : Console.Took (done.filterMap RunStep.output?) t.console t'.console

variable {setting} {step : RunStep} {steps more : List RunStep} {t t₁ t' : RunTrace σ}

variable (setting) in
theorem carried_nil (t : RunTrace σ) : setting.Carried [] t t :=
  ⟨rfl, by cases t.log <;> rfl, Console.took_nil_iff.mpr rfl⟩

theorem Carried.append (h : setting.Carried steps t t₁) (h' : setting.Carried more t₁ t') :
    setting.Carried (steps ++ more) t t' where
  world := by rw [h'.world, h.world, List.filterMap_append, Setting.after_append]
  log := by
    rw [h'.log, h.log, Option.map_map]
    simp only [List.filterMap_append, Log.Book.addAll_append]
    rfl
  console := by
    rw [List.filterMap_append]
    exact Console.took_append_iff.mpr ⟨_, h.console, h'.console⟩

theorem carried_of_carry (h : setting.carry step t = (.ok (), t')) :
    setting.Carried [step] t t' := by
  cases step with
  | ran f =>
      cases h
      exact ⟨rfl, (setting.carried_nil t).log, (setting.carried_nil t).console⟩
  | logged e =>
      simp only [carry, Prod.mk.injEq] at h
      obtain ⟨hresult, rfl⟩ := h
      exact ⟨rfl, Log.Book.emitIn_eq_ok (Prod.ext hresult rfl), (setting.carried_nil t).console⟩
  | saved =>
      simp only [carry, Prod.mk.injEq] at h
      obtain ⟨-, rfl⟩ := h
      exact ⟨rfl, (setting.carried_nil t).log, (setting.carried_nil t).console⟩
  | told output =>
      simp only [carry, Prod.mk.injEq] at h
      obtain ⟨hresult, rfl⟩ := h
      exact ⟨rfl, (setting.carried_nil t).log, Console.put_eq_ok_iff.mp (Prod.ext hresult rfl)⟩

theorem carried_of_ok (h : setting.carryOut steps t = (.ok (), t')) :
    setting.Carried steps t t' := by
  induction steps generalizing t with
  | nil =>
      cases h
      exact setting.carried_nil _
  | cons step rest ih =>
      rcases hstep : setting.carry step t with ⟨_ | _, t₁⟩
      · simp only [carryOut, hstep] at h
        cases h
      · simp only [carryOut, hstep] at h
        exact (carried_of_carry hstep).append (ih h)

-- Steps that end early were carried out up to one that failed.
theorem carryOut_eq_error {e : IoError} (h : setting.carryOut steps t = (.error e, t')) :
    ∃ done step rest t₁, steps = done ++ step :: rest ∧
      setting.carryOut done t = (.ok (), t₁) ∧ setting.carry step t₁ = (.error e, t') := by
  induction steps generalizing t with
  | nil => cases h
  | cons step rest ih =>
      rcases hstep : setting.carry step t with ⟨_ | _, t₁⟩
      · simp only [carryOut, hstep] at h
        cases h
        exact ⟨[], step, rest, t, rfl, rfl, hstep⟩
      · simp only [carryOut, hstep] at h
        obtain ⟨done, other, more, t₂, rfl, hdone, hfault⟩ := ih h
        refine ⟨step :: done, other, more, t₂, rfl, ?_, hfault⟩
        simp only [carryOut, hstep, hdone]

-- A step that fails leaves all as it was but for the attempt to tell something.
theorem carry_eq_error {e : IoError} (h : setting.carry step t = (.error e, t')) :
    (∃ output, step = .told output ∧ t' = { t with console := t'.console } ∧
        t.console.put output = (.error e, t'.console)) ∨
      step.output? = none ∧ t' = t ∧ ¬Log.Book.AllSound t.log := by
  cases step with
  | ran f => cases h
  | logged entry =>
      simp only [carry, Prod.mk.injEq] at h
      obtain ⟨hresult, rfl⟩ := h
      have hsame : (Log.Book.emitIn setting.host.clock entry t.log).2 = t.log :=
        Log.Book.emitIn_eq_error (Prod.ext hresult rfl)
      refine .inr ⟨rfl, ?_, fun hlog => ?_⟩
      · rw [hsame]
      · rw [Log.Book.emitIn_of_allSound hlog] at hresult
        cases hresult
  | saved =>
      simp only [carry, Prod.mk.injEq] at h
      obtain ⟨hresult, rfl⟩ := h
      refine .inr ⟨rfl, rfl, fun hlog => ?_⟩
      rw [Log.Book.flushIn_of_allSound hlog] at hresult
      cases hresult
  | told output =>
      simp only [carry, Prod.mk.injEq] at h
      obtain ⟨hresult, rfl⟩ := h
      exact .inl ⟨output, rfl, rfl, Prod.ext hresult rfl⟩

theorem world_of_carry_eq_error {e : IoError} (h : setting.carry step t = (.error e, t')) :
    t'.world = t.world := by
  rcases carry_eq_error h with ⟨output, -, ht, -⟩ | ⟨-, rfl, -⟩
  · rw [ht]
  · rfl

theorem Carried.allSound_iff (h : setting.Carried steps t t') :
    Log.Book.AllSound t'.log ↔ Log.Book.AllSound t.log := by
  rw [h.log]
  cases t.log with
  | none => exact Iff.rfl
  | some book => simp only [Option.map_some, Log.Book.allSound_some_iff, Log.Book.fault?_addAll]

-- A step that tells nothing does not depend on the console.
theorem carry_healed (t : RunTrace σ) (h : step.output? = none) :
    setting.carry step t.healed = ((setting.carry step t).1, (setting.carry step t).2.healed) := by
  cases step with
  | told output => cases h
  | _ => rfl

-- A healthy console shows what another one shows that takes all.
theorem carryOut_healed (h : setting.carryOut steps t = (.ok (), t')) :
    setting.carryOut steps t.healed = (.ok (), t'.healed) := by
  induction steps generalizing t with
  | nil =>
      cases h
      rfl
  | cons step rest ih =>
      rcases hstep : setting.carry step t with ⟨_ | _, t₁⟩
      · simp only [carryOut, hstep] at h
        cases h
      · have hhealed : setting.carry step t.healed = (.ok (), t₁.healed) := by
          cases step with
          | told output =>
              have htook := (carried_of_carry hstep).console.healed
              simp only [carry, Prod.mk.injEq] at hstep
              obtain ⟨-, rfl⟩ := hstep
              have hput := Console.put_eq_ok_iff.mpr htook
              simp only [carry, RunTrace.healed, hput]
          | _ => rw [carry_healed t rfl, hstep]
        simp only [carryOut, hstep] at h
        simp only [carryOut, hhealed, ih h]

-- With a console that never fails, steps are carried out as far as the log takes what is logged.
theorem exists_carried_of_healthy (setting : Setting σ) (steps : List RunStep)
    (h : ∀ n, t.console.fault? n = none) :
    ∃ done, done <+: steps ∧ setting.Carried done t (setting.carryOut steps t).2 := by
  rcases hsteps : setting.carryOut steps t with ⟨e | _, t'⟩
  · obtain ⟨done, step, rest, t₁, rfl, hdone, hfault⟩ := carryOut_eq_error hsteps
    have hcarried := carried_of_ok hdone
    refine ⟨done, List.prefix_append done _, ?_⟩
    rcases carry_eq_error hfault with ⟨output, -, -, hput⟩ | ⟨-, rfl, -⟩
    · have hnone := (Console.put_eq_error hput).2.2
      rw [hcarried.console.fault?, h] at hnone
      cases hnone
    · exact hcarried
  · exact ⟨steps, List.prefix_refl steps, carried_of_ok hsteps⟩

-- With a log that takes all, every step is carried out when none of the attempts is to fail
-- that they make.
theorem exists_carryOut_eq_ok_iff (setting : Setting σ) (steps : List RunStep)
    (hlog : Log.Book.AllSound t.log) :
    (∃ t', setting.carryOut steps t = (.ok (), t')) ↔
      ∀ n, t.console.attempts ≤ n →
        n < t.console.attempts + Console.tries (steps.filterMap RunStep.output?) →
        t.console.fault? n = none := by
  constructor
  · rintro ⟨t', ht'⟩
    exact (carried_of_ok ht').console.clear
  · intro h
    rcases hsteps : setting.carryOut steps t with ⟨e | _, t'⟩
    · obtain ⟨done, step, rest, t₁, rfl, hdone, hfault⟩ := carryOut_eq_error hsteps
      have hcarried := carried_of_ok hdone
      rcases carry_eq_error hfault with ⟨output, rfl, -, hput⟩ | ⟨-, -, hunsound⟩
      · obtain ⟨-, htried, hfault⟩ := Console.put_eq_error hput
        -- the output that failed is tried right behind those that got out
        have htries : Console.tries ((done ++ .told output :: rest).filterMap RunStep.output?) =
            Console.tries (done.filterMap RunStep.output?) +
              (Console.tries (rest.filterMap RunStep.output?) + 1) := by
          simp [Console.tries, List.filterMap_append, RunStep.output?, htried]
        rw [hcarried.console.fault?, hcarried.console.attempts,
          h _ (by omega) (by omega)] at hfault
        cases hfault
      · exact absurd (hcarried.allSound_iff.mpr hlog) hunsound
    · exact ⟨t', rfl⟩

-- Without a fault all steps are carried out.
theorem exists_carryOut_eq_ok (setting : Setting σ) (steps : List RunStep)
    (hlog : Log.Book.AllSound t.log) (h : ∀ n, t.console.fault? n = none) :
    ∃ t', setting.carryOut steps t = (.ok (), t') :=
  (setting.exists_carryOut_eq_ok_iff steps hlog).mpr fun n _ _ => h n

end Setting

end Conformance
