import Conformance.Machine.Kernel
import Mathlib.Data.List.Basic
import Mathlib.Tactic.SplitIfs

namespace Conformance.Machine

namespace Kernel

section Blocked

variable (k : Kernel) (e : Entry)

-- The open file behind a stream of an entry.
def streamFile? (stream : Nat) : Option (Nat × OpenFile) :=
  (e.self.opened? stream).bind fun n => (k.store.openFile? n).map (n, ·)

-- No data is there for a reader, and some may come.
def PipeIsDry (pipe : Nat) : Prop :=
  k.store.pipeData pipe = [] ∧ k.pipeIsUsed e pipe true = true

-- No room is there for a writer, and some may come.
def PipeIsFull (pipe : Nat) : Prop :=
  k.pipeIsUsed e pipe false = true ∧ pipeSize - (k.store.pipeData pipe).length = 0

-- An entry that cannot go on before another one does something. The time does not matter.
def Blocked : Prop :=
  match e.process with
  | .done _ => True
  | .rest none _ => True
  | .read stream _ _ => ∃ number f pipe, k.streamFile? e stream = some (number, f) ∧
      f.channel = .pipe pipe ∧ f.reads = true ∧ k.PipeIsDry e pipe
  | .write stream _ _ => ∃ number f pipe, k.streamFile? e stream = some (number, f) ∧
      f.channel = .pipe pipe ∧ f.writes = true ∧ k.PipeIsFull e pipe
  | .wait child how _ => k.endedChild? e.self.number child = none ∧
      k.hasChild e.self.number child = true ∧
        (how = .toTheEnd ∨ how = .toSignal ∧ e.self.pending.isEmpty = true)
  | _ => False

variable {k e} {pipe stream size : Nat} {data : Text.Bytes} {programs : Programs}

theorem readPipe_eq_none_iff {next : Except IoError Text.Bytes → Process} :
    k.readPipe e pipe size next = none ↔ k.PipeIsDry e pipe := by
  unfold readPipe PipeIsDry
  cases k.store.pipeData pipe with
  | nil => simp
  | cons b rest => simp

theorem writePipe_eq_none_iff {next : Except IoError Unit → Process} :
    k.writePipe e pipe stream data next = none ↔ k.PipeIsFull e pipe := by
  unfold writePipe PipeIsFull
  by_cases hused : k.pipeIsUsed e pipe false = true
  · simp only [hused, Bool.not_true, Bool.false_eq_true, if_false, true_and]
    split_ifs with hroom
    · exact iff_of_true rfl hroom
    · refine iff_of_false ?_ hroom
      split <;> exact Option.some_ne_none _
  · simp [hused]

theorem readStream_eq_none_iff {next : Except IoError Text.Bytes → Process} :
    k.readStream e stream size next = none ↔ ∃ number f pipe,
      k.streamFile? e stream = some (number, f) ∧ f.channel = .pipe pipe ∧ f.reads = true ∧
        k.PipeIsDry e pipe := by
  have hfile : (e.self.opened? stream).bind (fun n => (k.store.openFile? n).map (n, ·)) =
      k.streamFile? e stream :=
    rfl
  rw [readStream, hfile]
  rcases k.streamFile? e stream with _ | ⟨number, ⟨channel, offset, reads, writes, appends⟩⟩
  · simp
  · cases channel with
    | pipe pipe =>
        cases reads with
        | false => simp
        | true =>
            refine readPipe_eq_none_iff.trans ⟨fun h => ⟨number, _, pipe, rfl, rfl, rfl, h⟩, ?_⟩
            rintro ⟨_, _, _, ⟨⟩, ⟨⟩, -, h⟩
            exact h
    | _ => simp

theorem writeStream_eq_none_iff {next : Except IoError Unit → Process} :
    k.writeStream e stream data next = none ↔ ∃ number f pipe,
      k.streamFile? e stream = some (number, f) ∧ f.channel = .pipe pipe ∧ f.writes = true ∧
        k.PipeIsFull e pipe := by
  have hfile : (e.self.opened? stream).bind (fun n => (k.store.openFile? n).map (n, ·)) =
      k.streamFile? e stream :=
    rfl
  rw [writeStream, hfile]
  rcases k.streamFile? e stream with _ | ⟨number, ⟨channel, offset, reads, writes, appends⟩⟩
  · simp
  · cases channel with
    | pipe pipe =>
        cases writes with
        | false => simp
        | true =>
            refine writePipe_eq_none_iff.trans ⟨fun h => ⟨number, _, pipe, rfl, rfl, rfl, h⟩, ?_⟩
            rintro ⟨_, _, _, ⟨⟩, ⟨⟩, -, h⟩
            exact h
    | _ => simp

theorem waitChild_eq_none_iff {child : Option Nat} {how : Waiting}
    {next : Option (Nat × Ending) → Process} :
    k.waitChild e child how next = none ↔ k.endedChild? e.self.number child = none ∧
      k.hasChild e.self.number child = true ∧
        (how = .toTheEnd ∨ how = .toSignal ∧ e.self.pending.isEmpty = true) := by
  unfold waitChild
  cases k.endedChild? e.self.number child with
  | some ended => simp
  | none => cases how <;> simp

-- An entry does not take its turn just when it is blocked.
theorem turn_eq_none_iff : turn programs k e = none ↔ k.Blocked e := by
  rcases e with ⟨self, process, wakes, stopped⟩
  cases process with
  | done ending => exact iff_of_true rfl trivial
  | act f => simp [turn, Blocked]
  | rest micros next => rcases micros with _ | _ | n <;> simp [turn, Blocked]
  | read stream size next => exact readStream_eq_none_iff
  | write stream data next => exact writeStream_eq_none_iff
  | fork child next => simp [turn, Blocked]
  | wait child how next => exact waitChild_eq_none_iff
  | signal target signal next =>
      simp only [turn, Blocked, iff_false]
      split <;> exact Option.some_ne_none _
  | become path args environment next =>
      simp only [turn, Blocked, iff_false]
      split
      · exact Option.some_ne_none _
      · split <;> exact Option.some_ne_none _

end Blocked

variable {programs : Programs} {number fuel : Nat} {ending : Ending} {k : Kernel}

-- Entries that rest sleep on when time passes up to the first of them that wakes, and those
-- that are blocked stay so.
theorem step_atTime {clock : Nat} {passed entries : List Entry}
    (hwake : ∀ e ∈ entries, k.store.clock < e.wakes → e.stopped = false → clock < e.wakes)
    (h : step programs k passed entries = none) :
    step programs (k.atTime clock) passed entries = none := by
  induction entries generalizing passed with
  | nil => rfl
  | cons e rest ih =>
      have hrest := fun h => @ih (e :: passed)
        (fun other hother => hwake other (List.mem_cons_of_mem e hother)) h
      rw [step] at h ⊢
      by_cases hskip : (e.stopped || decide (k.store.clock < e.wakes)) = true
      · rw [if_pos hskip] at h
        have hskip' : (e.stopped || decide (clock < e.wakes)) = true := by
          cases hstopped : e.stopped with
          | true => rfl
          | false =>
              rw [hstopped, Bool.false_or, decide_eq_true_eq] at hskip
              simpa using hwake e List.mem_cons_self hskip hstopped
        exact (if_pos hskip').trans (hrest h)
      · rw [if_neg hskip] at h
        cases hturn : turn programs { k with entries := passed.reverse ++ rest } e with
        | some k' =>
            rw [hturn] at h
            cases h
        | none =>
            rw [hturn] at h
            have hblocked : Blocked { k with entries := passed.reverse ++ rest } e :=
              turn_eq_none_iff.mp hturn
            have hturn' :
                turn programs { k.atTime clock with entries := passed.reverse ++ rest } e = none :=
              turn_eq_none_iff.mpr hblocked
            rw [hturn']
            exact (ite_self _).trans (hrest h)

theorem le_wakes_of_nextWake? {time : Nat} (h : k.nextWake? = some time) {e : Entry}
    (he : e ∈ k.entries) (hrests : k.store.clock < e.wakes) (hstopped : e.stopped = false) :
    time ≤ e.wakes := by
  refine (List.min?_eq_some_iff.mp h).2 e.wakes (List.mem_filterMap.mpr ⟨e, he, ?_⟩)
  simp [hrests, hstopped]

theorem nextWake?_atTime {time clock : Nat} (h : k.nextWake? = some time)
    (hle : k.store.clock ≤ clock) (hlt : clock < time) :
    (k.atTime clock).nextWake? = some time := by
  refine Eq.trans (congrArg List.min? (List.filterMap_congr fun e he => ?_)) h
  have hclock : (k.atTime clock).store.clock = clock := rfl
  rw [hclock]
  by_cases hstopped : e.stopped = true
  · simp [hstopped]
  · rw [Bool.not_eq_true] at hstopped
    have hiff : clock < e.wakes ↔ k.store.clock < e.wakes :=
      ⟨Nat.lt_of_le_of_lt hle,
        fun hrests => Nat.lt_of_lt_of_le hlt (le_wakes_of_nextWake? h he hrests hstopped)⟩
    simp [hstopped, hiff]

-- A process comes to its end before some time, within some number of turns and rests.
inductive EndsBy (programs : Programs) (number : Nat) (ending : Ending) (time : Nat) :
    Nat → Kernel → Prop
  | ended {fuel : Nat} {k : Kernel} (h : k.ending? number = some ending) :
      EndsBy programs number ending time fuel k
  | turn {fuel : Nat} {k k' : Kernel} (hrunning : k.ending? number = none)
      (hclock : k.store.clock < time) (hstep : step programs k [] k.entries = some k')
      (hrest : EndsBy programs number ending time fuel
        ((tidy k').atTime (k'.store.clock + turnMicros))) :
      EndsBy programs number ending time (fuel + 1) k
  | rest {fuel wake : Nat} {k : Kernel} (hrunning : k.ending? number = none)
      (hclock : k.store.clock < time) (hstep : step programs k [] k.entries = none)
      (hwake : k.nextWake? = some wake) (htime : wake ≤ time)
      (hrest : EndsBy programs number ending time fuel (k.atTime wake)) :
      EndsBy programs number ending time (fuel + 1) k

section Run

variable {limit : Option Nat} {wake : Nat} {k' : Kernel}

theorem run_of_ended (h : k.ending? number = some ending) :
    run programs number limit fuel k = k := by
  cases fuel with
  | zero => rfl
  | succ fuel => simp [run, h]

theorem run_of_reached {time : Nat} (h : time ≤ k.store.clock) :
    run programs number (some time) fuel k = k := by
  cases fuel with
  | zero => rfl
  | succ fuel => simp [run, h]

variable (hrunning : k.ending? number = none) (hearly : ∀ time ∈ limit, k.store.clock < time)
include hrunning hearly

theorem run_of_turn (hstep : step programs k [] k.entries = some k') :
    run programs number limit (fuel + 1) k =
      run programs number limit fuel ((tidy k').atTime (k'.store.clock + turnMicros)) := by
  have hgoes : limit.any (· ≤ k.store.clock) = false := by
    cases limit <;> simp_all
  simp [run, hrunning, hgoes, hstep]

-- Nobody can take a turn, so time passes.
theorem run_of_rest (hstep : step programs k [] k.entries = none)
    (hwake : k.nextWake? = some wake) :
    run programs number limit (fuel + 1) k =
      run programs number limit fuel (k.atTime (limit.elim wake (min wake))) := by
  have hgoes : limit.any (· ≤ k.store.clock) = false := by
    cases limit <;> simp_all
  cases limit <;> simp [run, hrunning, hgoes, hstep, hwake]

end Run

section EndsBy

variable {time time' : Nat}

theorem early_of_lt (h : k.store.clock < time) : ∀ limit ∈ some time, k.store.clock < limit := by
  rintro _ ⟨⟩
  exact h

theorem EndsBy.mono_time (h : EndsBy programs number ending time fuel k) (hle : time ≤ time') :
    EndsBy programs number ending time' fuel k := by
  induction h with
  | ended h => exact .ended h
  | turn hrunning hclock hstep _ ih =>
      exact .turn hrunning (Nat.lt_of_lt_of_le hclock hle) hstep ih
  | rest hrunning hclock hstep hwake htime _ ih =>
      exact .rest hrunning (Nat.lt_of_lt_of_le hclock hle) hstep hwake (Nat.le_trans htime hle) ih

theorem EndsBy.succ (h : EndsBy programs number ending time fuel k) :
    EndsBy programs number ending time (fuel + 1) k := by
  induction h with
  | ended h => exact .ended h
  | turn hrunning hclock hstep _ ih => exact .turn hrunning hclock hstep ih
  | rest hrunning hclock hstep hwake htime _ ih =>
      exact .rest hrunning hclock hstep hwake htime ih

-- A run without a limit in which a process ends takes some time.
theorem exists_endsBy (h : (run programs number none fuel k).ending? number = some ending) :
    ∃ time, EndsBy programs number ending time fuel k := by
  induction fuel generalizing k with
  | zero => exact ⟨0, .ended h⟩
  | succ fuel ih =>
      cases hrunning : k.ending? number with
      | some other =>
          rw [run_of_ended hrunning] at h
          exact ⟨0, .ended h⟩
      | none =>
          have hearly : ∀ limit ∈ (none : Option Nat), k.store.clock < limit := nofun
          cases hstep : step programs k [] k.entries with
          | some k' =>
              rw [run_of_turn hrunning hearly hstep] at h
              obtain ⟨time, hrest⟩ := ih h
              exact ⟨max time (k.store.clock + 1), .turn hrunning (by omega) hstep
                (hrest.mono_time (Nat.le_max_left _ _))⟩
          | none =>
              cases hwake : k.nextWake? with
              | none =>
                  simp [run, hrunning, hstep, hwake] at h
              | some wake =>
                  rw [run_of_rest hrunning hearly hstep hwake] at h
                  obtain ⟨time, hrest⟩ := ih h
                  exact ⟨max time (max wake (k.store.clock + 1)), .rest hrunning (by omega) hstep
                    hwake (by omega) (hrest.mono_time (Nat.le_max_left _ _))⟩

theorem EndsBy.ending_eq {other : Ending} (h : EndsBy programs number ending time fuel k)
    (hended : k.ending? number = some other) : other = ending := by
  cases h with
  | ended h => exact Option.some.inj (hended.symm.trans h)
  | turn hrunning => cases hrunning.symm.trans hended
  | rest hrunning => cases hrunning.symm.trans hended

-- A run that is stopped at some time has taken a part of the way.
theorem EndsBy.run (h : EndsBy programs number ending time fuel k) (stop rounds : Nat) :
    EndsBy programs number ending time fuel (run programs number (some stop) rounds k) := by
  induction rounds generalizing k fuel with
  | zero => exact h
  | succ rounds ih =>
      by_cases hreached : stop ≤ k.store.clock
      · rwa [run_of_reached hreached]
      have hearly := early_of_lt (Nat.lt_of_not_le hreached)
      cases h with
      | ended h =>
          rw [run_of_ended h]
          exact .ended h
      | turn hrunning hclock hstep hrest =>
          rw [run_of_turn hrunning hearly hstep]
          exact (ih hrest).succ
      | @rest fuel wake _ hrunning hclock hstep hwake htime hrest =>
          rw [run_of_rest hrunning hearly hstep hwake]
          by_cases hpast : wake ≤ stop
          · rw [Option.elim_some, Nat.min_eq_left hpast]
            exact (ih hrest).succ
          · -- the rest is cut in two, and goes on as if it were not
            have hlt : stop < wake := Nat.lt_of_not_le hpast
            have hle : k.store.clock ≤ stop := Nat.le_of_not_le hreached
            rw [Option.elim_some, Nat.min_eq_right (Nat.le_of_lt hlt),
              run_of_reached (k := k.atTime stop) (Nat.le_refl stop)]
            refine .rest hrunning (Nat.lt_of_lt_of_le hlt htime) (step_atTime ?_ hstep)
              (nextWake?_atTime hwake hle hlt) htime hrest
            intro e he hrests hstopped
            exact Nat.lt_of_lt_of_le hlt (le_wakes_of_nextWake? hwake he hrests hstopped)

-- A run that may go on for the whole time comes to the end.
theorem EndsBy.ending_run (h : EndsBy programs number ending time fuel k) {stop rounds : Nat}
    (htime : time ≤ stop) (hfuel : fuel ≤ rounds) :
    (Kernel.run programs number (some stop) rounds k).ending? number = some ending := by
  induction h generalizing rounds with
  | ended h => rwa [run_of_ended h]
  | @turn _ k _ hrunning hclock hstep _ ih =>
      cases rounds with
      | zero => exact absurd hfuel (Nat.not_succ_le_zero _)
      | succ rounds =>
          rw [run_of_turn hrunning (early_of_lt (Nat.lt_of_lt_of_le hclock htime)) hstep]
          exact ih (Nat.le_of_succ_le_succ hfuel)
  | @rest _ wake k hrunning hclock hstep hwake hbefore _ ih =>
      cases rounds with
      | zero => exact absurd hfuel (Nat.not_succ_le_zero _)
      | succ rounds =>
          rw [run_of_rest hrunning (early_of_lt (Nat.lt_of_lt_of_le hclock htime)) hstep hwake,
            Option.elim_some, Nat.min_eq_left (Nat.le_trans hbefore htime)]
          exact ih (Nat.le_of_succ_le_succ hfuel)

end EndsBy

end Kernel

end Conformance.Machine
