import Conformance.Machine.Watch
import Conformance.Proofs.Process.Waiting

namespace Conformance.Machine

variable {signal : Nat} {e : Entry} {k : Kernel} {isMeant : Entry → Bool}

namespace Kernel

theorem number_struck : (struck signal e).self.number = e.self.number := by
  unfold struck
  repeat' split
  all_goals rfl

theorem group_struck : (struck signal e).self.group = e.self.group := by
  unfold struck
  repeat' split
  all_goals rfl

-- A process that has ended is not reached by signals any more.
theorem struck_of_ended (h : e.ending?.isSome) : struck signal e = e := by
  rw [struck, if_pos h]

-- Nothing is done against this signal.
theorem ended_struck_kill (e : Entry) : (struck Signal.kill e).ending?.isSome := by
  by_cases hended : e.ending?.isSome
  · rwa [struck_of_ended hended]
  · have hsovereign : Signal.isSovereign Signal.kill = true := by decide
    have heffect : Signal.effect Signal.kill = .ends := by decide
    rw [struck, if_neg hended, hsovereign, heffect]
    simp [Entry.ending?]

theorem mem_strike (h : e ∈ (k.strike Signal.kill isMeant).entries) :
    ∃ e' ∈ k.entries, e.self.number = e'.self.number ∧ e.self.group = e'.self.group ∧
      (isMeant e' ∨ e'.ending?.isSome → e.ending?.isSome) := by
  obtain ⟨e', he', rfl⟩ := List.mem_map.mp h
  refine ⟨e', he', ?_⟩
  split
  · exact ⟨number_struck, group_struck, fun _ => ended_struck_kill e'⟩
  · rename_i hnot
    exact ⟨rfl, rfl, fun hor => hor.resolve_left hnot⟩

-- A process is reaped when all that goes by its number has ended.
theorem reap_of_ended {number : Nat}
    (h : ∀ e ∈ k.entries, e.self.number = number → e.ending?.isSome) :
    k.reap number =
      (.ok (), { k with entries := k.entries.filter fun e => e.self.number ≠ number }) := by
  rw [reap, if_neg]
  simp only [List.any_eq_true, Bool.and_eq_true, decide_eq_true_eq, not_exists, not_and]
  intro e he hnumber hrunning
  rw [Option.isNone_iff_eq_none] at hrunning
  have hended := h e he hnumber
  rw [hrunning] at hended
  cases hended

end Kernel

-- The invoked program does not outlive a wait that stops it, whatever it does, and neither does
-- its group where that is reached. No file changes by it.
structure Terminated (host : Host) (k after : Kernel) : Prop where
  reaped : ∀ e ∈ after.entries, e.self.number ≠ mainNumber
  group : (findProgram k.store.settled.files host.cwd usualPath "kill").isOk →
    ∀ e ∈ after.entries, e.self.group = mainNumber → e.ending?.isSome
  store : after.store = k.store

theorem terminate_hands (host : Host) (k : Kernel) :
    ∃ after, terminate (hands host) k = (.ok (), after) ∧ Terminated host k after := by
  -- what the first deed leaves
  obtain ⟨grouped, hgrouped, hstore, hended⟩ : ∃ grouped,
      (hands host .killGroup k).2 = grouped ∧ grouped.store = k.store ∧
      ((findProgram k.store.settled.files host.cwd usualPath "kill").isOk →
        ∀ e ∈ grouped.entries, e.self.group = mainNumber → e.ending?.isSome) := by
    refine ⟨_, rfl, ?_⟩
    rw [hands]
    cases findProgram k.store.settled.files host.cwd usualPath "kill" with
    | error e => exact ⟨rfl, nofun⟩
    | ok path =>
        refine ⟨rfl, fun _ e he hgroup => ?_⟩
        obtain ⟨e', -, -, hsame, hkilled⟩ := Kernel.mem_strike he
        exact hkilled (.inl (by simpa [← hsame] using hgroup))
  let killed : Kernel := grouped.strike Signal.kill fun e => e.self.number = mainNumber
  have hchild : ∀ e ∈ killed.entries, e.self.number = mainNumber → e.ending?.isSome := by
    intro e he hnumber
    obtain ⟨e', -, hsame, -, hkilled⟩ := Kernel.mem_strike he
    exact hkilled (.inl (by simpa [← hsame] using hnumber))
  have hreap : terminate (hands host) k = killed.reap mainNumber := by
    rw [terminate_eq, hgrouped]
    rfl
  refine ⟨_, hreap.trans (Kernel.reap_of_ended hchild), ?_, ?_, hstore⟩
  · intro e he
    simpa using (List.mem_filter.mp he).2
  · intro hfound e he hgroup
    obtain ⟨e', he', -, hsame, hkilled⟩ := Kernel.mem_strike (List.mem_filter.mp he).1
    exact hkilled (.inr (hended hfound e' he' (hsame ▸ hgroup)))

end Conformance.Machine
