import Conformance.Proofs.Text.Lines
import Mathlib.Data.List.Infix

namespace Conformance.Text

-- The lines of a text that a line feed ends.
def endedLines (cs : List Char) : List (List Char) :=
  (splitFeeds cs).dropLast

theorem endedLines_append (cs rest : List Char) :
    endedLines (cs ++ '\n' :: rest) = splitFeeds cs ++ endedLines rest := by
  rw [endedLines, splitFeeds_append, List.dropLast_append_of_ne_nil (splitFeeds_ne_nil rest)]
  rfl

-- Nothing that comes behind the text goes on one of its lines.
def Closed (cs : List Char) : Prop :=
  ∀ rest, endedLines (cs ++ rest) = endedLines cs ++ endedLines rest

theorem closed_nil : Closed [] :=
  fun _ => rfl

theorem closed_feed (cs : List Char) : Closed (cs ++ ['\n']) := by
  intro rest
  rw [List.append_assoc, List.singleton_append, endedLines_append, endedLines_append]
  exact congrArg (· ++ _) (List.append_nil _).symm

theorem Closed.append {cs ds : List Char} (h : Closed cs) (h' : Closed ds) :
    Closed (cs ++ ds) := by
  intro rest
  rw [List.append_assoc, h, h', h, List.append_assoc]

theorem closed_flatMap {α : Type} {f : α → List Char} {xs : List α} (h : ∀ x ∈ xs, Closed (f x)) :
    Closed (xs.flatMap f) := by
  induction xs with
  | nil => exact closed_nil
  | cons x xs ih =>
      rw [List.flatMap_cons]
      exact (h x List.mem_cons_self).append (ih fun y hy => h y (List.mem_cons_of_mem x hy))

theorem endedLines_feed (cs : List Char) : endedLines (cs ++ ['\n']) = splitFeeds cs := by
  rw [endedLines_append]
  exact List.append_nil _

-- Behind the last line of such a text there is nothing.
theorem Closed.splitFeeds_eq {cs : List Char} (h : Closed cs) :
    splitFeeds cs = endedLines cs ++ [[]] := by
  rw [← endedLines_feed, h]
  rfl

theorem endedLines_flatMap {α : Type} {f : α → List Char} {xs : List α}
    (h : ∀ x ∈ xs, Closed (f x)) :
    endedLines (xs.flatMap f) = xs.flatMap fun x => endedLines (f x) := by
  induction xs with
  | nil => rfl
  | cons x xs ih =>
      rw [List.flatMap_cons, List.flatMap_cons, h x List.mem_cons_self,
        ih fun y hy => h y (List.mem_cons_of_mem x hy)]

theorem notMem_of_mem_splitFeeds {cs line : List Char} (h : line ∈ splitFeeds cs) :
    '\n' ∉ line := by
  obtain ⟨before, after, hsplit⟩ := List.append_of_mem h
  obtain ⟨-, -, -, -, -, hline, -⟩ := exists_of_splitFeeds_eq_append hsplit
  exact hline

section Marks

variable {mark : List Char} {c : Char}

theorem prefix_append_cons_iff (hc : c ∉ mark) (cs rest : List Char) :
    mark <+: cs ++ c :: rest ↔ mark <+: cs := by
  induction mark generalizing cs with
  | nil => simp only [List.nil_prefix]
  | cons d mark ih =>
      simp only [List.mem_cons, not_or] at hc
      cases cs with
      | nil => simp [List.cons_prefix_cons, Ne.symm hc.1]
      | cons e cs => rw [List.cons_append, List.cons_prefix_cons, List.cons_prefix_cons, ih hc.2]

-- A mark does not reach over a character that it does not have.
theorem infix_append_cons_iff (hc : c ∉ mark) (cs rest : List Char) :
    mark <:+: cs ++ c :: rest ↔ mark <:+: cs ∨ mark <:+: rest := by
  induction cs with
  | nil =>
      have hprefix := prefix_append_cons_iff hc [] rest
      rw [List.nil_append] at hprefix ⊢
      rw [List.infix_cons_iff, hprefix, List.prefix_nil, List.infix_nil]
  | cons e cs ih =>
      rw [List.cons_append, List.infix_cons_iff, List.infix_cons_iff, ih, ← List.cons_append,
        prefix_append_cons_iff hc, or_assoc]

theorem prefix_head_splitFeeds_iff (hmark : '\n' ∉ mark) {cs line : List Char}
    {lines : List (List Char)} (h : splitFeeds cs = line :: lines) :
    mark <+: line ↔ mark <+: cs := by
  obtain ⟨-, ⟨-, rfl⟩ | ⟨rest, rfl, -⟩⟩ := splitFeeds_eq_cons h
  · rfl
  · rw [prefix_append_cons_iff hmark]

-- Some line of the text begins with the mark.
def HasMark (mark cs : List Char) : Prop :=
  ∃ line ∈ splitFeeds cs, mark <+: line

-- Some line of the text other than its first begins with the mark.
def HasLaterMark (mark cs : List Char) : Prop :=
  ∃ line ∈ (splitFeeds cs).tail, mark <+: line

instance (cs : List Char) : Decidable (HasMark mark cs) :=
  inferInstanceAs (Decidable (∃ line ∈ splitFeeds cs, mark <+: line))

instance (cs : List Char) : Decidable (HasLaterMark mark cs) :=
  inferInstanceAs (Decidable (∃ line ∈ (splitFeeds cs).tail, mark <+: line))

theorem hasLaterMark_iff (hmark : '\n' ∉ mark) (cs : List Char) :
    HasLaterMark mark cs ↔ '\n' :: mark <:+: cs := by
  induction cs with
  | nil => simp [HasLaterMark, splitFeeds]
  | cons c cs ih =>
      obtain ⟨line, lines, hsplit⟩ := List.exists_cons_of_ne_nil (splitFeeds_ne_nil cs)
      rw [List.infix_cons_iff, List.cons_prefix_cons, ← ih, HasLaterMark, HasLaterMark]
      by_cases hc : c = '\n'
      · rw [hc, splitFeeds_feed, hsplit]
        simp [prefix_head_splitFeeds_iff hmark hsplit]
      · obtain ⟨line', lines', hcs, hcons⟩ := exists_splitFeeds_cons hc cs
        rw [hcs, hcons]
        simp [Ne.symm hc]

theorem hasLaterMark_append_cons_iff (hmark : '\n' ∉ mark) (hc : c ∉ '\n' :: mark)
    (cs rest : List Char) :
    HasLaterMark mark (cs ++ c :: rest) ↔ HasLaterMark mark cs ∨ HasLaterMark mark rest := by
  rw [hasLaterMark_iff hmark, hasLaterMark_iff hmark, hasLaterMark_iff hmark,
    infix_append_cons_iff hc]

-- A line feed in front makes every line a later one.
theorem hasMark_append_cons_iff (hmark : '\n' ∉ mark) (hc : c ∉ '\n' :: mark)
    (cs rest : List Char) :
    HasMark mark (cs ++ c :: rest) ↔ HasMark mark cs ∨ HasLaterMark mark rest :=
  hasLaterMark_append_cons_iff hmark hc ('\n' :: cs) rest

theorem not_hasLaterMark_of_notMem {cs : List Char} (h : '\n' ∉ cs) : ¬HasLaterMark mark cs := by
  rw [HasLaterMark, splitFeeds_of_notMem h]
  simp

end Marks

end Conformance.Text
