import Conformance.Text.Lines
import Mathlib.Data.List.Forall2
import Mathlib.Data.List.TakeWhile

namespace Conformance.Text

theorem splitFeeds_feed (cs : List Char) : splitFeeds ('\n' :: cs) = [] :: splitFeeds cs :=
  rfl

theorem splitFeeds_ne_nil (cs : List Char) : splitFeeds cs ≠ [] := by
  cases cs with
  | nil => simp [splitFeeds]
  | cons c rest =>
      rw [splitFeeds]
      split
      · simp
      · split <;> simp

-- Any other character goes to the first piece.
theorem exists_splitFeeds_cons {c : Char} (h : c ≠ '\n') (cs : List Char) :
    ∃ line lines, splitFeeds cs = line :: lines ∧ splitFeeds (c :: cs) = (c :: line) :: lines := by
  obtain ⟨line, lines, hcs⟩ := List.exists_cons_of_ne_nil (splitFeeds_ne_nil cs)
  exact ⟨line, lines, hcs, by rw [splitFeeds, if_neg h, hcs]⟩

theorem splitFeeds_of_notMem {line : List Char} (h : '\n' ∉ line) : splitFeeds line = [line] := by
  induction line with
  | nil => rfl
  | cons c more ih =>
      simp only [List.mem_cons, not_or] at h
      rw [splitFeeds, if_neg (Ne.symm h.1), ih h.2]

-- A line feed divides a text, whatever stands before it.
theorem splitFeeds_append (cs rest : List Char) :
    splitFeeds (cs ++ '\n' :: rest) = splitFeeds cs ++ splitFeeds rest := by
  induction cs with
  | nil => rfl
  | cons c more ih =>
      by_cases hc : c = '\n'
      · rw [hc, List.cons_append, splitFeeds_feed, splitFeeds_feed, ih, List.cons_append]
      · obtain ⟨line, lines, hmore, hcons⟩ := exists_splitFeeds_cons hc more
        rw [List.cons_append, splitFeeds, if_neg hc, ih, hcons, hmore]
        rfl

theorem length_splitFeeds (cs : List Char) : (splitFeeds cs).length = cs.count '\n' + 1 := by
  induction cs with
  | nil => rfl
  | cons c more ih =>
      by_cases hc : c = '\n'
      · rw [hc, splitFeeds_feed, List.length_cons, ih, List.count_cons_self]
      · obtain ⟨line, lines, hmore, hcons⟩ := exists_splitFeeds_cons hc more
        rw [List.count_cons_of_ne hc, ← ih, hcons, hmore]
        rfl

-- The first piece goes up to the first line feed.
theorem splitFeeds_eq_cons {cs line : List Char} {after : List (List Char)}
    (h : splitFeeds cs = line :: after) :
    '\n' ∉ line ∧
      (after = [] ∧ cs = line ∨ ∃ rest, cs = line ++ '\n' :: rest ∧ splitFeeds rest = after) := by
  induction cs generalizing line with
  | nil =>
      cases h
      exact ⟨List.not_mem_nil, .inl ⟨rfl, rfl⟩⟩
  | cons c more ih =>
      by_cases hc : c = '\n'
      · rw [hc, splitFeeds_feed] at h
        cases h
        exact ⟨List.not_mem_nil, .inr ⟨more, by rw [hc]; rfl, rfl⟩⟩
      · obtain ⟨piece, pieces, hmore, hcons⟩ := exists_splitFeeds_cons hc more
        cases hcons.symm.trans h
        obtain ⟨hpiece, hrest⟩ := ih hmore
        refine ⟨by simp [Ne.symm hc, hpiece], ?_⟩
        rcases hrest with ⟨hafter, rfl⟩ | ⟨rest, rfl, hafter⟩
        · exact .inl ⟨hafter, rfl⟩
        · exact .inr ⟨rest, rfl, hafter⟩

-- Each piece is a line of the text, with as many line feeds before it as there are pieces.
theorem exists_of_splitFeeds_eq_append {cs line : List Char} {before after : List (List Char)}
    (h : splitFeeds cs = before ++ line :: after) :
    ∃ start rest, cs = start ++ line ++ rest ∧ start.count '\n' = before.length ∧
      (start = [] ∨ ∃ more, start = more ++ ['\n']) ∧ '\n' ∉ line ∧
      (rest = [] ∨ ∃ more, rest = '\n' :: more) := by
  induction before generalizing cs with
  | nil =>
      obtain ⟨hline, hrest⟩ := splitFeeds_eq_cons h
      rcases hrest with ⟨-, rfl⟩ | ⟨rest, rfl, -⟩
      · exact ⟨[], [], by simp, rfl, .inl rfl, hline, .inl rfl⟩
      · exact ⟨[], '\n' :: rest, by simp, rfl, .inl rfl, hline, .inr ⟨rest, rfl⟩⟩
  | cons piece before ih =>
      obtain ⟨hpiece, ⟨hnil, -⟩ | ⟨tail, rfl, htail⟩⟩ := splitFeeds_eq_cons h
      · exact absurd hnil (List.append_ne_nil_of_right_ne_nil before (List.cons_ne_nil line after))
      · obtain ⟨start, rest, rfl, hcount, hstart, hline, hrest⟩ := ih htail
        refine ⟨piece ++ '\n' :: start, rest, by simp, ?_, .inr ?_, hline, hrest⟩
        · rw [List.count_append, List.count_eq_zero.mpr hpiece, List.count_cons_self, hcount,
            Nat.zero_add, List.length_cons]
        · rcases hstart with rfl | ⟨more, rfl⟩
          · exact ⟨piece, rfl⟩
          · exact ⟨piece ++ '\n' :: more, by simp⟩

theorem dropReturn_cases (line : List Char) :
    dropReturn line = line ∨ line = dropReturn line ++ ['\r'] := by
  rcases List.eq_nil_or_concat' line with rfl | ⟨start, last, rfl⟩
  · exact .inl rfl
  · by_cases h : last = '\r'
    · right
      simp [dropReturn, h]
    · left
      unfold dropReturn
      rw [List.reverse_append]
      split
      · rename_i hreverse
        exact absurd (List.cons.inj hreverse).1 h
      · rfl

theorem dropReturn_of_getLast? {line : List Char} (h : line.getLast? ≠ some '\r') :
    dropReturn line = line := by
  refine (dropReturn_cases line).resolve_right fun hline => h ?_
  rw [hline, List.getLast?_append, List.getLast?_singleton]
  rfl

-- A line that can be told from the ones around it.
def IsLine (line : List Char) : Prop :=
  '\n' ∉ line ∧ line.getLast? ≠ some '\r'

theorem linesOf_splitFeeds {ls : List (List Char)} (h : ∀ line ∈ ls, IsLine line) :
    linesOf (splitFeeds (ls.flatMap fun line => line ++ ['\n'])) = ls := by
  induction ls with
  | nil => rfl
  | cons line rest ih =>
      obtain ⟨hfeed, hreturn⟩ := h line List.mem_cons_self
      have hrest := ih fun other hm => h other (List.mem_cons_of_mem _ hm)
      rw [List.flatMap_cons, List.append_assoc, List.singleton_append,
        splitFeeds_append, splitFeeds_of_notMem hfeed, List.singleton_append]
      obtain ⟨piece, more, hsplit⟩ := List.exists_cons_of_ne_nil
        (splitFeeds_ne_nil (rest.flatMap fun line => line ++ ['\n']))
      rw [hsplit] at hrest ⊢
      rw [linesOf, hrest, dropReturn_of_getLast? hreturn]
      simp

-- Lines that are written one after the other, each with a line feed, are read as they were.
theorem lines_join {ls : List String} (h : ∀ line ∈ ls, IsLine line.toList) :
    lines (String.join (ls.map fun line => line ++ "\n")) = ls := by
  have htext : (String.join (ls.map fun line => line ++ "\n")).toList =
      (ls.map String.toList).flatMap fun line => line ++ ['\n'] := by
    rw [String.toList_join, List.flatMap_map, List.flatMap_map]
    simp
  have hlines : ∀ line ∈ ls.map String.toList, IsLine line := by
    intro line hm
    obtain ⟨text, htext, rfl⟩ := List.mem_map.mp hm
    exact h text htext
  rw [lines, htext, linesOf_splitFeeds hlines, List.map_map]
  simp [Function.comp_def]

-- A text with a carriage return before some of its line feeds.
inductive ReturnsAdded : List Char → List Char → Prop
  | nil : ReturnsAdded [] []
  | char (c : Char) {cs ds : List Char} (h : ReturnsAdded cs ds) : ReturnsAdded (c :: cs) (c :: ds)
  | feed {cs ds : List Char} (h : ReturnsAdded cs ds) :
      ReturnsAdded ('\n' :: cs) ('\r' :: '\n' :: ds)

theorem ReturnsAdded.forall₂_splitFeeds {cs ds : List Char} (h : ReturnsAdded cs ds) :
    List.Forall₂ (fun line line' => line' = line ∨ line' = line ++ ['\r'])
      (splitFeeds cs) (splitFeeds ds) := by
  induction h with
  | nil => exact .cons (.inl rfl) .nil
  | @char c cs ds _ ih =>
      by_cases hc : c = '\n'
      · rw [hc]
        exact .cons (.inl rfl) ih
      · obtain ⟨line, lines, hcs, hcons⟩ := exists_splitFeeds_cons hc cs
        obtain ⟨line', lines', hds, hcons'⟩ := exists_splitFeeds_cons hc ds
        rw [hcs, hds] at ih
        rw [hcons, hcons']
        obtain ⟨hline, hlines⟩ := List.forall₂_cons.mp ih
        refine .cons (hline.imp (congrArg _) fun h => ?_) hlines
        rw [h, List.cons_append]
  | feed _ ih => exact .cons (.inr rfl) ih

-- A blank at the end does not count.
theorem trimChars_concat {c : Char} (h : isBlank c = true) (cs : List Char) :
    trimChars (cs ++ [c]) = trimChars cs := by
  have hright : ∀ ds, trimRight (ds ++ [c]) = trimRight ds := by
    intro ds
    simp [trimRight, trimLeft, h]
  unfold trimChars trimLeft
  rw [List.dropWhile_append]
  split
  · rename_i hall
    rw [List.isEmpty_iff.mp hall]
    simp [h]
  · exact hright _

theorem trimChars_of_forall_isBlank {cs : List Char} (h : ∀ c ∈ cs, isBlank c = true) :
    trimChars cs = [] := by
  have hdrop : trimLeft cs = [] := List.dropWhile_eq_nil_iff.mpr h
  rw [trimChars, hdrop]
  rfl

theorem trimLeft_of_head? {cs : List Char} (h : ∀ c ∈ cs.head?, isBlank c = false) :
    trimLeft cs = cs := by
  cases cs with
  | nil => rfl
  | cons c rest => rw [trimLeft, List.dropWhile_cons, h c rfl]; rfl

-- A text that neither begins nor ends with a blank is kept as it is.
theorem trim_eq_self {s : String} (hfirst : ∀ c ∈ s.toList.head?, isBlank c = false)
    (hlast : ∀ c ∈ s.toList.getLast?, isBlank c = false) : trim s = s := by
  rw [List.getLast?_eq_head?_reverse] at hlast
  rw [trim, trimChars, trimLeft_of_head? hfirst, trimRight, trimLeft_of_head? hlast,
    List.reverse_reverse, String.ofList_toList]

end Conformance.Text
