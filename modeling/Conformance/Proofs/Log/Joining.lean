import Conformance.Log.Check
import Conformance.Proofs.Text.Lines

namespace Conformance

-- A text behind which a line begins.
def Text.EndsLine (s : String) : Prop :=
  s = "" ∨ ∃ start, s = start ++ "\n"

def Text.feedCount (s : String) : Nat :=
  s.toList.count '\n'

namespace Log

open Json

-- The same violation, so many lines further down.
def Violation.below (n : Nat) (v : Violation) : Violation :=
  { v with line := v.line + n }

-- What is found of fields, at a line.
def placed (line : Nat) (flaws : List (String × String)) : List Violation :=
  flaws.map fun flaw => ⟨line, flaw.1, flaw.2⟩

-- Rules of which only the place of a violation depends on the line.
def Placeless (rules : Nat → List Violation) : Prop :=
  ∃ flaws, ∀ line, rules line = placed line flaws

section Placeless

variable {rules others : Nat → List Violation} (obj : Value)

theorem placeless_nil : Placeless fun _ => [] :=
  ⟨[], fun _ => rfl⟩

theorem Placeless.append (h : Placeless rules) (h' : Placeless others) :
    Placeless fun line => rules line ++ others line := by
  obtain ⟨flaws, hflaws⟩ := h
  obtain ⟨more, hmore⟩ := h'
  exact ⟨flaws ++ more, fun line => by simp only [hflaws, hmore, placed, List.map_append]⟩

theorem placeless_missingFields (message : String) (fields : List String) :
    Placeless fun line => missingFields line message obj fields := by
  refine ⟨(fields.filter fun name => (obj.member? name).isNone).map fun name => (name, message),
    fun line => ?_⟩
  rw [placed, List.map_map]
  rfl

theorem placeless_wrongName (field : String) (allowed : List String) :
    Placeless fun line => wrongName line obj field allowed := by
  unfold wrongName
  cases (obj.member? field).bind Value.text? with
  | none => exact placeless_nil
  | some s =>
      by_cases h : s ∈ allowed
      · simp only [if_pos h]
        exact placeless_nil
      · simp only [if_neg h]
        exact ⟨[(field, _)], fun _ => rfl⟩

theorem placeless_verdictFields : Placeless fun line => verdictFields line obj := by
  unfold verdictFields
  by_cases h : isVerdict obj = true
  · simp only [if_pos h]
    exact placeless_missingFields obj _ _
  · simp only [if_neg h]
    exact placeless_nil

theorem placeless_traceForm : Placeless fun line => traceForm line obj := by
  unfold traceForm
  cases (obj.member? "trace_id").bind Value.text? with
  | none => exact placeless_nil
  | some id =>
      by_cases h : Text.contains id "::" = true
      · simp only [if_pos h]
        exact placeless_nil
      · simp only [if_neg h]
        exact ⟨[("trace_id", _)], fun _ => rfl⟩

theorem placeless_formViolations : Placeless fun line => formViolations line obj :=
  ((((((placeless_missingFields obj _ _).append (placeless_wrongName obj _ _)).append
    (placeless_wrongName obj _ _)).append (placeless_wrongName obj _ _)).append
      (placeless_wrongName obj _ _)).append (placeless_verdictFields obj)).append
        (placeless_traceForm obj)

-- Where a line stands makes no difference to what is read on it and to the rules it breaks.
theorem checkLine_cases (text : String) :
    (∃ entry, ∀ line, checkLine text line = .ok entry) ∨
      ∃ flaws, ∀ line, checkLine text line = .error (placed line flaws) := by
  unfold checkLine
  cases Value.ofText text with
  | error f => exact .inr ⟨[("<json>", _)], fun _ => rfl⟩
  | ok v =>
      cases v with
      | object members =>
          obtain ⟨flaws, hflaws⟩ := placeless_formViolations (.object members)
          simp only [hflaws]
          cases flaws with
          | cons flaw flaws => exact .inr ⟨flaw :: flaws, fun _ => rfl⟩
          | nil =>
              cases decodeValue Entry.decoder (.object members) with
              | ok entry => exact .inl ⟨entry, fun _ => rfl⟩
              | error e => exact .inr ⟨[("<deserialization>", _)], fun _ => rfl⟩
      | _ => exact .inr ⟨[("<root>", _)], fun _ => rfl⟩

theorem map_below_placed (line n : Nat) (flaws : List (String × String)) :
    (placed line flaws).map (.below n) = placed (line + n) flaws :=
  List.map_map

theorem line_of_mem_placed {line : Nat} {flaws : List (String × String)} {v : Violation}
    (h : v ∈ placed line flaws) : v.line = line := by
  obtain ⟨flaw, -, rfl⟩ := List.mem_map.mp h
  rfl

end Placeless

-- What was found in two parts, one after the other.
def joined (a b : Nat × List Violation) : Nat × List Violation :=
  (a.1 + b.1, a.2 ++ b.2)

theorem joined_assoc (a b c : Nat × List Violation) :
    joined (joined a b) c = joined a (joined b c) :=
  Prod.ext (Nat.add_assoc _ _ _) (List.append_assoc _ _ _)

section Lines

variable (number n : Nat) (text : String) (xs ys : List String)

theorem checkLines_cons : checkLines number (text :: xs) =
    joined (checkLines number [text]) (checkLines (number + 1) xs) := by
  simp only [checkLines]
  split
  · simp [joined]
  · split <;> simp [joined, Nat.add_comm]

theorem checkLines_append : checkLines number (xs ++ ys) =
    joined (checkLines number xs) (checkLines (number + xs.length) ys) := by
  induction xs generalizing number with
  | nil => simp [joined, checkLines]
  | cons x rest ih =>
      rw [List.cons_append, checkLines_cons, ih, checkLines_cons number x rest, joined_assoc,
        List.length_cons, Nat.add_right_comm, Nat.add_assoc]

theorem checkLines_singleton_add : checkLines (number + n) [text] =
    ((checkLines number [text]).1, (checkLines number [text]).2.map (.below n)) := by
  simp only [checkLines]
  split
  · rfl
  · rcases checkLine_cases (Text.trim text) with ⟨entry, h⟩ | ⟨flaws, h⟩
    · simp only [h, List.map_nil]
    · simp only [h, List.append_nil, map_below_placed]

-- Lines that stand further down break the same rules there.
theorem checkLines_add : checkLines (number + n) xs =
    ((checkLines number xs).1, (checkLines number xs).2.map (.below n)) := by
  induction xs generalizing number with
  | nil => rfl
  | cons x rest ih =>
      rw [checkLines_cons, checkLines_cons number x rest, checkLines_singleton_add,
        Nat.add_right_comm, ih]
      simp only [joined, List.map_append]

variable {number xs ys}

-- Blanks at both ends of a line do not matter.
theorem checkLines_congr (h : List.Forall₂ (fun x y => Text.trim x = Text.trim y) xs ys) :
    checkLines number xs = checkLines number ys := by
  induction h generalizing number with
  | nil => rfl
  | cons hline _ ih => rw [checkLines, checkLines, hline, ih]

theorem checkLines_of_blank (h : ∀ x ∈ xs, Text.trim x = "") :
    checkLines number xs = (0, []) := by
  induction xs generalizing number with
  | nil => rfl
  | cons x rest ih =>
      rw [checkLines, ih fun y hy => h y (List.mem_cons_of_mem x hy), h x List.mem_cons_self]
      rfl

-- A violation is one of a line, and tells the number of this line.
theorem exists_of_mem_checkLines {v : Violation} (h : v ∈ (checkLines number xs).2) :
    ∃ before x after found, xs = before ++ x :: after ∧ v.line = number + before.length ∧
      checkLine (Text.trim x) v.line = .error found ∧ v ∈ found := by
  induction xs generalizing number with
  | nil => cases h
  | cons x rest ih =>
      rw [checkLines_cons] at h
      rcases List.mem_append.mp h with h | h
      · simp only [checkLines] at h
        split at h
        · cases h
        · rcases checkLine_cases (Text.trim x) with ⟨entry, hcheck⟩ | ⟨flaws, hcheck⟩
          · rw [hcheck] at h
            cases h
          · simp only [hcheck, List.append_nil] at h
            rw [line_of_mem_placed h]
            exact ⟨[], x, rest, _, rfl, rfl, hcheck number, h⟩
      · obtain ⟨before, y, after, found, rfl, hline, hcheck, hv⟩ := ih h
        refine ⟨x :: before, y, after, found, rfl, ?_, hcheck, hv⟩
        rw [hline, List.length_cons]
        omega

end Lines

section Texts

-- The lines of a text as they stand in it, with the last one, whatever it holds.
def physicalLines (cs : List Char) : List String :=
  (Text.splitFeeds cs).map String.ofList

theorem trim_ofList (cs : List Char) :
    Text.trim (String.ofList cs) = String.ofList (Text.trimChars cs) := by
  rw [Text.trim, String.toList_ofList]

-- That a return is dropped, and a last line that is empty, makes no difference.
theorem checkLines_linesOf (number : Nat) (pieces : List (List Char)) :
    checkLines number ((Text.linesOf pieces).map String.ofList) =
      checkLines number (pieces.map String.ofList) := by
  induction pieces generalizing number with
  | nil => rfl
  | cons piece rest ih =>
      cases rest with
      | nil =>
          cases piece with
          | nil => rfl
          | cons c more => rfl
      | cons next rest =>
          have htrim : Text.trimChars (Text.dropReturn piece) = Text.trimChars piece := by
            rcases Text.dropReturn_cases piece with h | h
            · rw [h]
            · conv => rhs; rw [h, Text.trimChars_concat rfl]
          have hpieces : Text.linesOf (piece :: next :: rest) =
              Text.dropReturn piece :: Text.linesOf (next :: rest) :=
            rfl
          rw [hpieces, List.map_cons, List.map_cons, checkLines, checkLines, ih,
            trim_ofList, trim_ofList, htrim]

theorem checkText_eq (s : String) : checkText s = checkLines 1 (physicalLines s.toList) := by
  rw [checkText, Text.lines, checkLines_linesOf]
  rfl

theorem physicalLines_append (cs ds : List Char) :
    physicalLines (cs ++ '\n' :: ds) = physicalLines cs ++ physicalLines ds := by
  rw [physicalLines, Text.splitFeeds_append, List.map_append]
  rfl

theorem length_physicalLines (cs : List Char) :
    (physicalLines cs).length = cs.count '\n' + 1 := by
  rw [physicalLines, List.length_map, Text.length_splitFeeds]

-- What stands behind a line feed is checked as a text of its own, further down.
theorem checkText_append_feed (s t : String) : checkText (s ++ "\n" ++ t) =
    joined (checkText s) ((checkText t).1,
      (checkText t).2.map (.below (Text.feedCount s + 1))) := by
  have htext : (s ++ "\n" ++ t).toList = s.toList ++ '\n' :: t.toList := by
    simp
  rw [checkText_eq, checkText_eq, checkText_eq t, htext, physicalLines_append, checkLines_append,
    length_physicalLines, checkLines_add]
  rfl

-- A line feed at the end is not needed.
theorem checkText_append_feed_end (s : String) : checkText (s ++ "\n") = checkText s := by
  have h := checkText_append_feed s ""
  rw [String.append_empty] at h
  rw [h]
  exact Prod.ext rfl (List.append_nil _)

theorem feedCount_append (s t : String) :
    Text.feedCount (s ++ t) = Text.feedCount s + Text.feedCount t := by
  rw [Text.feedCount, String.toList_append, List.count_append]
  rfl

theorem checkText_append {a : String} (h : Text.EndsLine a) (b : String) : checkText (a ++ b) =
    joined (checkText a) ((checkText b).1, (checkText b).2.map (.below (Text.feedCount a))) := by
  rcases h with rfl | ⟨start, rfl⟩
  · have hbelow : Violation.below 0 = id := rfl
    have hnone : checkText "" = (0, []) := rfl
    have hcount : Text.feedCount "" = 0 := rfl
    rw [String.empty_append, hnone, hcount, hbelow, List.map_id, joined, Nat.zero_add,
      List.nil_append]
  · rw [checkText_append_feed, checkText_append_feed_end, feedCount_append]
    rfl

theorem checkText_of_blank {w : String} (h : Text.isBlankText w = true) :
    checkText w = (0, []) := by
  rw [checkText_eq]
  refine checkLines_of_blank fun x hx => ?_
  obtain ⟨piece, hpiece, rfl⟩ := List.mem_map.mp hx
  obtain ⟨before, after, hsplit⟩ := List.append_of_mem hpiece
  obtain ⟨start, rest, hw, -⟩ := Text.exists_of_splitFeeds_eq_append hsplit
  have hblank : ∀ c ∈ piece, Text.isBlank c = true := by
    intro c hc
    refine List.all_eq_true.mp h c ?_
    rw [hw]
    exact List.mem_append_left _ (List.mem_append_right _ hc)
  rw [trim_ofList, Text.trimChars_of_forall_isBlank hblank]

theorem checkText_of_returnsAdded {s t : String} (h : Text.ReturnsAdded s.toList t.toList) :
    checkText t = checkText s := by
  rw [checkText_eq, checkText_eq]
  refine (checkLines_congr ?_).symm
  refine List.forall₂_map_left_iff.mpr (List.forall₂_map_right_iff.mpr ?_)
  refine h.forall₂_splitFeeds.imp fun line line' hline => ?_
  rw [trim_ofList, trim_ofList]
  rcases hline with rfl | rfl
  · rfl
  · rw [Text.trimChars_concat rfl]

-- A violation stands on a line of the text, of which it tells the number.
theorem exists_of_mem_checkText {s : String} {v : Violation} (h : v ∈ (checkText s).2) :
    ∃ before line after found, s = before ++ line ++ after ∧
      Text.EndsLine before ∧ '\n' ∉ line.toList ∧ (after = "" ∨ ∃ rest, after = "\n" ++ rest) ∧
      v.line = Text.feedCount before + 1 ∧
      checkLine (Text.trim line) v.line = .error found ∧ v ∈ found := by
  rw [checkText_eq] at h
  obtain ⟨pieces, x, later, found, hpieces, hline, hcheck, hv⟩ := exists_of_mem_checkLines h
  obtain ⟨before, rest, hsplit, rfl, hrest⟩ := List.map_eq_append_iff.mp hpieces
  obtain ⟨line, after, rfl, rfl, rfl⟩ := List.map_eq_cons_iff.mp hrest
  obtain ⟨start, tail, hs, hcount, hstart, hfeed, htail⟩ :=
    Text.exists_of_splitFeeds_eq_append hsplit
  refine ⟨String.ofList start, String.ofList line, String.ofList tail, found, ?_, ?_, ?_, ?_, ?_,
    hcheck, hv⟩
  · rw [← String.toList_inj]
    simpa using hs
  · refine hstart.imp (fun h => by rw [h]) ?_
    rintro ⟨more, rfl⟩
    exact ⟨String.ofList more, by rw [← String.toList_inj]; simp⟩
  · rwa [String.toList_ofList]
  · refine htail.imp (fun h => by rw [h]) ?_
    rintro ⟨more, rfl⟩
    exact ⟨String.ofList more, by rw [← String.toList_inj]; simp⟩
  · rw [hline, List.length_map, Text.feedCount, String.toList_ofList, hcount, Nat.add_comm]

end Texts

-- A log can be checked in parts. Behind a text that ends with a line, what follows is found as
-- if it stood alone, so many lines further down. Blank lines only move what is behind them, the
-- way in which lines are ended makes no difference, and a violation tells the number of its line.
theorem checkText_in_parts (a b : String) (h : Text.EndsLine a) :
    checkText (a ++ b) = ((checkText a).1 + (checkText b).1,
      (checkText a).2 ++ (checkText b).2.map (.below (Text.feedCount a))) ∧
    (∀ w, Text.isBlankText w = true → Text.EndsLine w → checkText (a ++ w ++ b) =
      ((checkText (a ++ b)).1, (checkText a).2 ++
        (checkText b).2.map (.below (Text.feedCount a + Text.feedCount w)))) ∧
    (∀ c : String, Text.ReturnsAdded b.toList c.toList → checkText c = checkText b) ∧
    checkText (b ++ "\n") = checkText b ∧
    ∀ v ∈ (checkText b).2, ∃ before line after found, b = before ++ line ++ after ∧
      Text.EndsLine before ∧ '\n' ∉ line.toList ∧ (after = "" ∨ ∃ rest, after = "\n" ++ rest) ∧
      v.line = Text.feedCount before + 1 ∧
      checkLine (Text.trim line) v.line = .error found ∧ v ∈ found := by
  refine ⟨checkText_append h b, fun w hblank hw => ?_, fun c => checkText_of_returnsAdded,
    checkText_append_feed_end b, fun v => exists_of_mem_checkText⟩
  rw [String.append_assoc, checkText_append h, checkText_append hw, checkText_of_blank hblank,
    checkText_append h b]
  simp only [joined, Nat.zero_add, List.nil_append, List.map_map]
  refine congrArg _ (congrArg _ (List.map_congr_left fun v _ => ?_))
  rw [Function.comp, Violation.below, Violation.below, Violation.below, Nat.add_assoc,
    Nat.add_comm (Text.feedCount w)]

-- The first line breaks four rules, the second is blank, and the third is not ended.
theorem checkText_in_parts_blankBetween :
    Text.EndsLine "\x7b\x7d\r\n" ∧
      (checkText ("\x7b\x7d\r\n" ++ "\u2003\n[1]")).1 = 2 ∧
      (checkText ("\x7b\x7d\r\n" ++ "\u2003\n[1]")).2.map (fun v => (v.line, v.field)) =
        [(1, "timestamp"), (1, "trace_id"), (1, "level"), (1, "event"), (3, "<root>")] := by
  have h : Text.EndsLine "\x7b\x7d\r\n" := .inr ⟨"\x7b\x7d\r", rfl⟩
  refine ⟨h, ?_⟩
  rw [(checkText_in_parts _ _ h).1]
  decide +kernel

end Log

end Conformance
