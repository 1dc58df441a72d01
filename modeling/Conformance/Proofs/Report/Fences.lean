import Conformance.Proofs.Report.Tables

namespace Conformance.Report

open Text

def fence : List Char :=
  "```".toList

-- Each captured text comes in turn between two lines that are fences, and no other line begins
-- as a fence does.
inductive Fenced : List Diagnostics → List (List Char) → Prop
  | outside {lines : List (List Char)} (h : ∀ line ∈ lines, ¬fence <+: line) : Fenced [] lines
  | block {before rest : List (List Char)} {d : Diagnostics} {ds : List Diagnostics}
      (hbefore : ∀ line ∈ before, ¬fence <+: line) (hcaptured : ∀ line ∈ d.lines, ¬fence <+: line)
      (h : Fenced ds rest) : Fenced (d :: ds) (before ++ fence :: (d.lines ++ fence :: rest))

def fenceCount (lines : List (List Char)) : Nat :=
  lines.countP fun line => fence <+: line

theorem fenceCount_append (lines more : List (List Char)) :
    fenceCount (lines ++ more) = fenceCount lines + fenceCount more :=
  List.countP_append

theorem fenceCount_fence (lines : List (List Char)) :
    fenceCount (fence :: lines) = fenceCount lines + 1 :=
  List.countP_cons_of_pos (decide_eq_true (List.prefix_refl fence))

theorem fenceCount_eq_zero {lines : List (List Char)} :
    fenceCount lines = 0 ↔ ∀ line ∈ lines, ¬fence <+: line := by
  simp [fenceCount]

theorem Fenced.fenceCount_eq {ds : List Diagnostics} {lines : List (List Char)}
    (h : Fenced ds lines) : fenceCount lines = 2 * ds.length := by
  induction h with
  | outside h => exact fenceCount_eq_zero.mpr h
  | block hbefore hcaptured _ ih =>
      rw [fenceCount_append, fenceCount_fence, fenceCount_append, fenceCount_fence,
        fenceCount_eq_zero.mpr hbefore, fenceCount_eq_zero.mpr hcaptured, ih, List.length_cons]
      omega

theorem Fenced.behind {ds : List Diagnostics} {lines more : List (List Char)}
    (h : ∀ line ∈ lines, ¬fence <+: line) (h' : Fenced ds more) : Fenced ds (lines ++ more) := by
  cases h' with
  | outside h' => exact .outside (List.forall_mem_append.mpr ⟨h, h'⟩)
  | block hbefore hcaptured h' =>
      rw [← List.append_assoc]
      exact .block (List.forall_mem_append.mpr ⟨h, hbefore⟩) hcaptured h'

theorem Fenced.append {ds es : List Diagnostics} {lines more : List (List Char)}
    (h : Fenced ds lines) (h' : Fenced es more) : Fenced (ds ++ es) (lines ++ more) := by
  induction h with
  | outside h => exact h'.behind h
  | block hbefore hcaptured _ ih =>
      simp only [List.append_assoc, List.cons_append]
      exact .block hbefore hcaptured ih

-- The lines have two fences for each of the captured texts at least, and are fenced as they
-- should be just when the condition holds.
structure FencedIff (ds : List Diagnostics) (lines : List (List Char)) (clear : Prop) : Prop where
  fenced : clear → Fenced ds lines
  two_mul_le : 2 * ds.length ≤ fenceCount lines
  clear_of_eq : fenceCount lines = 2 * ds.length → clear

section FencedIff

variable {ds es : List Diagnostics} {lines more : List (List Char)} {clear clear' : Prop}

theorem FencedIff.iff (h : FencedIff ds lines clear) : Fenced ds lines ↔ clear :=
  ⟨fun hfenced => h.clear_of_eq hfenced.fenceCount_eq, h.fenced⟩

theorem FencedIff.congr (h : FencedIff ds lines clear) (hiff : clear ↔ clear') :
    FencedIff ds lines clear' :=
  ⟨fun hclear => h.fenced (hiff.mpr hclear), h.two_mul_le, fun heq => hiff.mp (h.clear_of_eq heq)⟩

theorem fencedIff_outside (lines : List (List Char)) :
    FencedIff [] lines (∀ line ∈ lines, ¬fence <+: line) :=
  ⟨.outside, Nat.zero_le _, fenceCount_eq_zero.mp⟩

theorem fencedIff_block (d : Diagnostics) :
    FencedIff [d] ([fence] ++ d.lines ++ [fence]) (∀ line ∈ d.lines, ¬fence <+: line) := by
  have hcount : fenceCount ([fence] ++ d.lines ++ [fence]) = fenceCount d.lines + 2 := by
    rw [List.append_assoc, List.singleton_append, fenceCount_fence, fenceCount_append,
      fenceCount_fence]
    rfl
  refine ⟨fun h => @Fenced.block [] [] d [] nofun h (.outside nofun), ?_, fun heq => ?_⟩
  · rw [hcount]
    exact Nat.le_add_left _ _
  · rw [hcount, List.length_singleton] at heq
    exact fenceCount_eq_zero.mp (by omega)

-- No part can make up for a fence too many in another.
theorem FencedIff.append (h : FencedIff ds lines clear) (h' : FencedIff es more clear') :
    FencedIff (ds ++ es) (lines ++ more) (clear ∧ clear') := by
  have hle := h.two_mul_le
  have hle' := h'.two_mul_le
  refine ⟨fun hclear => (h.fenced hclear.1).append (h'.fenced hclear.2), ?_, fun heq => ?_⟩
  · rw [fenceCount_append, List.length_append]
    omega
  · rw [fenceCount_append, List.length_append] at heq
    exact ⟨h.clear_of_eq (by omega), h'.clear_of_eq (by omega)⟩

theorem FencedIff.flatMap {α : Type} {captured : α → List Diagnostics}
    {written : α → List (List Char)} {free : α → Prop}
    (h : ∀ x, FencedIff (captured x) (written x) (free x)) (xs : List α) :
    FencedIff (xs.flatMap captured) (xs.flatMap written) (∀ x ∈ xs, free x) := by
  induction xs with
  | nil => exact (fencedIff_outside []).congr (by simp)
  | cons x xs ih =>
      rw [List.flatMap_cons, List.flatMap_cons]
      exact ((h x).append ih).congr (List.forall_mem_cons (l := xs)).symm

end FencedIff

theorem fencedIff_linesAmong (texts : List String) :
    FencedIff [] (linesAmong texts) (∀ text ∈ texts, ¬HasMark fence text.toList) := by
  refine (fencedIff_outside _).congr ?_
  simp only [linesAmong, List.mem_flatMap, HasMark]
  constructor
  · rintro h text htext ⟨line, hline, hfence⟩
    exact h line ⟨text, htext, hline⟩ hfence
  · rintro h line ⟨text, htext, hline⟩ hfence
    exact h text htext ⟨line, hline, hfence⟩

-- The texts that a line begins with, or that a stage sends, decide what the lines begin with.
section Texts

theorem feed_notMem_fence : '\n' ∉ fence := by
  decide

theorem blank_notMem_fence : ' ' ∉ '\n' :: fence := by
  decide

-- A text behind a few words makes no line but those after its first.
theorem hasMark_append_iff {lead : String} (hblank : lead.toList.getLast? = some ' ')
    (hlead : ¬HasMark fence lead.toList) (text : String) :
    HasMark fence (lead ++ text).toList ↔ HasLaterMark fence text.toList := by
  obtain ⟨start, hstart⟩ := List.getLast?_eq_some_iff.mp hblank
  rw [hstart, hasMark_append_cons_iff feed_notMem_fence blank_notMem_fence, not_or] at hlead
  rw [String.toList_append, hstart, List.append_assoc, List.singleton_append,
    hasMark_append_cons_iff feed_notMem_fence blank_notMem_fence, or_iff_right hlead.1]

theorem hasLaterMark_intercalate_iff (pieces : List (List Char)) :
    HasLaterMark fence ([' ', '|', ' '].intercalate pieces) ↔
      ∃ piece ∈ pieces, HasLaterMark fence piece := by
  induction pieces with
  | nil => exact iff_of_false (by decide) (by simp)
  | cons piece pieces ih =>
      cases pieces with
      | nil => simp
      | cons next pieces =>
          have hchars : piece ++ [' ', '|', ' '] ++ [' ', '|', ' '].intercalate (next :: pieces) =
              piece ++ ' ' :: (['|'] ++ ' ' :: [' ', '|', ' '].intercalate (next :: pieces)) := by
            simp
          have hbar : ¬HasLaterMark fence ['|'] := by decide
          rw [List.intercalate_cons_cons, hchars,
            hasLaterMark_append_cons_iff feed_notMem_fence blank_notMem_fence,
            hasLaterMark_append_cons_iff feed_notMem_fence blank_notMem_fence, ih,
            or_iff_right hbar]
          simp

theorem hasMark_rowText_iff (cells : List String) :
    HasMark fence (rowText cells).toList ↔ ∃ cell ∈ cells, HasLaterMark fence cell.toList := by
  have hchars : (rowText cells).toList =
      ['|'] ++ ' ' :: ([' ', '|', ' '].intercalate (cells.map String.toList) ++ ' ' :: ['|']) := by
    simp [rowText, String.toList_intercalate]
  have hbar : ¬HasMark fence ['|'] := by decide
  have hlast : ¬HasLaterMark fence ['|'] := by decide
  rw [hchars, hasMark_append_cons_iff feed_notMem_fence blank_notMem_fence,
    hasLaterMark_append_cons_iff feed_notMem_fence blank_notMem_fence,
    hasLaterMark_intercalate_iff, or_iff_right hbar, or_iff_left hlast]
  simp

theorem hasMark_command_iff (command status : String) :
    HasMark fence ("`" ++ command ++ "` (" ++ status ++ ")").toList ↔
      HasMark fence ("`" ++ command ++ "`").toList ∨ HasLaterMark fence status.toList := by
  have hchars : ("`" ++ command ++ "` (" ++ status ++ ")").toList =
      ("`" ++ command ++ "`").toList ++ ' ' :: ([] ++ '(' :: (status.toList ++ ')' :: [])) := by
    simp
  have hopen : '(' ∉ '\n' :: fence := by decide
  have hclose : ')' ∉ '\n' :: fence := by decide
  have hnone : ¬HasLaterMark fence [] := by decide
  rw [hchars, hasMark_append_cons_iff feed_notMem_fence blank_notMem_fence,
    hasLaterMark_append_cons_iff feed_notMem_fence hopen,
    hasLaterMark_append_cons_iff feed_notMem_fence hclose, or_iff_right hnone, or_iff_left hnone]

-- The line end behind the captured text makes no line that begins with something.
theorem hasMark_captured_iff (d : Diagnostics) :
    (∃ line ∈ d.lines, fence <+: line) ↔ HasMark fence (d.stdout ++ d.stderr).toList := by
  obtain ⟨text, hcaptured, htext⟩ := d.exists_captured_eq
  have hlines : d.lines = splitFeeds text.toList := by
    rw [Diagnostics.lines, hcaptured, String.toList_append]
    exact endedLines_feed _
  rw [hlines]
  rcases htext with htext | htext
  · rw [htext]
    rfl
  · have hsplit : splitFeeds (text ++ "\n").toList = splitFeeds text.toList ++ [[]] := by
      rw [String.toList_append]
      exact splitFeeds_append text.toList []
    rw [htext, HasMark, hsplit]
    simp [fence]

end Texts

-- No line of a text but its first, which stands behind other words, begins with a fence.
def TextClear (text : String) : Prop :=
  ¬HasLaterMark fence text.toList

-- Neither what is said of a stage nor what it sent makes a line that begins with a fence.
def StageClear (record : StageRecord) (d : Diagnostics) : Prop :=
  ¬HasMark fence ("`" ++ record.command ++ "`").toList ∧ TextClear record.status.message ∧
    ¬HasMark fence (d.stdout ++ d.stderr).toList

def VerdictClear (v : Verdict) : Prop :=
  TextClear v.fixtureId ∧ TextClear v.expected ∧ TextClear v.outcome.message ∧
    ∀ c ∈ captures v, StageClear c.1 c.2

-- No text of the report makes a line that could be taken for a fence.
def ClearOfFences (r : Report) : Prop :=
  TextClear r.title ∧ TextClear r.mode ∧ TextClear r.timestamp ∧
    ∀ v ∈ r.summary.failures, VerdictClear v

-- What was captured of the fixtures that failed, stage by stage.
def captured (r : Report) : List Diagnostics :=
  r.summary.failures.flatMap fun v => (captures v).map Prod.snd

theorem fencedIff_headingTexts (r : Report) : FencedIff [] (linesAmong r.headingTexts)
    (TextClear r.title ∧ TextClear r.mode ∧ TextClear r.timestamp) := by
  refine (fencedIff_linesAmong _).congr ?_
  have hnat (n : Nat) : ¬HasLaterMark fence (toString n).toList :=
    not_hasLaterMark_of_notMem (fitsCell_toString n).2
  have hempty : ¬HasMark fence "".toList := by decide
  simp only [headingTexts, List.forall_mem_cons, List.not_mem_nil, false_imp_iff, implies_true,
    and_true, hempty, not_false_iff, true_and, TextClear,
    @hasMark_append_iff "# " rfl (by decide), @hasMark_append_iff "- Mode: " rfl (by decide),
    @hasMark_append_iff "- Timestamp: " rfl (by decide),
    @hasMark_append_iff "- Total: " rfl (by decide),
    @hasMark_append_iff "- Passed: " rfl (by decide),
    @hasMark_append_iff "- Failed: " rfl (by decide), hnat]

theorem fencedIff_categoryTexts (r : Report) : FencedIff [] (linesAmong r.categoryTexts) True := by
  have hhead : ∀ text ∈ ["| Category | Passed | Total | Skipped |",
      "|----------|--------|-------|---------|"], ¬HasMark fence text.toList := by
    decide
  refine (fencedIff_linesAmong _).congr (iff_true_intro fun text htext => ?_)
  rcases List.mem_append.mp htext with htext | htext
  · exact hhead text htext
  · obtain ⟨c, -, rfl⟩ := List.mem_map.mp htext
    rw [hasMark_rowText_iff]
    rintro ⟨cell, hcell, hlater⟩
    exact not_hasLaterMark_of_notMem (fitsCell_of_mem_categoryCells c cell hcell).2 hlater

theorem fencedIff_failureTexts (failures : List Verdict) :
    FencedIff [] (linesAmong (failureTexts failures)) (∀ v ∈ failures,
      TextClear v.fixtureId ∧ TextClear v.expected ∧ TextClear v.outcome.message) := by
  refine (fencedIff_linesAmong _).congr ?_
  have hhead : ∀ text ∈ ["", "## Failures", "", "| Fixture | Category | Expected | Observed |",
      "|---------|----------|----------|----------|"], ¬HasMark fence text.toList := by
    decide
  have hname (c : Category) : ¬HasLaterMark fence c.name.toList := by
    cases c <;> decide
  rw [failureTexts, List.forall_mem_append, and_iff_right hhead, List.forall_mem_map]
  refine forall₂_congr fun v _ => ?_
  simp [hasMark_rowText_iff, failureCells, hname, TextClear]

theorem fencedIff_outputTexts (v : Verdict) : FencedIff [] (linesAmong (outputTexts v))
    (captures v ≠ [] → TextClear v.fixtureId) := by
  refine (fencedIff_linesAmong _).congr ?_
  have hempty : ¬HasMark fence "".toList := by decide
  unfold outputTexts
  split
  · rename_i hnone
    simp [hnone]
  · rename_i hsome
    simp only [List.forall_mem_cons, hempty, not_false_iff, true_and, ne_eq, hsome,
      List.not_mem_nil, false_imp_iff, implies_true, and_true, forall_const, TextClear,
      @hasMark_append_iff "### " rfl (by decide)]

theorem fencedIff_blockTexts (record : StageRecord) :
    FencedIff [] (linesAmong (blockTexts record))
      (¬HasMark fence ("`" ++ record.command ++ "`").toList ∧
        TextClear record.status.message) := by
  refine (fencedIff_linesAmong _).congr ?_
  have hempty : ¬HasMark fence "".toList := by decide
  simp only [blockTexts, List.forall_mem_cons, List.not_mem_nil, false_imp_iff, implies_true,
    and_true, hempty, not_false_iff, true_and, hasMark_command_iff, not_or, TextClear]

theorem fencedIff_stage (record : StageRecord) (d : Diagnostics) : FencedIff [d]
    (linesAmong (blockTexts record) ++ linesAmong ["```"] ++ d.lines ++ linesAmong ["```"])
    (StageClear record d) := by
  have hcaptured := (fencedIff_blockTexts record).append (fencedIff_block d)
  simp only [List.append_assoc] at hcaptured ⊢
  refine hcaptured.congr ?_
  rw [StageClear, and_assoc, ← hasMark_captured_iff]
  simp

theorem fencedIff_outputLines (v : Verdict) :
    FencedIff ((captures v).map Prod.snd) (outputLines v)
      ((captures v ≠ [] → TextClear v.fixtureId) ∧ ∀ c ∈ captures v, StageClear c.1 c.2) := by
  have hstage (c : StageRecord × Diagnostics) := fencedIff_stage c.1 c.2
  rw [List.map_eq_flatMap]
  exact (fencedIff_outputTexts v).append (.flatMap hstage _)

theorem fencedIff_lines (r : Report) : FencedIff r.captured r.lines r.ClearOfFences := by
  have hopening := (fencedIff_headingTexts r).append (fencedIff_categoryTexts r)
  rw [lines_eq, captured, ClearOfFences]
  by_cases h : r.summary.failures = []
  · rw [if_pos h, h, List.append_nil]
    exact hopening.congr (by simp)
  · have houtputs := FencedIff.flatMap fencedIff_outputLines r.summary.failures
    rw [if_neg h]
    refine (hopening.append ((fencedIff_failureTexts r.summary.failures).append houtputs)).congr ?_
    rw [and_true, and_assoc, and_assoc]
    refine and_congr_right fun _ => and_congr_right fun _ => and_congr_right fun _ => ?_
    -- The name in the heading of the blocks stands in the table already.
    constructor
    · rintro ⟨htexts, hstages⟩ v hv
      obtain ⟨hid, hexpected, hmessage⟩ := htexts v hv
      exact ⟨hid, hexpected, hmessage, (hstages v hv).2⟩
    · intro hclear
      refine ⟨fun v hv => ?_, fun v hv => ?_⟩
      · obtain ⟨hid, hexpected, hmessage, -⟩ := hclear v hv
        exact ⟨hid, hexpected, hmessage⟩
      · obtain ⟨hid, -, -, hstages⟩ := hclear v hv
        exact ⟨fun _ => hid, hstages⟩

-- The Markdown form has the lines of its tables and blocks just when the texts that are put in
-- leave room for them, and the table of the categories and the heading of the failures always.
theorem markdown_structured_iff (r : Report) :
    splitFeeds r.markdown.toList = r.lines ++ [[]] ∧
    HasTable r.beforeCategories categoryColumns (r.categories.map categoryCells) r.lines ∧
    (r.beforeFailures <+: r.lines ↔ r.summary.failures ≠ []) ∧
    (HasTable r.beforeFailures failureColumns (r.summary.failures.map failureCells) r.lines ↔
      r.summary.failures ≠ [] ∧ ∀ v ∈ r.summary.failures,
        FitsCell v.fixtureId ∧ FitsCell v.expected ∧ FitsCell v.outcome.message) ∧
    (Fenced r.captured r.lines ↔ r.ClearOfFences) :=
  ⟨r.closed_markdown.splitFeeds_eq, hasTable_categories r, beforeFailures_prefix_iff r,
    hasTable_failures_iff r, (fencedIff_lines r).iff⟩

-- A fixture with a bar in its name, of which the compiler sent a fence.
def spliced : Report where
  title := "WACC Verification Report"
  mode := "full"
  timestamp := "2026-10-19T00:00:00.000Z"
  categories := []
  summary := ⟨1, 0, 1, [{
    fixtureId := "f|x.wacc"
    category := .valid
    passed := false
    expected := "program exit 0"
    outcome := .exited 7
    elapsedMs := 3
    stages := [⟨.compile, "./compile f.wacc", .exited 0, 4, some ⟨"```\n", ""⟩⟩] }]⟩

-- Its row divides into five cells, and the line that was captured ends the block before its end.
theorem markdown_spliced :
    (¬HasTable spliced.beforeFailures failureColumns
      (spliced.summary.failures.map failureCells) spliced.lines) ∧
    ¬Fenced spliced.captured spliced.lines := by
  refine ⟨fun htable => ?_, fun hfenced => ?_⟩
  · obtain ⟨-, hfits⟩ := (hasTable_failures_iff spliced).mp htable
    exact absurd (hfits _ List.mem_cons_self).1.1 (by decide)
  · obtain ⟨-, -, -, hclear⟩ := (fencedIff_lines spliced).iff.mp hfenced
    obtain ⟨-, -, -, hstages⟩ := hclear _ List.mem_cons_self
    exact absurd (hstages _ List.mem_cons_self).2.2 (by decide)

end Conformance.Report
