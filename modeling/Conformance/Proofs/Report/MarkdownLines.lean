import Conformance.Proofs.Text.Marks
import Conformance.Report

namespace Conformance

namespace Text

-- Texts one after the other, each with a line end.
def ended (texts : List String) : List Char :=
  texts.flatMap fun text => text.toList ++ ['\n']

def linesAmong (texts : List String) : List (List Char) :=
  texts.flatMap fun text => splitFeeds text.toList

theorem closed_ended (texts : List String) : Closed (ended texts) :=
  closed_flatMap fun _ _ => closed_feed _

theorem endedLines_ended (texts : List String) : endedLines (ended texts) = linesAmong texts := by
  rw [ended, endedLines_flatMap fun _ _ => closed_feed _]
  simp only [endedLines_feed, linesAmong]

end Text

open Text

-- What was captured of a stage, as it stands in its block.
def Diagnostics.captured (d : Diagnostics) : String :=
  d.stdout ++ d.stderr ++ if d.stderr.toList.getLast? = some '\n' then "" else "\n"

def Diagnostics.lines (d : Diagnostics) : List (List Char) :=
  endedLines d.captured.toList

-- The captured text without the line end that it has in any case.
theorem Diagnostics.exists_captured_eq (d : Diagnostics) :
    ∃ text, d.captured = text ++ "\n" ∧
      (d.stdout ++ d.stderr = text ∨ d.stdout ++ d.stderr = text ++ "\n") := by
  unfold captured
  split
  · rename_i hend
    obtain ⟨start, hstart⟩ := List.getLast?_eq_some_iff.mp hend
    have herr : d.stderr = String.ofList start ++ "\n" := by
      rw [← String.toList_inj, hstart]
      simp
    refine ⟨d.stdout ++ String.ofList start, ?_, .inr ?_⟩
    · rw [String.append_empty, herr, String.append_assoc]
    · rw [herr, String.append_assoc]
  · exact ⟨d.stdout ++ d.stderr, rfl, .inl rfl⟩

theorem Diagnostics.closed_captured (d : Diagnostics) : Closed d.captured.toList := by
  obtain ⟨text, htext, -⟩ := d.exists_captured_eq
  rw [htext, String.toList_append]
  exact closed_feed _

namespace Report

def lines (r : Report) : List (List Char) :=
  endedLines r.markdown.toList

-- A row without its line end.
def rowText (cells : List String) : String :=
  "| " ++ String.intercalate " | " cells ++ " |"

def headingTexts (r : Report) : List String := [
  "# " ++ r.title, "",
  "- Mode: " ++ r.mode,
  "- Timestamp: " ++ r.timestamp,
  "- Total: " ++ toString r.summary.total,
  "- Passed: " ++ toString r.summary.passed,
  "- Failed: " ++ toString r.summary.failed, ""]

def categoryCells (c : CategoryReport) : List String :=
  [c.category.label, toString c.passed, toString c.total, toString c.skipped]

def categoryTexts (r : Report) : List String :=
  ["| Category | Passed | Total | Skipped |", "|----------|--------|-------|---------|"] ++
    r.categories.map fun c => rowText (categoryCells c)

def failureCells (v : Verdict) : List String :=
  [v.fixtureId, v.category.name, v.expected, v.outcome.message]

def failureTexts (failures : List Verdict) : List String :=
  ["", "## Failures", "", "| Fixture | Category | Expected | Observed |",
    "|---------|----------|----------|----------|"] ++
    failures.map fun v => rowText (failureCells v)

-- The stages of which something was captured.
def captures (v : Verdict) : List (StageRecord × Diagnostics) :=
  v.stages.filterMap fun record => record.diagnostics.map fun d => (record, d)

-- What stands before the first block of a verdict, and before each of them.
def outputTexts (v : Verdict) : List String :=
  if captures v = [] then [] else ["", "### " ++ v.fixtureId]

def blockTexts (record : StageRecord) : List String :=
  ["", "`" ++ record.command ++ "` (" ++ record.status.message ++ ")", ""]

def blockChars (record : StageRecord) (d : Diagnostics) : List Char :=
  ended (blockTexts record) ++ ended ["```"] ++ d.captured.toList ++ ended ["```"]

def outputChars (v : Verdict) : List Char :=
  ended (outputTexts v) ++ (captures v).flatMap fun c => blockChars c.1 c.2

def outputLines (v : Verdict) : List (List Char) :=
  linesAmong (outputTexts v) ++ (captures v).flatMap fun c =>
    linesAmong (blockTexts c.1) ++ linesAmong ["```"] ++ c.2.lines ++ linesAmong ["```"]

theorem toList_row (cells : List String) : (row cells).toList = ended [rowText cells] := by
  simp [row, rowText, ended]

theorem flatMap_outputBlock (record : StageRecord) (d : Diagnostics) :
    (outputBlock record d).flatMap String.toList = blockChars record d := by
  have hend : (if d.stderr.toList.getLast? = some '\n' then [] else ["\n"]).flatMap String.toList =
      (if d.stderr.toList.getLast? = some '\n' then "" else "\n").toList := by
    split <;> rfl
  simp only [outputBlock, blockChars, Diagnostics.captured, List.flatMap_append, hend]
  simp [ended, blockTexts]

theorem flatMap_outputBlocks (v : Verdict) :
    (outputBlocks v).flatMap String.toList = outputChars v := by
  have hblocks : (v.stages.filterMap fun record => record.diagnostics.map fun d =>
      outputBlock record d) = (captures v).map fun c => outputBlock c.1 c.2 := by
    rw [captures, List.map_filterMap]
    simp only [Option.map_map, Function.comp_def]
  simp only [outputBlocks, hblocks, outputChars, outputTexts, List.isEmpty_map,
    List.isEmpty_iff]
  split
  · rename_i hnone
    rw [hnone]
    rfl
  · rw [List.flatMap_cons, ← List.flatMap_def, List.flatMap_assoc]
    simp [ended, flatMap_outputBlock]

theorem toList_join_heading (r : Report) :
    (String.join r.heading).toList = ended r.headingTexts := by
  simp [heading, headingTexts, ended]

theorem toList_join_categoryTable (r : Report) :
    (String.join r.categoryTable).toList = ended r.categoryTexts := by
  simp [categoryTable, categoryTexts, categoryRow, categoryCells, List.flatMap_map, toList_row,
    ended]

theorem toList_join_failureTable (failures : List Verdict) :
    (String.join (failureTable failures)).toList = ended (failureTexts failures) := by
  simp [failureTable, failureTexts, failureRow, failureCells, List.flatMap_map, toList_row, ended]

theorem toList_markdown (r : Report) : r.markdown.toList =
    ended r.headingTexts ++ ended r.categoryTexts ++
      if r.summary.failures = [] then []
      else ended (failureTexts r.summary.failures) ++ r.summary.failures.flatMap outputChars := by
  rw [markdown, String.toList_join, markdownPieces, List.flatMap_append, List.flatMap_append,
    ← String.toList_join, ← String.toList_join, toList_join_heading, toList_join_categoryTable]
  simp only [List.isEmpty_iff]
  split
  · rfl
  · rw [List.flatMap_append, ← String.toList_join, toList_join_failureTable, List.flatMap_assoc]
    simp only [flatMap_outputBlocks]

theorem closed_blockChars (record : StageRecord) (d : Diagnostics) :
    Closed (blockChars record d) :=
  (((closed_ended _).append (closed_ended _)).append d.closed_captured).append (closed_ended _)

theorem closed_outputChars (v : Verdict) : Closed (outputChars v) :=
  (closed_ended _).append (closed_flatMap fun c _ => closed_blockChars c.1 c.2)

theorem endedLines_blockChars (record : StageRecord) (d : Diagnostics) :
    endedLines (blockChars record d) =
      linesAmong (blockTexts record) ++ linesAmong ["```"] ++ d.lines ++ linesAmong ["```"] := by
  rw [blockChars, List.append_assoc, List.append_assoc, closed_ended (blockTexts record),
    closed_ended ["```"], d.closed_captured, endedLines_ended, endedLines_ended, Diagnostics.lines,
    List.append_assoc, List.append_assoc]

theorem endedLines_outputChars (v : Verdict) : endedLines (outputChars v) = outputLines v := by
  have hblocks : ∀ c ∈ captures v, Closed (blockChars c.1 c.2) :=
    fun c _ => closed_blockChars c.1 c.2
  rw [outputChars, closed_ended (outputTexts v), endedLines_ended, endedLines_flatMap hblocks,
    outputLines]
  simp only [endedLines_blockChars]

-- The Markdown form is lines and nothing else.
theorem closed_markdown (r : Report) : Closed r.markdown.toList := by
  rw [toList_markdown]
  refine ((closed_ended _).append (closed_ended _)).append ?_
  split
  · exact closed_nil
  · exact (closed_ended _).append (closed_flatMap fun v _ => closed_outputChars v)

-- These lines one by one.
theorem lines_eq (r : Report) : r.lines =
    linesAmong r.headingTexts ++ linesAmong r.categoryTexts ++
      if r.summary.failures = [] then []
      else linesAmong (failureTexts r.summary.failures) ++
        r.summary.failures.flatMap outputLines := by
  rw [lines, toList_markdown, List.append_assoc, closed_ended r.headingTexts,
    closed_ended r.categoryTexts, endedLines_ended r.headingTexts,
    endedLines_ended r.categoryTexts, List.append_assoc]
  split
  · rfl
  · have houtputs : ∀ v ∈ r.summary.failures, Closed (outputChars v) :=
      fun v _ => closed_outputChars v
    rw [closed_ended (failureTexts r.summary.failures), endedLines_ended,
      endedLines_flatMap houtputs]
    simp only [endedLines_outputChars]

end Report

end Conformance
