import Conformance.Proofs.Report.MarkdownLines

namespace Conformance.Report

open Text

-- A cell as it stands between two bars.
def padded (cell : String) : List Char :=
  ' ' :: cell.toList ++ [' ']

-- The line divides at its bars into these cells, with nothing before the first bar and behind
-- the last.
def IsRow (cells : List String) (line : List Char) : Prop :=
  line.splitOn '|' = [] :: cells.map padded ++ [[]]

-- The line has a run of dashes for each of so many columns.
def IsRule (columns : Nat) (line : List Char) : Prop :=
  ∃ runs : List (List Char), line.splitOn '|' = [] :: runs ++ [[]] ∧ runs.length = columns ∧
    ∀ run ∈ runs, run ≠ [] ∧ ∀ c ∈ run, c = '-'

-- A head, a rule and one line for each row, in order.
def IsTable (columns : List String) (rows : List (List String)) (lines : List (List Char)) : Prop :=
  ∃ head rule body, lines = head :: rule :: body ∧ IsRow columns head ∧
    IsRule columns.length rule ∧ List.Forall₂ IsRow rows body

-- Behind the lines comes the table, and behind the table a blank line or nothing.
def HasTable (before : List (List Char)) (columns : List String) (rows : List (List String))
    (lines : List (List Char)) : Prop :=
  ∃ table after, lines = before ++ table ++ after ∧ IsTable columns rows table ∧
    ∀ line ∈ after.head?, line = []

theorem notMem_of_mem_splitOn {c : Char} {cs piece : List Char} (h : piece ∈ cs.splitOn c) :
    c ∉ piece := by
  induction cs generalizing piece with
  | nil =>
      rw [List.splitOn_nil, List.mem_singleton] at h
      rw [h]
      exact List.not_mem_nil
  | cons d cs ih =>
      obtain ⟨first, more, hsplit⟩ := List.exists_cons_of_ne_nil (List.splitOn_ne_nil c cs)
      rw [List.splitOn_cons_eq_if_modifyHead, hsplit] at h
      rw [hsplit] at ih
      split at h
      · rcases List.mem_cons.mp h with rfl | h
        · exact List.not_mem_nil
        · exact ih h
      · rename_i hd
        rw [List.modifyHead_cons, List.mem_cons] at h
        rcases h with rfl | h
        · rw [List.mem_cons, not_or]
          exact ⟨fun hc => hd (by rw [hc, beq_self_eq_true]), ih List.mem_cons_self⟩
        · exact ih (List.mem_cons_of_mem first h)

-- The blanks belong to the cells and the bars stand between them.
theorem intercalate_padded (cell : String) (cells : List String) :
    ' ' :: [' ', '|', ' '].intercalate ((cell :: cells).map String.toList) ++ [' ', '|'] =
      ['|'].intercalate ((cell :: cells).map padded ++ [[]]) := by
  induction cells generalizing cell with
  | nil => simp [padded, List.intercalate_cons_cons]
  | cons next cells ih =>
      have hnext := ih next
      simp only [List.map_cons, List.cons_append] at hnext ⊢
      rw [List.intercalate_cons_cons, List.intercalate_cons_cons, ← hnext]
      simp [padded]

theorem toList_rowText {cells : List String} (h : cells ≠ []) :
    (rowText cells).toList = ['|'].intercalate ([] :: cells.map padded ++ [[]]) := by
  obtain ⟨cell, cells, rfl⟩ := List.exists_cons_of_ne_nil h
  have hcells := intercalate_padded cell cells
  simp only [List.map_cons, List.cons_append] at hcells ⊢
  rw [List.intercalate_cons_cons, ← hcells]
  simp [rowText, String.toList_intercalate]

theorem isRow_iff {cells : List String} (h : cells ≠ []) {line : List Char} :
    IsRow cells line ↔ line = (rowText cells).toList ∧ ∀ cell ∈ cells, '|' ∉ cell.toList := by
  constructor
  · intro hrow
    refine ⟨?_, fun cell hcell hbar => ?_⟩
    · rw [toList_rowText h, ← hrow, List.intercalate_splitOn]
    · have hpiece : padded cell ∈ line.splitOn '|' := by
        rw [hrow]
        simp [List.mem_map_of_mem hcell]
      exact notMem_of_mem_splitOn hpiece (by simp [padded, hbar])
  · rintro ⟨rfl, hbars⟩
    rw [IsRow, toList_rowText h]
    refine List.splitOn_intercalate '|' ?_ (List.cons_ne_nil _ _)
    intro piece hpiece
    simp only [List.cons_append, List.mem_cons, List.mem_append, List.mem_map,
      List.not_mem_nil, or_false] at hpiece
    rcases hpiece with rfl | ⟨cell, hcell, rfl⟩ | rfl
    · exact List.not_mem_nil
    · simp [padded, hbars cell hcell]
    · exact List.not_mem_nil

theorem mem_intercalate_iff {c : Char} {sep : List Char} (h : c ∉ sep) (pieces : List (List Char)) :
    c ∈ sep.intercalate pieces ↔ ∃ piece ∈ pieces, c ∈ piece := by
  induction pieces with
  | nil => simp [List.intercalate]
  | cons piece pieces ih =>
      cases pieces with
      | nil => simp
      | cons next pieces =>
          rw [List.intercalate_cons_cons, List.mem_append, List.mem_append, ih]
          simp [h]

theorem notMem_rowText_iff (cells : List String) :
    '\n' ∉ (rowText cells).toList ↔ ∀ cell ∈ cells, '\n' ∉ cell.toList := by
  have hsep : '\n' ∉ [' ', '|', ' '] := by decide
  simp [rowText, mem_intercalate_iff hsep]

-- The text keeps a table of which it is a cell.
def FitsCell (cell : String) : Prop :=
  '|' ∉ cell.toList ∧ '\n' ∉ cell.toList

theorem forall₂_isRow {rows : List (List String)}
    (h : ∀ cells ∈ rows, cells ≠ [] ∧ ∀ cell ∈ cells, FitsCell cell) :
    List.Forall₂ IsRow rows (linesAmong (rows.map rowText)) := by
  induction rows with
  | nil => exact .nil
  | cons cells rows ih =>
      obtain ⟨hne, hcells⟩ := h cells List.mem_cons_self
      have hfeed : '\n' ∉ (rowText cells).toList :=
        (notMem_rowText_iff cells).mpr fun cell hcell => (hcells cell hcell).2
      rw [List.map_cons, linesAmong, List.flatMap_cons, splitFeeds_of_notMem hfeed]
      exact .cons ((isRow_iff hne).mpr ⟨rfl, fun cell hcell => (hcells cell hcell).1⟩)
        (ih fun other hother => h other (List.mem_cons_of_mem cells hother))

-- Rows that are found where they were written leave no bar and no line feed to the cells.
theorem fitsCell_of_forall₂_isRow {rows : List (List String)} (hne : ∀ cells ∈ rows, cells ≠ [])
    {body after rest : List (List Char)} (h : List.Forall₂ IsRow rows body)
    (hlines : body ++ after = linesAmong (rows.map rowText) ++ rest) :
    ∀ cells ∈ rows, ∀ cell ∈ cells, FitsCell cell := by
  induction h with
  | nil =>
      intro cells hcells
      cases hcells
  | @cons cells line rows body hrow _ ih =>
      obtain ⟨hline, hbars⟩ := (isRow_iff (hne cells List.mem_cons_self)).mp hrow
      obtain ⟨first, others, hsplit⟩ :=
        List.exists_cons_of_ne_nil (splitFeeds_ne_nil (rowText cells).toList)
      have hfirst : line = first := by
        rw [List.map_cons, linesAmong, List.flatMap_cons, hsplit] at hlines
        exact (List.cons.inj hlines).1
      have hfeed : '\n' ∉ (rowText cells).toList := by
        rw [← hline, hfirst]
        exact notMem_of_mem_splitFeeds (hsplit ▸ List.mem_cons_self)
      rw [List.map_cons, linesAmong, List.flatMap_cons, splitFeeds_of_notMem hfeed] at hlines
      have hrest := ih (fun other hother => hne other (List.mem_cons_of_mem cells hother))
        (List.cons.inj hlines).2
      rw [List.forall_mem_cons]
      exact ⟨fun cell hcell => ⟨hbars cell hcell, (notMem_rowText_iff cells).mp hfeed cell hcell⟩,
        hrest⟩

theorem isTable_iff {columns : List String} {rows : List (List String)} {head rule : String}
    (hhead : IsRow columns head.toList) (hrule : IsRule columns.length rule.toList)
    (lines : List (List Char)) :
    IsTable columns rows (head.toList :: rule.toList :: lines) ↔ List.Forall₂ IsRow rows lines := by
  constructor
  · rintro ⟨_, _, body, hlines, -, -, hbody⟩
    cases hlines
    exact hbody
  · exact fun hbody => ⟨_, _, lines, rfl, hhead, hrule, hbody⟩

-- The columns of the two tables.
def categoryColumns : List String :=
  ["Category", "Passed", "Total", "Skipped"]

def failureColumns : List String :=
  ["Fixture", "Category", "Expected", "Observed"]

-- The lines before each of the tables.
def beforeCategories (r : Report) : List (List Char) :=
  endedLines (String.join r.heading).toList

def failureHead : List (List Char) :=
  ["".toList, "## Failures".toList, "".toList]

def beforeFailures (r : Report) : List (List Char) :=
  endedLines (String.join (r.heading ++ r.categoryTable)).toList ++ failureHead

theorem isRow_columns {columns : List String} (h : columns = categoryColumns ∨
    columns = failureColumns) : IsRow columns (rowText columns).toList := by
  rcases h with rfl | rfl
  · exact (isRow_iff (by decide)).mpr ⟨rfl, by decide⟩
  · exact (isRow_iff (by decide)).mpr ⟨rfl, by decide⟩

theorem isRule_categories : IsRule categoryColumns.length
    "|----------|--------|-------|---------|".toList :=
  ⟨[10, 8, 7, 9].map fun n => List.replicate n '-', by decide, rfl, by simp⟩

theorem isRule_failures : IsRule failureColumns.length
    "|---------|----------|----------|----------|".toList :=
  ⟨[9, 10, 10, 10].map fun n => List.replicate n '-', by decide, rfl, by simp⟩

theorem fitsCell_toString (n : Nat) : FitsCell (toString n) := by
  have hdigit : ∀ c, c ∈ (toString n).toList → c.isDigit = true := fun c hc =>
    Nat.isDigit_of_mem_toDigits (by decide) (by decide) (String.toList_ofList ▸ hc)
  exact ⟨fun h => absurd (hdigit '|' h) (by decide), fun h => absurd (hdigit '\n' h) (by decide)⟩

theorem fitsCell_of_mem_categoryCells (c : CategoryReport) :
    ∀ cell ∈ categoryCells c, FitsCell cell := by
  have hlabel : FitsCell c.category.label := by
    cases c.category <;> exact ⟨by decide, by decide⟩
  simp only [categoryCells, List.forall_mem_cons, List.not_mem_nil, false_imp_iff, implies_true,
    and_true, hlabel, fitsCell_toString]

theorem beforeCategories_eq (r : Report) : r.beforeCategories = linesAmong r.headingTexts := by
  rw [beforeCategories, toList_join_heading, endedLines_ended]

theorem beforeFailures_eq (r : Report) : r.beforeFailures =
    linesAmong r.headingTexts ++ linesAmong r.categoryTexts ++ failureHead := by
  have hopening : (String.join (r.heading ++ r.categoryTable)).toList =
      ended r.headingTexts ++ ended r.categoryTexts := by
    rw [String.toList_join, List.flatMap_append, ← String.toList_join, ← String.toList_join,
      toList_join_heading, toList_join_categoryTable]
  rw [beforeFailures, hopening, closed_ended r.headingTexts, endedLines_ended, endedLines_ended]

theorem linesAmong_categoryTexts (r : Report) : linesAmong r.categoryTexts =
    (rowText categoryColumns).toList :: "|----------|--------|-------|---------|".toList ::
      linesAmong ((r.categories.map categoryCells).map rowText) := by
  rw [List.map_map]
  rfl

theorem linesAmong_failureTexts (failures : List Verdict) : linesAmong (failureTexts failures) =
    failureHead ++ (rowText failureColumns).toList ::
      "|---------|----------|----------|----------|".toList ::
        linesAmong ((failures.map failureCells).map rowText) := by
  rw [List.map_map]
  rfl

-- What was captured is set off from what stands before it.
theorem head?_outputLines {v : Verdict} {line : List Char} (h : line ∈ (outputLines v).head?) :
    line = [] := by
  unfold outputLines outputTexts at h
  split at h
  · rename_i hnone
    rw [hnone] at h
    cases h
  · exact (Option.some.inj h).symm

theorem head?_flatMap_outputLines {verdicts : List Verdict} {line : List Char}
    (h : line ∈ (verdicts.flatMap outputLines).head?) : line = [] := by
  induction verdicts with
  | nil => cases h
  | cons v verdicts ih =>
      rw [List.flatMap_cons, List.head?_append, Option.mem_def, Option.or_eq_some_iff] at h
      rcases h with h | ⟨-, h⟩
      · exact head?_outputLines h
      · exact ih h

theorem hasTable_categories (r : Report) :
    HasTable r.beforeCategories categoryColumns (r.categories.map categoryCells) r.lines := by
  refine ⟨linesAmong r.categoryTexts, _, by rw [beforeCategories_eq]; exact r.lines_eq, ?_, ?_⟩
  · rw [linesAmong_categoryTexts,
      isTable_iff (isRow_columns (.inl rfl)) isRule_categories]
    refine forall₂_isRow fun cells hcells => ?_
    obtain ⟨c, -, rfl⟩ := List.mem_map.mp hcells
    exact ⟨List.cons_ne_nil _ _, fitsCell_of_mem_categoryCells c⟩
  · intro line hline
    split at hline
    · cases hline
    · exact (Option.some.inj hline).symm

theorem beforeFailures_prefix_iff (r : Report) :
    r.beforeFailures <+: r.lines ↔ r.summary.failures ≠ [] := by
  rw [beforeFailures_eq, lines_eq, List.prefix_append_right_inj]
  by_cases h : r.summary.failures = []
  · simp [h, failureHead]
  · rw [if_neg h, linesAmong_failureTexts, List.append_assoc]
    exact iff_of_true (List.prefix_append _ _) h

theorem fitsCell_failureCells_iff (v : Verdict) : (∀ cell ∈ failureCells v, FitsCell cell) ↔
    FitsCell v.fixtureId ∧ FitsCell v.expected ∧ FitsCell v.outcome.message := by
  have hname : FitsCell v.category.name := by
    cases v.category <;> exact ⟨by decide, by decide⟩
  simp [failureCells, hname]

theorem hasTable_failures_iff (r : Report) :
    HasTable r.beforeFailures failureColumns (r.summary.failures.map failureCells) r.lines ↔
      r.summary.failures ≠ [] ∧ ∀ v ∈ r.summary.failures,
        FitsCell v.fixtureId ∧ FitsCell v.expected ∧ FitsCell v.outcome.message := by
  simp only [← fitsCell_failureCells_iff]
  by_cases h : r.summary.failures = []
  · refine iff_of_false ?_ fun hne => hne.1 h
    rintro ⟨table, after, hlines, -, -⟩
    refine (beforeFailures_prefix_iff r).mp ?_ h
    rw [hlines, List.append_assoc]
    exact List.prefix_append _ _
  · have hlines : r.lines = r.beforeFailures ++ (rowText failureColumns).toList ::
        "|---------|----------|----------|----------|".toList ::
          (linesAmong ((r.summary.failures.map failureCells).map rowText) ++
            r.summary.failures.flatMap outputLines) := by
      rw [lines_eq, if_neg h, linesAmong_failureTexts, beforeFailures_eq]
      simp only [List.append_assoc, List.cons_append]
    have hrows : ∀ cells ∈ r.summary.failures.map failureCells, cells ≠ [] := by
      intro cells hcells
      obtain ⟨v, -, rfl⟩ := List.mem_map.mp hcells
      exact List.cons_ne_nil _ _
    constructor
    · rintro ⟨table, after, htable, ⟨head, rule, body, rfl, -, -, hbody⟩, -⟩
      rw [hlines, List.append_assoc] at htable
      have hbodies := (List.cons.inj (List.cons.inj (List.append_cancel_left htable)).2).2
      have hfits := fitsCell_of_forall₂_isRow hrows hbody hbodies.symm
      exact ⟨h, fun v hv => hfits _ (List.mem_map_of_mem hv)⟩
    · rintro ⟨-, hfits⟩
      refine ⟨_ :: _ :: linesAmong ((r.summary.failures.map failureCells).map rowText),
        r.summary.failures.flatMap outputLines, hlines.trans (by rw [List.append_assoc]; rfl),
        (isTable_iff (isRow_columns (.inr rfl)) isRule_failures _).mpr ?_,
        fun line hline => head?_flatMap_outputLines hline⟩
      refine forall₂_isRow fun cells hcells => ⟨hrows cells hcells, ?_⟩
      obtain ⟨v, hv, rfl⟩ := List.mem_map.mp hcells
      exact hfits v hv

end Conformance.Report
