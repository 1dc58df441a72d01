import Conformance.Proofs.Log.BookEntries
import Mathlib.Data.List.Flatten

namespace Conformance

namespace Log

-- What the line on a verdict has to tell, about what was seen of the fixture.
structure Entry.TellsVerdict (v : Verdict) (run : FixtureRun) (e : Entry) : Prop where
  category : e.category = some v.category
  fixture : e.fixture = some v.fixtureId
  pass : e.outcome = some .pass ↔ v.passed = true
  timeout : e.outcome = some .timeout ↔ v.passed = false ∧ ∃ stage, v.outcome = .timedOut stage
  error : e.outcome = some .error ↔
    v.passed = false ∧ ∃ stage detail, v.outcome = .crashed stage detail
  fail : e.outcome = some .fail ↔ v.passed = false ∧ (∀ stage, v.outcome ≠ .timedOut stage) ∧
    ∀ stage detail, v.outcome ≠ .crashed stage detail
  stage : e.stage = some ((run.stages.getLast?.map StageRecord.stage).getD .compile)
  exitCode : ∀ code, e.exitCode = some code ↔
    v.outcome = .rejectedAs code ∨ ∃ n : Nat, v.outcome = .exited n ∧ code = n
  durationMs : e.durationMs = some v.elapsedMs

theorem Entry.tellsVerdict_ofVerdict {v : Verdict} {run : FixtureRun}
    (hstage : decidingStage v.outcome =
      (run.stages.getLast?.map StageRecord.stage).getD .compile)
    (suite runId : String) (clock : Nat → String) (k : Nat) :
    ((ofVerdict v).numbered suite runId clock k).TellsVerdict v run where
  category := rfl
  fixture := rfl
  pass := by
    simp only [numbered, ofVerdict, markOf]
    cases v.passed <;> cases v.outcome <;> simp
  timeout := by
    simp only [numbered, ofVerdict, markOf]
    cases v.passed <;> cases v.outcome <;> simp
  error := by
    simp only [numbered, ofVerdict, markOf]
    cases v.passed <;> cases v.outcome <;> simp
  fail := by
    simp only [numbered, ofVerdict, markOf]
    cases v.passed <;> cases v.outcome <;> simp
  stage := congrArg some hstage
  exitCode := by
    intro code
    simp only [numbered, ofVerdict, codeOf]
    cases v.outcome <;> simp [eq_comm]
  durationMs := rfl

open Json

-- The accounts that a log tells of: each is of the run of one category.
structure Fair (limit : Nat) (account : CategoryReport × List Verdict) : Prop where
  total : account.1.total = account.2.length
  category : ∀ v ∈ account.2, v.category = account.1.category
  fits : account.1.total + account.1.skipped ≤ limit
  parts : account.1.total = account.1.passed + account.1.failed

theorem map_chapter {account : CategoryReport × List Verdict} {limit : Nat}
    (h : Fair limit account) :
    (chapter account).map (fun e => (e.event, e.category)) =
      ("category_start", some account.1.category) ::
        (List.replicate account.1.total ("fixture_verdict", some account.1.category) ++
          [("category_end", some account.1.category)]) := by
  have hverdicts : (account.2.map Entry.ofVerdict).map (fun e => (e.event, e.category)) =
      List.replicate account.1.total ("fixture_verdict", some account.1.category) := by
    rw [h.total, List.map_map, ← List.map_const']
    refine List.map_congr_left fun v hv => ?_
    rw [← h.category v hv]
    rfl
  rw [chapter, List.map_cons, List.map_append, hverdicts]
  rfl

theorem filter_chapter (account : CategoryReport × List Verdict) :
    (chapter account).filter (fun e => e.event = "fixture_verdict") =
      account.2.map Entry.ofVerdict := by
  have hverdicts : (account.2.map Entry.ofVerdict).filter (fun e => e.event = "fixture_verdict") =
      account.2.map Entry.ofVerdict := by
    rw [List.filter_eq_self]
    intro e he
    obtain ⟨v, -, rfl⟩ := List.mem_map.mp he
    rfl
  rw [chapter, List.filter_cons, List.filter_append, hverdicts]
  simp [Entry.categoryStart, Entry.categoryEnd, Entry.draft]

theorem length_chapters (done : List (CategoryReport × List Verdict)) :
    (done.flatMap chapter).length = 2 * done.length + (done.flatMap Prod.snd).length := by
  induction done with
  | nil => rfl
  | cons account rest ih =>
      rw [List.flatMap_cons, List.flatMap_cons, List.length_append, List.length_append, ih]
      simp only [chapter, List.length_cons, List.length_append, List.length_map, List.length_nil]
      omega

theorem isSound_of_mem_chapter {account : CategoryReport × List Verdict} {limit : Nat}
    (h : Fair limit account) (hlimit : limit < wordLimit)
    (hverdicts : ∀ v ∈ account.2, (Entry.ofVerdict v).IsSound) {e : Entry}
    (he : e ∈ chapter account) : e.IsSound := by
  have hparts := h.parts
  have hfits := h.fits
  simp only [chapter, List.mem_cons, List.mem_append, List.mem_map, List.not_mem_nil,
    or_false] at he
  rcases he with rfl | ⟨v, hv, rfl⟩ | rfl
  · exact Entry.isSound_categoryStart _ (by omega) (by omega)
  · exact hverdicts v hv
  · exact Entry.isSound_categoryEnd (by omega) (by omega) (by omega) (by omega)

theorem isDraft_of_mem_chapter {account : CategoryReport × List Verdict} {e : Entry}
    (he : e ∈ chapter account) : e.IsDraft := by
  simp only [chapter, List.mem_cons, List.mem_append, List.mem_map, List.not_mem_nil,
    or_false] at he
  rcases he with rfl | ⟨v, hv, rfl⟩ | rfl <;> exact ⟨rfl, rfl⟩

-- All entries of a log, before they are dated and named.
def story (mode : String) (categories : List Category)
    (done : List (CategoryReport × List Verdict)) (summary : Summary) : List Entry :=
  .runStart mode categories summary.total :: (done.flatMap chapter ++ [.runEnd summary])

variable {mode : String} {categories : List Category}
  {done : List (CategoryReport × List Verdict)} {summary : Summary}

theorem isDraft_of_mem_story {e : Entry} (h : e ∈ story mode categories done summary) :
    e.IsDraft := by
  simp only [story, List.mem_cons, List.mem_append, List.mem_flatMap, List.not_mem_nil,
    or_false] at h
  rcases h with rfl | ⟨account, -, h⟩ | rfl
  · exact ⟨rfl, rfl⟩
  · exact isDraft_of_mem_chapter h
  · exact ⟨rfl, rfl⟩

theorem isSound_of_mem_story {limit : Nat} (hlimit : limit < wordLimit)
    (hfair : ∀ account ∈ done, Fair limit account) (htotal : summary.total ≤ limit)
    (hparts : summary.passed + summary.failed = summary.total)
    (htime : (summary.results.map Verdict.elapsedMs).sum < wordLimit)
    (hverdicts : ∀ account ∈ done, ∀ v ∈ account.2, (Entry.ofVerdict v).IsSound) {e : Entry}
    (h : e ∈ story mode categories done summary) : e.IsSound := by
  simp only [story, List.mem_cons, List.mem_append, List.mem_flatMap, List.not_mem_nil,
    or_false] at h
  rcases h with rfl | ⟨account, haccount, h⟩ | rfl
  · exact Entry.isSound_runStart _ _ (by omega)
  · exact isSound_of_mem_chapter (hfair account haccount) hlimit (hverdicts account haccount) h
  · exact Entry.isSound_runEnd (by omega) (by omega) (by omega) htime

theorem map_story {limit : Nat} (hfair : ∀ account ∈ done, Fair limit account) :
    (story mode categories done summary).map (fun e => (e.event, e.category)) =
      ("run_start", none) ::
        ((done.map Prod.fst).flatMap (fun c => ("category_start", some c.category) ::
          (List.replicate c.total ("fixture_verdict", some c.category) ++
            [("category_end", some c.category)])) ++
          [("run_end", none)]) := by
  have hchapters : (done.flatMap chapter).map (fun e => (e.event, e.category)) =
      (done.map Prod.fst).flatMap fun c => ("category_start", some c.category) ::
        (List.replicate c.total ("fixture_verdict", some c.category) ++
          [("category_end", some c.category)]) := by
    rw [List.map_flatMap, List.flatMap_map]
    exact List.flatMap_congr fun account haccount => map_chapter (hfair account haccount)
  rw [story, List.map_cons, List.map_append, hchapters]
  rfl

theorem filter_story : (story mode categories done summary).filter
    (fun e => e.event = "fixture_verdict") =
      (done.flatMap Prod.snd).map Entry.ofVerdict := by
  have hchapters : (done.flatMap chapter).filter (fun e => e.event = "fixture_verdict") =
      (done.flatMap Prod.snd).map Entry.ofVerdict := by
    rw [List.filter_flatMap, List.map_flatMap]
    exact List.flatMap_congr fun account _ => filter_chapter account
  rw [story, List.filter_cons, List.filter_append, hchapters]
  simp [Entry.runStart, Entry.runEnd, Entry.draft]

theorem length_story : (story mode categories done summary).length =
    2 + 2 * done.length + (done.flatMap Prod.snd).length := by
  rw [story, List.length_cons, List.length_append, length_chapters]
  simp only [List.length_cons, List.length_nil]
  omega

end Log

end Conformance
