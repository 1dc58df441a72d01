import Conformance.Proofs.Catalog.Running
import Conformance.Proofs.Fixture.Deciding
import Conformance.Proofs.Log.Story
import Conformance.Proofs.Text.Utf8
import Mathlib.Data.List.Flatten
import Mathlib.Data.List.Perm.Subperm

namespace Conformance

theorem Summary.allPassed_ofResults_iff (results : List Verdict) :
    (Summary.ofResults results).allPassed = true ↔ ∀ v ∈ results, v.passed = true := by
  have hle := List.length_filter_le Verdict.passed results
  have hfailed : (Summary.ofResults results).allPassed = true ↔
      results.length - (results.filter Verdict.passed).length = 0 := decide_eq_true_iff
  rw [hfailed, ← List.length_filter_eq_length_iff]
  omega

theorem Tree.readText_of_readBytes {t : Tree} {cwd : Place} {p : Path} {s : String}
    (h : t.readBytes cwd p = .ok (Text.bytesOf s)) : t.readText cwd p = .ok s := by
  rw [readText, h]
  simp only [bind, Except.bind, Text.ofBytes?_bytesOf]

namespace Setting

variable {σ : Type} {setting : Setting σ} {w : World σ}

theorem exists_world_of_mem_shown {fixtures : List Fixture} {seen : Fixture × FixtureRun}
    (h : seen ∈ setting.shown w fixtures) : seen.1 ∈ fixtures ∧
      ∃ w', seen.2 = (seen.1.run setting.host setting.config setting.invoker w').1 := by
  induction fixtures generalizing w with
  | nil => cases h
  | cons f rest ih =>
      rcases List.mem_cons.mp h with rfl | h
      · exact ⟨List.mem_cons_self, w, rfl⟩
      · obtain ⟨hmem, hrun⟩ := ih h
        exact ⟨List.mem_cons_of_mem _ hmem, hrun⟩

end Setting

namespace Catalog

-- What a log has to tell of a run that came to its end, for the run's name.
structure Logged {σ : Type} (catalog : Catalog) (setting : Setting σ) (chosen : List Category)
    (w : World σ) (suite runId : String) (r : CatalogRun) (book : Log.Book) : Prop where
  -- each line is accepted as the entry that it was written for
  lines : Text.lines book.text = book.entries.map Log.Entry.line
  accepted : ∀ k e, book.entries[k]? = some e → Log.checkLine e.line (k + 1) = .ok e
  counted : Log.checkText book.text = (2 + 2 * r.categories.length + r.summary.total, [])
  -- and so it is in each file that holds the log
  filed : ∀ (t : Tree) cwd path, t.readBytes cwd path = .ok (Text.bytesOf book.text) →
    (t.readText cwd path).map Log.checkText =
      .ok (2 + 2 * r.categories.length + r.summary.total, [])
  events : book.entries.map (fun e => (e.event, e.category)) =
    ("run_start", none) ::
      (r.categories.flatMap (fun c => ("category_start", some c.category) ::
        (List.replicate c.total ("fixture_verdict", some c.category) ++
          [("category_end", some c.category)])) ++
        [("run_end", none)])
  traceIds : book.entries.map Log.Entry.traceId = (List.range book.entries.length).map fun k =>
    suite ++ "::" ++ runId ++ "::" ++ Text.zeroPadded 3 (k + 1)
  -- the verdicts are told in their order, one on each line
  results : r.summary.results =
    (setting.shown w (catalog.selected chosen)).map setting.judge
  verdicts : List.Forall₂ (fun seen e => Log.Entry.TellsVerdict (setting.judge seen) seen.2 e)
    (setting.shown w (catalog.selected chosen))
    (book.entries.filter fun e => e.event = "fixture_verdict")
  ended : ∃ e, book.entries.getLast? = some e ∧ e.event = "run_end" ∧
    (e.outcome = some .pass ↔ ∀ v ∈ r.summary.results, v.passed = true) ∧
    (e.outcome = some .fail ↔ ∃ v ∈ r.summary.results, v.passed = false)

section Counts

variable {σ : Type} {catalog : Catalog} {chosen : List Category}

theorem length_entries_le {suite : Suite} (h : suite ∈ catalog.suites) :
    suite.entries.length ≤ (catalog.suites.flatMap Suite.entries).length := by
  obtain ⟨before, after, hsplit⟩ := List.append_of_mem h
  rw [hsplit, List.flatMap_append, List.flatMap_cons]
  simp only [List.length_append]
  omega

theorem mem_suites_of_mem_selectedSuites {suite : Suite}
    (h : suite ∈ catalog.selectedSuites chosen) : suite ∈ catalog.suites :=
  List.mem_of_find?_eq_some (suite?_of_mem_selectedSuites h)

-- No category is run twice, so no more is run than the catalog lists.
theorem length_selected_le (catalog : Catalog) (chosen : List Category) :
    (catalog.selected chosen).length ≤ (catalog.suites.flatMap Suite.entries).length := by
  obtain ⟨suites, hperm, hsub⟩ := List.subperm_of_subset
    (catalog.nodup_map_category_selectedSuites chosen).of_map
    fun suite h => mem_suites_of_mem_selectedSuites h
  have hfixtures : ∀ l : List Suite,
      (l.flatMap Suite.fixtures).length ≤ (l.flatMap Suite.entries).length := by
    intro l
    induction l with
    | nil => exact Nat.le_refl _
    | cons suite rest ih =>
        rw [List.flatMap_cons, List.flatMap_cons, List.length_append, List.length_append]
        have := suite.length_fixtures_add_disabledCount
        omega
  calc (catalog.selected chosen).length
      = (suites.flatMap Suite.fixtures).length := (hperm.flatMap_right _).length_eq.symm
    _ ≤ (suites.flatMap Suite.entries).length := hfixtures suites
    _ ≤ (catalog.suites.flatMap Suite.entries).length := (hsub.flatMap _).length_le

end Counts

section Story

variable {σ : Type} {setting : Setting σ} {w : World σ} {catalog : Catalog}
  {chosen : List Category}

theorem fair_of_mem_accounts {account : CategoryReport × List Verdict}
    (h : account ∈ setting.accounts w (catalog.selectedSuites chosen)) :
    Log.Fair (catalog.suites.flatMap Suite.entries).length account := by
  obtain ⟨suite, hsuite, w', hverdicts, hcounts⟩ := Setting.exists_of_mem_accounts h
  have htotal : account.1.total = account.2.length := by rw [hcounts]; rfl
  refine ⟨htotal, ?_, ?_, ?_⟩
  · intro v hv
    rw [hverdicts] at hv
    rw [hcounts]
    exact Setting.category_of_mem_verdicts hv
  · have hskipped : account.1.skipped = suite.disabledCount := by rw [hcounts]; rfl
    rw [htotal, hskipped, hverdicts, Setting.length_verdicts,
      suite.length_fixtures_add_disabledCount]
    exact length_entries_le (mem_suites_of_mem_selectedSuites hsuite)
  · rw [hcounts]
    exact CategoryReport.total_eq_passed_add_failed _ _ _

end Story

section Verdicts

variable {σ : Type} {setting : Setting σ} {w : World σ}

theorem elapsedMs_le {results : List Verdict} {v : Verdict} (h : v ∈ results) :
    v.elapsedMs ≤ (results.map Verdict.elapsedMs).sum := by
  obtain ⟨before, after, rfl⟩ := List.append_of_mem h
  simp only [List.map_append, List.map_cons, List.sum_append, List.sum_cons]
  omega

theorem isSound_of_mem_verdicts {fixtures : List Fixture} (hcodes : ExitsInRange setting.invoker)
    (htime : ((setting.verdicts w fixtures).map Verdict.elapsedMs).sum < Json.wordLimit)
    {v : Verdict} (h : v ∈ setting.verdicts w fixtures) : (Log.Entry.ofVerdict v).IsSound := by
  refine Log.Entry.isSound_ofVerdict ?_ (Nat.lt_of_le_of_lt (elapsedMs_le h) htime)
  obtain ⟨seen, hseen, rfl⟩ := List.mem_map.mp h
  obtain ⟨-, w', hrun⟩ := Setting.exists_world_of_mem_shown hseen
  have hcode := seen.1.codeOf_run setting.host setting.config w' hcodes
  rw [← hrun] at hcode
  exact hcode

theorem tellsVerdict_of_mem_shown {fixtures : List Fixture} {seen : Fixture × FixtureRun}
    (h : seen ∈ setting.shown w fixtures) (suite runId : String) (clock : Nat → String) (k : Nat) :
    ((Log.Entry.ofVerdict (setting.judge seen)).numbered suite runId clock k).TellsVerdict
      (setting.judge seen) seen.2 := by
  obtain ⟨-, w', hrun⟩ := Setting.exists_world_of_mem_shown h
  have hstage : Log.Entry.decidingStage seen.2.outcome =
      (seen.2.stages.getLast?.map StageRecord.stage).getD .compile := by
    rw [hrun]
    exact seen.1.decidingStage_run setting.host setting.config w'
  exact Log.Entry.tellsVerdict_ofVerdict hstage suite runId clock k

end Verdicts

section Entries

variable {σ : Type} {catalog : Catalog} {setting : Setting σ} {chosen : List Category}
  {w : World σ}

-- What a run has to log, before it is dated and named.
def entriesOf (catalog : Catalog) (setting : Setting σ) (chosen : List Category) (w : World σ) :
    List Log.Entry :=
  Log.story setting.config.mode (Category.selection chosen)
    (setting.accounts w (catalog.selectedSuites chosen))
    (.ofResults (setting.verdicts w (catalog.selected chosen)))

theorem filterMap_entry?_steps_eq_entriesOf :
    (catalog.steps setting chosen w).filterMap RunStep.entry? =
      catalog.entriesOf setting chosen w := by
  have hlength : (catalog.selected chosen).length =
      (Summary.ofResults (setting.verdicts w (catalog.selected chosen))).total :=
    (Setting.length_verdicts setting w (catalog.selected chosen)).symm
  rw [filterMap_entry?_steps, hlength]
  rfl

theorem flatMap_snd_accounts_selectedSuites :
    (setting.accounts w (catalog.selectedSuites chosen)).flatMap Prod.snd =
      setting.verdicts w (catalog.selected chosen) := by
  rw [Setting.flatMap_snd_accounts]
  rfl

theorem exists_book_of_run {reporter : Reporter} {suite runId : String} {r : CatalogRun}
    (hrun : (catalog.run setting chosen
      ⟨w, reporter, some (Log.Book.opened suite runId)⟩).1 = .ok r) :
    r.categories = (setting.accounts w (catalog.selectedSuites chosen)).map Prod.fst ∧
    r.summary = .ofResults (setting.verdicts w (catalog.selected chosen)) ∧
    ∃ book, (catalog.run setting chosen
        ⟨w, reporter, some (Log.Book.opened suite runId)⟩).2.log = some book ∧
      book.entries =
        Log.numberedAll suite runId setting.host.clock (catalog.entriesOf setting chosen w) := by
  obtain ⟨rfl, hcarried, -⟩ := run_eq_ok (Prod.ext hrun rfl)
  have hlog : (catalog.run setting chosen
      ⟨w, reporter, some (Log.Book.opened suite runId)⟩).2.log = some
        ((Log.Book.opened suite runId).addAll setting.host.clock
          (catalog.entriesOf setting chosen w)) := by
    refine hcarried.log.trans ?_
    rw [filterMap_entry?_steps_eq_entriesOf]
    rfl
  refine ⟨rfl, rfl, _, hlog, ?_⟩
  exact Log.Book.entries_opened_addAll suite runId _ fun e he => Log.isDraft_of_mem_story he

theorem isSound_of_mem_entriesOf (hcodes : ExitsInRange setting.invoker)
    (hfits : (catalog.suites.flatMap Suite.entries).length < Json.wordLimit)
    (htime : ((setting.verdicts w (catalog.selected chosen)).map Verdict.elapsedMs).sum <
      Json.wordLimit) :
    ∀ e ∈ catalog.entriesOf setting chosen w, e.IsSound := by
  intro e he
  refine Log.isSound_of_mem_story hfits (fun _ => fair_of_mem_accounts) ?_ ?_ htime ?_ he
  · have htotal : (Summary.ofResults (setting.verdicts w (catalog.selected chosen))).total =
        (catalog.selected chosen).length := Setting.length_verdicts _ _ _
    exact htotal ▸ length_selected_le catalog chosen
  · exact Nat.add_sub_of_le (List.length_filter_le _ _)
  · intro account haccount v hv
    apply isSound_of_mem_verdicts hcodes htime
    rw [← flatMap_snd_accounts_selectedSuites]
    exact List.mem_flatMap.mpr ⟨account, haccount, hv⟩

-- The verdicts are told in their order, one on each line.
theorem forall₂_tellsVerdict_entriesOf (suite runId : String) (clock : Nat → String) :
    List.Forall₂ (fun seen e => Log.Entry.TellsVerdict (setting.judge seen) seen.2 e)
      (setting.shown w (catalog.selected chosen))
      ((Log.numberedAll suite runId clock (catalog.entriesOf setting chosen w)).filter
        fun e => e.event = "fixture_verdict") := by
  have hfilter : List.Forall₂ (fun e e' => ∃ k, e' = e.numbered suite runId clock k)
      ((catalog.entriesOf setting chosen w).filter fun e => e.event = "fixture_verdict")
      ((Log.numberedAll suite runId clock (catalog.entriesOf setting chosen w)).filter
        fun e => e.event = "fixture_verdict") := by
    refine List.rel_filter ?_ (Log.forall₂_numberedAll suite runId clock _)
    rintro e _ ⟨k, rfl⟩
    rfl
  rw [entriesOf, Log.filter_story, flatMap_snd_accounts_selectedSuites, Setting.verdicts,
    List.forall₂_map_left_iff, List.forall₂_map_left_iff] at hfilter
  refine ((List.forall₂_and_left _ _).mpr ⟨fun seen h => h, hfilter⟩).imp ?_
  rintro seen _ ⟨hseen, k, rfl⟩
  exact tellsVerdict_of_mem_shown hseen suite runId clock k

theorem getLast?_entriesOf (suite runId : String) (clock : Nat → String) :
    ∃ e, (Log.numberedAll suite runId clock (catalog.entriesOf setting chosen w)).getLast? =
        some e ∧ e.event = "run_end" ∧
      (e.outcome = some .pass ↔
        ∀ v ∈ setting.verdicts w (catalog.selected chosen), v.passed = true) ∧
      (e.outcome = some .fail ↔
        ∃ v ∈ setting.verdicts w (catalog.selected chosen), v.passed = false) := by
  have hpassed := Summary.allPassed_ofResults_iff (setting.verdicts w (catalog.selected chosen))
  rw [entriesOf, Log.story, ← List.cons_append, Log.getLast?_numberedAll_concat]
  refine ⟨_, rfl, rfl, ?_, ?_⟩
  · rw [← hpassed]
    simp [Log.Entry.numbered, Log.Entry.runEnd]
  · rw [← not_iff_not]
    simp [Log.Entry.numbered, Log.Entry.runEnd, hpassed]

end Entries

-- The log of a run that comes to its end is valid and tells what the run brought, for all
-- names of the run, whatever the tools show, as long as its numbers fit their types.
theorem run_logged {σ : Type} (catalog : Catalog) (setting : Setting σ) (chosen : List Category)
    (w : World σ) (reporter : Reporter) (suite runId : String) (r : CatalogRun)
    (hcodes : ExitsInRange setting.invoker)
    (hfits : (catalog.suites.flatMap Suite.entries).length < Json.wordLimit)
    (hrun : (catalog.run setting chosen
      ⟨w, reporter, some (Log.Book.opened suite runId)⟩).1 = .ok r)
    (htime : (r.summary.results.map Verdict.elapsedMs).sum < Json.wordLimit) :
    ∃ book, (catalog.run setting chosen
        ⟨w, reporter, some (Log.Book.opened suite runId)⟩).2.log = some book ∧
      catalog.Logged setting chosen w suite runId r book := by
  obtain ⟨hcategories, hsummary, book, hlog, hentries⟩ := exists_book_of_run hrun
  have hresults : r.summary.results = setting.verdicts w (catalog.selected chosen) := by
    rw [hsummary]
    rfl
  rw [hresults] at htime
  have hexact : ∀ e ∈ book.entries, e.IsExact := by
    rw [hentries]
    exact fun e he =>
      Log.isExact_of_mem_numberedAll (isSound_of_mem_entriesOf hcodes hfits htime) he
  have hlength : book.entries.length = 2 + 2 * r.categories.length + r.summary.total := by
    rw [hentries, Log.numberedAll, List.length_mapIdx, entriesOf, Log.length_story,
      flatMap_snd_accounts_selectedSuites, hcategories, List.length_map, hsummary]
    rfl
  have hcounted : Log.checkText book.text =
      (2 + 2 * r.categories.length + r.summary.total, []) := by
    rw [Log.Book.text, Log.checkText_join_lineText hexact, hlength]
  have hlines := Log.lines_join_lineText fun e he => (hexact e he).fits
  refine ⟨book, hlog, hlines, ?_, hcounted, ?_, ?_, ?_, hresults, ?_, ?_⟩
  · intro k e he
    exact Log.Entry.checkLine_line (hexact e (List.mem_of_getElem? he)) (k + 1)
  · intro t cwd path hread
    rw [Tree.readText_of_readBytes hread, ← hcounted]
    rfl
  · rw [hentries, Log.map_numberedAll fun _ _ => rfl, entriesOf,
      Log.map_story fun _ => fair_of_mem_accounts, hcategories]
  · rw [hentries]
    exact Log.map_traceId_numberedAll _ _ _ _
  · rw [hentries]
    exact forall₂_tellsVerdict_entriesOf suite runId setting.host.clock
  · rw [hentries, hresults]
    exact getLast?_entriesOf suite runId setting.host.clock

-- Names that would break a line if they were not escaped.
def awkward : Catalog :=
  ⟨"1", [⟨.valid, "valid", [.bare "line\nbreak", .detailed "off" none true, .bare "\"quoted\""]⟩]⟩

-- The compiler returns a negative code for both fixtures, and all six lines are valid.
theorem run_logged_awkward_names :
    ∃ book, (awkward.run ⟨.plain, {}, answering fun _ => .exited (-1)⟩ []
        ⟨⟨Tree.empty, ()⟩, { console := .healthy }, some (Log.Book.opened "wacc" "r\n1")⟩).2.log =
        some book ∧
      Log.checkText book.text = (6, []) ∧
      book.entries.map Log.Entry.event = ["run_start", "category_start", "fixture_verdict",
        "fixture_verdict", "category_end", "run_end"] := by
  have hcodes : ExitsInRange (answering fun _ => .exited (-1)) := by
    rintro i w result code ⟨⟩ ⟨⟩
    decide
  have hcounts : (awkward.run ⟨.plain, {}, answering fun _ => .exited (-1)⟩ []
      ⟨⟨Tree.empty, ()⟩, { console := .healthy },
        some (Log.Book.opened "wacc" "r\n1")⟩).1.toOption.map (fun r =>
          (r.categories.map fun c => (c.category, c.total), r.summary.total,
            (r.summary.results.map Verdict.elapsedMs).sum)) =
      some ([(.valid, 2)], 2, 0) := by
    decide +kernel
  obtain ⟨r, hr, hcounted⟩ := Option.map_eq_some_iff.mp hcounts
  simp only [Prod.mk.injEq] at hcounted
  obtain ⟨hcategories, htotal, htime⟩ := hcounted
  obtain ⟨book, hbook, hlogged⟩ := run_logged awkward ⟨.plain, {}, answering fun _ => .exited (-1)⟩
    [] ⟨Tree.empty, ()⟩ { console := .healthy } "wacc" "r\n1" r hcodes (by decide +kernel)
    (Log.eq_ok_of_toOption hr) (by rw [htime]; decide)
  obtain ⟨c, hc⟩ : ∃ c, r.categories = [c] := by
    apply List.length_eq_one_iff.mp
    rw [← List.length_map, hcategories]
    rfl
  rw [hc, List.map_singleton, List.cons.injEq, Prod.mk.injEq] at hcategories
  refine ⟨book, hbook, ?_, ?_⟩
  · rw [hlogged.counted, hc, htotal]
    rfl
  · have hevents := congrArg (List.map Prod.fst) hlogged.events
    rw [List.map_map] at hevents
    rw [hc, List.flatMap_singleton, hcategories.1.2] at hevents
    exact hevents

end Catalog

end Conformance
