import Conformance.Proofs.CommandLine.Ending
import Conformance.Proofs.Fixture.Stages
import Conformance.Proofs.Log.BookEntries
import Conformance.Proofs.Log.Certified

namespace Conformance.CommandLine

open Log

-- What a run writes besides its index, as the index tells it.
def logOutputs (log : Option Path) : List (Path × String) :=
  log.toList.map fun path => (path, "log")

def reportOutputs : Option (Path × Path) → List (Path × String)
  | none => []
  | some (path, twin) => [(path, "report_markdown"), (twin, "report_json")]

def RunArguments.outputs (a : RunArguments) : List (Path × String) :=
  logOutputs a.log ++ reportOutputs a.reportPaths?

section Indexing

variable {σ : Type} {s s' : Terminal σ} {host : Host} {index index' : ArtifactIndex}

theorem withArtifact_eq_ok {path : Path} {kind : String}
    (h : (withArtifact host index path kind).run s = (.ok index', s')) :
    s' = s ∧ ∃ entries, Covers entries [(path, kind)] s.world.files host.cwd ∧
      index' = { index with artifacts := index.artifacts ++ entries } :=
  ⟨(consult_eq_ok h).2, ArtifactIndex.withFile_eq_ok_iff.mp (consult_eq_ok h).1⟩

theorem indexLog_eq_ok {log : Option Path}
    (h : (indexLog host index log).run s = (.ok index', s')) :
    s' = s ∧ ∃ entries, Covers entries (logOutputs log) s.world.files host.cwd ∧
      index' = { index with artifacts := index.artifacts ++ entries } := by
  cases log with
  | none =>
      cases h
      exact ⟨rfl, [], .nil _ _, by rw [List.append_nil]⟩
  | some path => exact withArtifact_eq_ok h

theorem writeReport_eq_ok {done : CatalogRun} {report : Option (Path × Path)}
    (h : (writeReport host done index report).run s = (.ok index', s')) :
    Tree.WritesOnly host.cwd ((reportOutputs report).map Prod.fst) s.world.files s'.world.files ∧
      ∃ entries, Covers entries (reportOutputs report) s'.world.files host.cwd ∧
        index' = { index with artifacts := index.artifacts ++ entries } := by
  cases report with
  | none =>
      cases h
      exact ⟨.refl _ _, [], .nil _ _, by rw [List.append_nil]⟩
  | some paths =>
      obtain ⟨path, twin⟩ := paths
      obtain ⟨_, s₁, hmarkdown, h⟩ := bind_eq_ok h
      obtain ⟨_, s₂, hjson, h⟩ := bind_eq_ok h
      obtain ⟨index₁, s₃, hfirst, h⟩ := bind_eq_ok h
      obtain ⟨index₂, s₄, hsecond, h⟩ := bind_eq_ok h
      obtain ⟨_, s₅, htold, h⟩ := bind_eq_ok h
      obtain ⟨_, hwrote⟩ := writeFile_eq_ok hmarkdown
      obtain ⟨_, hwrote'⟩ := writeFile_eq_ok hjson
      -- both are there before the first of them is indexed
      obtain ⟨rfl, entries, hcovers, rfl⟩ := withArtifact_eq_ok hfirst
      obtain ⟨rfl, more, hcovers', rfl⟩ := withArtifact_eq_ok hsecond
      cases h
      rw [(tellLine_eq_ok_iff.mp htold).2]
      exact ⟨hwrote.writesOnly.trans hwrote'.writesOnly, entries ++ more, hcovers.append hcovers',
        by rw [List.append_assoc]⟩

theorem writeIndex_eq_ok {path : Option Path}
    (h : (writeIndex host index path).run s = (.ok (), s')) :
    Tree.WritesOnly host.cwd path.toList s.world.files s'.world.files ∧
      ∀ p ∈ path, s'.world.files.Holds host.cwd p (Text.bytesOf index.toJson) := by
  cases path with
  | none =>
      cases h
      exact ⟨.refl _ _, nofun⟩
  | some p =>
      obtain ⟨_, hwrote⟩ := writeFile_eq_ok h
      refine ⟨hwrote.writesOnly, fun p' hp' => ?_⟩
      cases hp'
      exact hwrote.holds

end Indexing

section Outputs

variable {σ : Type} {station : Station σ} {a : RunArguments}

-- The outputs of a run come about in three steps. The log is indexed when it is complete,
-- the reports when both are there, and the index is written last.
structure Outputs (station : Station σ) (a : RunArguments) (index : ArtifactIndex)
    (logged reported final : Tree) : Prop where
  entries : ∃ entries more, index =
      { emptyIndex station a with artifacts := entries ++ more } ∧
    Covers entries (logOutputs a.log) logged station.host.cwd ∧
    Covers more (reportOutputs a.reportPaths?) reported station.host.cwd
  report : Tree.WritesOnly station.host.cwd ((reportOutputs a.reportPaths?).map Prod.fst)
    logged reported
  last : Tree.WritesOnly station.host.cwd a.artifactIndex.toList reported final
  holds : ∀ path ∈ a.artifactIndex,
    final.Holds station.host.cwd path (Text.bytesOf index.toJson)

theorem outputs_of_indexed {s s' : Terminal σ} {done : CatalogRun} {index : ArtifactIndex}
    (h : (indexed station a).run s = (.ok (done, index), s')) :
    ∃ plan s₁ s₂ reported, (prepare station a).run s = (.ok plan, s₁) ∧
      (plan.run station a).run s₁ = (.ok done, s₂) ∧
      Outputs station a index s₂.world.files reported s'.world.files := by
  obtain ⟨plan, s₁, hprepare, h⟩ := bind_eq_ok h
  obtain ⟨done', s₂, hrun, h⟩ := bind_eq_ok h
  obtain ⟨index₁, s₃, hlog, h⟩ := bind_eq_ok h
  obtain ⟨index₂, s₄, hreport, h⟩ := bind_eq_ok h
  obtain ⟨_, s₅, hindex, h⟩ := bind_eq_ok h
  cases h
  rw [report_of_prepare hprepare] at hreport
  obtain ⟨rfl, entries, hentries, rfl⟩ := indexLog_eq_ok hlog
  obtain ⟨hwrites, more, hmore, rfl⟩ := writeReport_eq_ok hreport
  obtain ⟨hlast, hholds⟩ := writeIndex_eq_ok hindex
  exact ⟨plan, s₁, s₃, s₄.world.files, hprepare, hrun, ⟨entries, more, rfl, hentries, hmore⟩,
    hwrites, hlast, hholds⟩

-- What a run writes when an output of some kind is in the index already.
def RunArguments.writtenAfter (a : RunArguments) (kind : String) : List Path :=
  (if kind = "log" then (reportOutputs a.reportPaths?).map Prod.fst else []) ++
    a.artifactIndex.toList

theorem kind_of_mem_logOutputs {log : Option Path} {output : Path × String}
    (h : output ∈ logOutputs log) : output.2 = "log" := by
  obtain ⟨path, -, rfl⟩ := List.mem_map.mp h
  rfl

theorem Outputs.certifies {index : ArtifactIndex} {logged reported final : Tree}
    (h : Outputs station a index logged reported final) {entry : Artifact}
    (hentry : entry ∈ index.artifacts)
    (hapart : ∀ later ∈ a.writtenAfter entry.kind,
      ¬final.SameFile station.host.cwd entry.path later) :
    entry.Certifies final station.host.cwd := by
  obtain ⟨entries, more, rfl, hlog, hreport⟩ := h.entries
  rcases List.mem_append.mp hentry with hentry | hentry
  · have hkind : entry.kind = "log" := kind_of_mem_logOutputs (hlog.mem_outputs hentry)
    rw [RunArguments.writtenAfter, if_pos hkind] at hapart
    exact (hlog.certified entry hentry).of_writesOnly (h.report.trans h.last) hapart
  · refine (hreport.certified entry hentry).of_writesOnly h.last fun later hlater => ?_
    exact hapart later (List.mem_append_right _ hlater)

-- A run that gets as far as its artifact index leaves an index of all its outputs, however it ends
-- then, and each entry tells the digest and the length of the file as it is in the end, as long as
-- nothing was written over it.
theorem run_indexed (station : Station σ) (a : RunArguments) (s s' : Terminal σ)
    (done : CatalogRun) (index : ArtifactIndex)
    (h : (indexed station a).run s = (.ok (done, index), s')) :
    (∀ path ∈ a.artifactIndex, ((run station a).run s).2.world.files.Holds station.host.cwd path
      (Text.bytesOf index.toJson)) ∧
    index.artifacts.map (fun entry => (entry.path, entry.kind)) = a.outputs ∧
    ∀ entry ∈ index.artifacts,
      (∀ later ∈ a.writtenAfter entry.kind,
        ¬((run station a).run s).2.world.files.SameFile station.host.cwd entry.path later) →
      entry.Certifies ((run station a).run s).2.world.files station.host.cwd := by
  obtain ⟨_, _, _, _, -, -, houtputs⟩ := outputs_of_indexed h
  rw [world_of_indexed station a h]
  refine ⟨houtputs.holds, ?_, fun entry hentry => houtputs.certifies hentry⟩
  obtain ⟨entries, more, rfl, hlog, hreport⟩ := houtputs.entries
  rw [List.map_append, hlog.outputs, hreport.outputs]
  rfl

end Outputs

-- A catalog of one fixture, in a directory that is empty but for it.
def catalogOnly : Tree :=
  ⟨[(["k.json"], .file (Text.bytesOf ("\x7b\"version\":\"v\",\"suites\":[" ++
    "\x7b\"category\":\"valid\",\"path_prefix\":\"valid/\",\"entries\":[\"x\"]\x7d]\x7d")) false)]⟩

def beforeRun : Terminal Unit :=
  { world := ⟨catalogOnly, ()⟩ }

-- Tools that all succeed.
def succeeding : Station Unit :=
  { host := .plain, invoker := answering fun _ => .exited 0, defaultRunId := "r" }

def separateOutputs : RunArguments :=
  { catalog := some "k.json", log := some "l.jsonl", report := some "r.md"
    artifactIndex := some "i.json", runId := some "yesterday" }

def sharedOutput : RunArguments :=
  { separateOutputs with log := some "r.md" }

theorem run_indexed_separate_outputs :
    reachesEnd ((run succeeding separateOutputs).run beforeRun).1 = true ∧
    ∃ index : ArtifactIndex,
      index.artifacts.map (fun entry => (entry.path, entry.kind)) =
        [("l.jsonl", "log"), ("r.md", "report_markdown"), ("r.json", "report_json")] ∧
      ∀ entry ∈ index.artifacts,
        entry.Certifies ((run succeeding separateOutputs).run beforeRun).2.world.files [] := by
  have hend : reachesEnd ((run succeeding separateOutputs).run beforeRun).1 = true := by
    decide +kernel
  have hapart : ∀ output ∈ separateOutputs.outputs,
      ∀ later ∈ separateOutputs.writtenAfter output.2,
        ¬((run succeeding separateOutputs).run beforeRun).2.world.files.SameFile []
          output.1 later := by
    decide +kernel
  obtain ⟨done, index, s', hindexed⟩ := exists_indexed_of_reachesEnd _ _ hend
  obtain ⟨-, houtputs, hcertifies⟩ :=
    run_indexed succeeding separateOutputs beforeRun s' done index hindexed
  refine ⟨hend, index, houtputs, fun entry hentry => hcertifies entry hentry ?_⟩
  refine hapart (entry.path, entry.kind) ?_
  rw [← houtputs]
  exact List.mem_map_of_mem hentry

-- One path for the log and the report, which nothing refuses. The index still has the
-- length of the log for what is the shorter report by then.
theorem index_tells_overwritten_log :
    reachesEnd ((run succeeding sharedOutput).run beforeRun).1 = true ∧
    ∃ index : ArtifactIndex,
      ((run succeeding sharedOutput).run beforeRun).2.world.files.readBytes [] "i.json" =
        .ok (Text.bytesOf index.toJson) ∧
      ∃ entry ∈ index.artifacts, entry.path = "r.md" ∧ entry.kind = "log" ∧
        ¬entry.Certifies ((run succeeding sharedOutput).run beforeRun).2.world.files [] := by
  have hfinal : reachesEnd ((run succeeding sharedOutput).run beforeRun).1 = true ∧
      (((run succeeding sharedOutput).run beforeRun).2.world.files.fileOf? [] "i.json").isSome =
        true ∧
      (((run succeeding sharedOutput).run beforeRun).2.world.files.readBytes []
        "r.md").toOption.map List.length = some 193 := by
    decide +kernel
  obtain ⟨hend, hfile, hreport⟩ := hfinal
  obtain ⟨done, index, s', hindexed⟩ := exists_indexed_of_reachesEnd _ _ hend
  have hworld := world_of_indexed succeeding sharedOutput hindexed
  obtain ⟨plan, s₁, s₂, reported, hprepare, hrun, houtputs⟩ := outputs_of_indexed hindexed
  obtain ⟨entries, more, rfl, hlog, -⟩ := houtputs.entries
  rw [hworld] at hfile hreport ⊢
  refine ⟨hend, _, (houtputs.holds "i.json" rfl).readBytes_eq hfile (by decide), ?_⟩
  -- the log is longer than the report, for one of its lines is
  have hbook : (((prepare succeeding sharedOutput).run beforeRun).1.toOption.any fun plan =>
      plan.log = some ["r.md"] &&
        ((plan.run succeeding sharedOutput).run
          ((prepare succeeding sharedOutput).run beforeRun).2).2.world.files.fileOf? [] "r.md" =
            some ["r.md"] &&
        (plan.ended succeeding sharedOutput
          ((prepare succeeding sharedOutput).run beforeRun).2).2.log.any fun book =>
            book.fault? = none &&
              book.entries.any fun e => 193 < e.toValue.compactChars.length) = true := by
    decide +kernel
  rw [hprepare] at hbook
  simp only [Except.toOption, Option.any_some, Bool.and_eq_true, decide_eq_true_eq,
    Option.any_eq_true, List.any_eq_true] at hbook
  obtain ⟨⟨hplan, hplace⟩, book, hbook, hsound, e, he, hlong⟩ := hbook
  rw [hrun] at hplace
  obtain ⟨rest, hread⟩ := readBytes_of_run_plan hrun hplan hbook hsound
    (List.ne_nil_of_mem he) hplace (by decide)
  have hentry : ("r.md", "log") ∈ entries.map fun entry => (entry.path, entry.kind) := by
    rw [hlog.outputs]
    exact List.mem_cons_self
  obtain ⟨entry, hmem, hnames⟩ := List.mem_map.mp hentry
  obtain ⟨hpath, hkind⟩ := Prod.mk.inj hnames
  refine ⟨entry, List.mem_append_left more hmem, hpath, hkind, ?_⟩
  obtain ⟨logged, hlogged, -, hsize⟩ := hlog.certified entry hmem
  rintro ⟨final, hfinal, -, hsize'⟩
  rw [hpath] at hlogged hfinal
  rw [hfinal] at hreport
  have hlogged' : logged = Text.bytesOf book.text ++ rest :=
    Except.ok.inj (hlogged.symm.trans hread)
  have hreport' : final.length = 193 := Option.some.inj hreport
  have hline := Book.length_compactChars_le he
  rw [hsize, hlogged', List.length_append] at hsize'
  omega

end Conformance.CommandLine
