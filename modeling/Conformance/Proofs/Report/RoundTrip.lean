import Conformance.Proofs.Catalog.RoundTrip
import Conformance.Report

namespace Conformance

open Json

variable {levels : Nat}

theorem Stage.recovers (s : Stage) : decoder.Recovers levels s.toValue s :=
  Decoder.recovers_variant (by cases s <;> rfl)

-- A status whose numbers fit the fields that hold them.
def Status.Fits : Status → Prop
  | exited code => IsInt32 code
  | signaled signal => ∀ code ∈ signal, IsInt32 code
  | outputLimitExceeded limit => limit < wordLimit
  | _ => True

theorem Status.recovers {s : Status} (h : s.Fits) :
    decoder.Recovers (levels + 1) s.toValue s := by
  cases s with
  | exited code =>
      exact Decoder.recovers_tagged_field rfl (by decide)
        ⟨_, rfl, (Decoder.recovers_int32 h).map _⟩ rfl rfl
  | signaled signal =>
      cases signal with
      | none =>
          exact Decoder.recovers_tagged_field rfl (by decide)
            ⟨_, rfl, (Decoder.recovers_option_none _).map _⟩ rfl rfl
      | some code =>
          exact Decoder.recovers_tagged_field rfl (by decide)
            ⟨_, rfl, ((Decoder.recovers_int32 (h code rfl)).option Value.noConfusion).map _⟩ rfl rfl
  | timedOut => exact Decoder.recovers_tagged_bare rfl
  | launchFailed reason =>
      exact Decoder.recovers_tagged_field rfl (by decide)
        ⟨_, rfl, (Decoder.recovers_stringNamed _ reason).map _⟩ rfl rfl
  | outputLimitExceeded limit =>
      exact Decoder.recovers_tagged_field rfl (by decide)
        ⟨_, rfl, (Decoder.recovers_natBelow _ (Nat.le_refl _) h).map _⟩ rfl rfl

theorem Diagnostics.recovers (d : Diagnostics) :
    layout.decode.Recovers (levels + 1) d.toValue d :=
  Layout.recovers _
    (.cons ⟨_, rfl, (Decoder.recovers_stringNamed _ d.stdout).map _⟩ <|
      .cons ⟨_, rfl, (Decoder.recovers_stringNamed _ d.stderr).map _⟩ .nil)
    (by simp) rfl (by simp [Layout.Commuting]) rfl

structure StageRecord.Fits (r : StageRecord) : Prop where
  status : r.status.Fits
  elapsedMs : r.elapsedMs < wordLimit

theorem StageRecord.recovers {r : StageRecord} (h : r.Fits) :
    layout.decode.Recovers (levels + 2) r.toValue r := by
  obtain ⟨stage, command, status, elapsedMs, diagnostics⟩ := r
  have hfirst : List.Forall₂ (layout.Restores (levels + 1))
      [("stage", stage.toValue), ("command", .string command), ("status", status.toValue),
        ("elapsed_ms", .nat elapsedMs)] _ :=
    .cons ⟨_, rfl, (Stage.recovers stage).map _⟩ <|
      .cons ⟨_, rfl, (Decoder.recovers_stringNamed _ command).map _⟩ <|
      .cons ⟨_, rfl, (Status.recovers h.status).map _⟩ <|
      .cons ⟨_, rfl, (Decoder.recovers_natBelow _ (Nat.le_refl _) h.elapsedMs).map _⟩ .nil
  cases diagnostics with
  | none =>
      exact Layout.recovers _ hfirst (by simp) rfl
        (by simp [Layout.Commuting]) rfl
  | some d =>
      exact Layout.recovers _
        (List.rel_append hfirst
          (.cons ⟨_, rfl, ((Diagnostics.recovers d).option Value.noConfusion).map _⟩ .nil))
        (by simp) rfl (by simp [Layout.Commuting]) rfl

def Outcome.Fits : Outcome → Prop
  | rejectedAs code => IsInt32 code
  | exited code => code < 256
  | _ => True

theorem Outcome.recovers {o : Outcome} (h : o.Fits) :
    decoder.Recovers (levels + 1) o.toValue o := by
  cases o with
  | accepted => exact Decoder.recovers_tagged_bare rfl
  | rejectedAs code =>
      exact Decoder.recovers_tagged_field rfl (by decide)
        ⟨_, rfl, (Decoder.recovers_int32 h).map _⟩ rfl rfl
  | exited code =>
      exact Decoder.recovers_tagged_field rfl (by decide)
        ⟨_, rfl, (Decoder.recovers_natBelow _ (by decide) h).map _⟩ rfl rfl
  | timedOut stage =>
      exact Decoder.recovers_tagged_field rfl (by decide)
        ⟨_, rfl, (Stage.recovers stage).map _⟩ rfl rfl
  | crashed stage detail =>
      refine Decoder.recovers_tagged_fields rfl (by simp) (Layout.recovers _
        (.cons ⟨_, rfl, (Stage.recovers stage).map _⟩ <|
          .cons ⟨_, rfl, (Decoder.recovers_stringNamed _ detail).map _⟩ .nil)
        (by simp) rfl ?_ rfl)
      refine List.pairwise_pair.mpr fun o => ?_
      cases o <;> rfl

structure Verdict.Fits (v : Verdict) : Prop where
  outcome : v.outcome.Fits
  elapsedMs : v.elapsedMs < wordLimit
  stages : ∀ r ∈ v.stages, r.Fits

theorem Verdict.recovers {v : Verdict} (h : v.Fits) :
    layout.decode.Recovers (levels + 4) v.toValue v := by
  obtain ⟨fixtureId, category, passed, expected, outcome, elapsedMs, stages⟩ := v
  have hfirst : List.Forall₂ (layout.Restores (levels + 3))
      [("fixture_id", .string fixtureId), ("category", category.toValue),
        ("passed", .bool passed), ("expected", .string expected), ("outcome", outcome.toValue),
        ("elapsed_ms", .nat elapsedMs)] _ :=
    .cons ⟨_, rfl, (Decoder.recovers_stringNamed _ fixtureId).map _⟩ <|
      .cons ⟨_, rfl, (Category.recovers category).map _⟩ <|
      .cons ⟨_, rfl, (Decoder.recovers_bool passed).map _⟩ <|
      .cons ⟨_, rfl, (Decoder.recovers_stringNamed _ expected).map _⟩ <|
      .cons ⟨_, rfl, (Outcome.recovers h.outcome).map _⟩ <|
      .cons ⟨_, rfl, (Decoder.recovers_natBelow _ (Nat.le_refl _) h.elapsedMs).map _⟩ .nil
  cases stages with
  | nil =>
      exact Layout.recovers _ hfirst (by simp) rfl
        (by simp [Layout.Commuting]) rfl
  | cons first more =>
      have hstages : (Decoder.list StageRecord.layout.decode).Recovers (levels + 3) _ _ :=
        Decoder.recovers_list fun r hr => StageRecord.recovers (h.stages r hr)
      exact Layout.recovers _ (List.rel_append hfirst (.cons ⟨_, rfl, hstages.map _⟩ .nil))
        (by simp) rfl (by simp [Layout.Commuting]) rfl

structure Summary.Fits (s : Summary) : Prop where
  total : s.total < wordLimit
  passed : s.passed < wordLimit
  failed : s.failed < wordLimit
  results : ∀ v ∈ s.results, v.Fits

theorem Summary.recovers {s : Summary} (h : s.Fits) :
    layout.decode.Recovers (levels + 6) s.toValue s :=
  Layout.recovers _
    (.cons ⟨_, rfl, (Decoder.recovers_natBelow _ (Nat.le_refl _) h.total).map _⟩ <|
      .cons ⟨_, rfl, (Decoder.recovers_natBelow _ (Nat.le_refl _) h.passed).map _⟩ <|
      .cons ⟨_, rfl, (Decoder.recovers_natBelow _ (Nat.le_refl _) h.failed).map _⟩ <|
      .cons ⟨_, rfl,
        (Decoder.recovers_list fun v hv => Verdict.recovers (h.results v hv)).map _⟩ .nil)
    (by simp) rfl (by simp [Layout.Commuting]) rfl

structure CategoryReport.Fits (r : CategoryReport) : Prop where
  total : r.total < wordLimit
  passed : r.passed < wordLimit
  skipped : r.skipped < wordLimit

theorem CategoryReport.recovers {r : CategoryReport} (h : r.Fits) :
    layout.decode.Recovers (levels + 2) r.toValue r :=
  Layout.recovers _
    (.cons ⟨_, rfl, (Category.recovers r.category).map _⟩ <|
      .cons ⟨_, rfl, (Decoder.recovers_natBelow _ (Nat.le_refl _) h.total).map _⟩ <|
      .cons ⟨_, rfl, (Decoder.recovers_natBelow _ (Nat.le_refl _) h.passed).map _⟩ <|
      .cons ⟨_, rfl, (Decoder.recovers_natBelow _ (Nat.le_refl _) h.skipped).map _⟩ <|
      .cons ⟨_, rfl, (Decoder.recovers_strings r.failing).map _⟩ .nil)
    (by simp) rfl (by simp [Layout.Commuting]) rfl

namespace Report

structure Fits (r : Report) : Prop where
  categories : ∀ c ∈ r.categories, c.Fits
  summary : r.summary.Fits

theorem recovers {r : Report} (h : r.Fits) : layout.decode.Recovers (levels + 7) r.toValue r :=
  Layout.recovers _
    (.cons ⟨_, rfl, (Decoder.recovers_stringNamed _ r.title).map _⟩ <|
      .cons ⟨_, rfl, (Decoder.recovers_stringNamed _ r.mode).map _⟩ <|
      .cons ⟨_, rfl, (Decoder.recovers_stringNamed _ r.timestamp).map _⟩ <|
      .cons ⟨_, rfl,
        (Decoder.recovers_list fun c hc => CategoryReport.recovers (h.categories c hc)).map _⟩ <|
      .cons ⟨_, rfl, (Summary.recovers h.summary).map _⟩ .nil)
    (by simp) rfl (by simp [Layout.Commuting]) rfl

-- What stands in the place of a report that cannot be written.
def errorText (message : String) : String :=
  "\x7b\"error\": \"" ++ message ++ "\"\x7d"

theorem toJson_ne_errorText (r : Report) (message : String) : r.toJson ≠ errorText message := by
  -- a report takes a line for each member, and so it has a line end behind its first brace
  have hreport : r.toJson.toList[1]? = some '\n' := by
    rw [toJson, Value.pretty, String.toList_ofList]
    rfl
  have herror : (errorText message).toList[1]? = some '"' := by
    rw [errorText, String.toList_append, String.toList_append]
    rfl
  intro h
  rw [h, herror] at hreport
  cases hreport

-- A report is always written, and it is read again from what is written and from every text
-- of the same members in other orders.
theorem toJson_roundTrip {r : Report} (h : r.Fits) :
    (∀ message, r.toJson ≠ errorText message) ∧ decodeText layout.decode r.toJson = .ok r ∧
      ∀ v text, Reordered r.toValue v → v.SpelledBy text →
        decodeText layout.decode text = .ok r := by
  have hrecovers : layout.decode.Recovers (120 + 7) r.toValue r := recovers h
  exact ⟨toJson_ne_errorText r, hrecovers.decodeText_pretty,
    fun _ _ hv htext => hrecovers.decodeText_eq_ok hv htext⟩

-- A program that was lost: its crash and its status are tagged, and it has captured text.
def lostProgram : Report :=
  ⟨"Nightly \"run\"", "full", "2024-03-01T00:00:00Z", [⟨.valid, 1, 0, 2, ["a"]⟩],
    ⟨1, 0, 1, [⟨"a", .valid, false, "exit 0", .crashed .emulate "killed", 7,
      [⟨.emulate, "qemu-arm", .signaled none, 5, some ⟨"\x00é", ""⟩⟩]⟩]⟩⟩

theorem fits_lostProgram : lostProgram.Fits where
  categories := List.forall_mem_singleton.mpr ⟨by decide, by decide, by decide⟩
  summary :=
    { total := by decide
      passed := by decide
      failed := by decide
      results := List.forall_mem_singleton.mpr
        { outcome := trivial
          elapsedMs := by decide
          stages := List.forall_mem_singleton.mpr ⟨nofun, by decide⟩ } }

-- In the other text each tag comes last.
theorem toJson_roundTrip_lostProgram : lostProgram.Fits ∧
    (∀ message, lostProgram.toJson ≠ errorText message) ∧
    decodeText layout.decode lostProgram.toJson = .ok lostProgram ∧
    Reordered lostProgram.toValue lostProgram.toValue.mirrored ∧
    decodeText layout.decode lostProgram.toValue.mirrored.pretty = .ok lostProgram := by
  obtain ⟨hwritten, hown, hread⟩ := toJson_roundTrip fits_lostProgram
  have hmirrored := reordered_mirrored lostProgram.toValue
  have hrecovers : layout.decode.Recovers 7 lostProgram.toValue lostProgram :=
    recovers fits_lostProgram
  exact ⟨fits_lostProgram, hwritten, hown, hmirrored,
    hread _ _ hmirrored (spelledBy_pretty (hmirrored.isExact hrecovers.isExact))⟩

end Report

end Conformance
