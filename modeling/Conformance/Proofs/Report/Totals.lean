import Conformance.Proofs.Json.RoundTrip
import Conformance.Report

namespace Conformance

open Json

namespace Report

-- Counts as they stand in the Markdown form of a report.
def markdownTotals (total passed failed : Nat) : String :=
  "- Total: " ++ toString total ++ "\n- Passed: " ++ toString passed ++ "\n- Failed: " ++
    toString failed ++ "\n"

-- The same in its JSON form, as members of a summary that goes on behind them.
def jsonTotals (total passed failed : Nat) : List Char :=
  stringChars "summary" ++ [':', ' ', '\x7b'] ++
    [("total", total), ("passed", passed), ("failed", failed)].flatMap fun count =>
      freshLine 2 ++ stringChars count.1 ++ [':', ' '] ++ (toString count.2).toList ++ [',']

-- How many verdicts there are, and how many of them passed and failed, stands in both forms
-- of a report.
structure TellsTotals (r : Report) (verdicts : List Verdict) : Prop where
  markdown : (markdownTotals verdicts.length (verdicts.countP Verdict.passed)
    (verdicts.countP fun v => !v.passed)).toList <:+: r.markdown.toList
  json : jsonTotals verdicts.length (verdicts.countP Verdict.passed)
    (verdicts.countP fun v => !v.passed) <:+: r.toJson.toList

theorem infix_markdown (r : Report) :
    (markdownTotals r.summary.total r.summary.passed r.summary.failed).toList <:+:
      r.markdown.toList := by
  have hpieces : r.markdownPieces = r.heading.take 3 ++ r.heading.drop 3 ++
      r.markdownPieces.drop 6 := rfl
  have htotals : (r.heading.drop 3).flatMap String.toList =
      (markdownTotals r.summary.total r.summary.passed r.summary.failed).toList ++ ['\n'] := by
    simp [heading, markdownTotals]
  rw [markdown, hpieces, String.toList_join, List.flatMap_append, List.flatMap_append, htotals]
  exact (List.prefix_append _ ['\n']).isInfix.trans (List.infix_append _ _ _)

theorem infix_toJson (r : Report) :
    jsonTotals r.summary.total r.summary.passed r.summary.failed <:+: r.toJson.toList := by
  have hcounts : jsonTotals r.summary.total r.summary.passed r.summary.failed <+:
      stringChars "summary" ++ ':' :: ([' '] ++ r.summary.toValue.prettyChars 1) := by
    rw [Summary.toValue]
    -- what the results look like does not matter
    generalize Value.array (r.summary.results.map Verdict.toValue) = results
    have hnat (n : Nat) : (Value.nat n).prettyChars 2 = (toString n).toList := rfl
    refine ⟨freshLine 2 ++ (stringChars "results" ++ ':' :: ' ' :: results.prettyChars 2) ++
      freshLine 1 ++ ['\x7d'], ?_⟩
    simp [jsonTotals, Value.prettyChars, prettyMembers, hnat]
  have hsummary : stringChars "summary" ++ ':' :: ([' '] ++ r.summary.toValue.prettyChars 1) <:+:
      r.toValue.prettyChars 0 :=
    infix_prettyChars_object (m := ("summary", r.summary.toValue)) (by simp) 0
  rw [toJson, Value.pretty, String.toList_ofList]
  exact hcounts.isInfix.trans hsummary

example : jsonTotals 3 2 1 = ("\"summary\": \x7b\n    \"total\": 3,\n" ++
    "    \"passed\": 2,\n    \"failed\": 1,").toList := by
  decide +kernel

theorem tellsTotals {r : Report} {verdicts : List Verdict}
    (h : r.summary = .ofResults verdicts) : r.TellsTotals verdicts := by
  have htotal : r.summary.total = verdicts.length := congrArg Summary.total h
  have hpassed : r.summary.passed = verdicts.countP Verdict.passed :=
    (congrArg Summary.passed h).trans List.countP_eq_length_filter.symm
  have hfailed : r.summary.failed = verdicts.countP fun v => !v.passed := by
    have hall := List.length_eq_countP_add_countP Verdict.passed (l := verdicts)
    have hrest : r.summary.failed = verdicts.length - verdicts.countP Verdict.passed := by
      rw [h, List.countP_eq_length_filter]
      rfl
    simp only [Bool.not_eq_true, Bool.decide_eq_false] at hall
    omega
  have hmarkdown := r.infix_markdown
  have hjson := r.infix_toJson
  rw [htotal, hpassed, hfailed] at hmarkdown hjson
  exact ⟨hmarkdown, hjson⟩

end Report

end Conformance
