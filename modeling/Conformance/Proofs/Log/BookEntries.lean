import Conformance.Proofs.Catalog.Account
import Conformance.Proofs.Log.Adding
import Conformance.Proofs.Log.EntryLines
import Conformance.Proofs.Text.Utf8
import Mathlib.Algebra.GroupWithZero.Nat
import Mathlib.Data.List.Forall2

namespace Conformance

namespace Text

theorem hasBlock_append [DecidableEq α] (before block after : List α) :
    hasBlock block (before ++ (block ++ after)) = true := by
  have hprefix : block.isPrefixOf (block ++ after) = true := by
    rw [List.isPrefixOf_iff_prefix]
    exact List.prefix_append block after
  induction before with
  | nil =>
      rw [List.nil_append]
      cases h : block ++ after with
      | nil => simp [hasBlock, (List.append_eq_nil_iff.mp h).1]
      | cons a rest => rw [hasBlock, ← h, hprefix, Bool.true_or]
  | cons a rest ih => rw [List.cons_append, hasBlock, ih, Bool.or_true]

theorem contains_append (before part after : String) :
    contains (before ++ part ++ after) part = true := by
  rw [contains, String.toList_append, String.toList_append, List.append_assoc]
  exact hasBlock_append _ _ _

end Text

namespace Log

open Json

namespace Entry

-- An entry that an emitter dates and names.
def IsDraft (e : Entry) : Prop :=
  e.traceId = "" ∧ e.runId = none

-- The entry with the number, counted from zero, that it has in the log of a run.
def numbered (suite runId : String) (clock : Nat → String) (k : Nat) (e : Entry) : Entry :=
  { e with
    timestamp := clock k
    traceId := suite ++ "::" ++ runId ++ "::" ++ Text.zeroPadded 3 (k + 1)
    runId := some runId }

theorem IsSound.isExact_numbered {e : Entry} (h : e.IsSound) (suite runId : String)
    (clock : Nat → String) (k : Nat) : (e.numbered suite runId clock k).IsExact where
  traceId := by
    have hid : (e.numbered suite runId clock k).traceId =
        suite ++ "::" ++ (runId ++ "::" ++ Text.zeroPadded 3 (k + 1)) := by
      simp only [numbered, String.append_assoc]
    rw [hid]
    exact Text.contains_append _ _ _
  verdict := h.verdict
  exitCode := h.exitCode
  durationMs := h.durationMs
  details := h.details

-- An object whose names stand in their order keeps it.
theorem normal_object {members : List (String × Value)} {names : List String}
    (hnames : members.map Prod.fst = names) (hordered : names.Pairwise (· < ·))
    (hvalues : ∀ member ∈ members, member.2.normal = member.2) :
    (Value.object members).normal = .object members := by
  have hsame : normalMembers members = members := by
    rw [normalMembers_eq_map]
    conv_rhs => rw [← List.map_id members]
    exact List.map_congr_left fun member hm => by rw [hvalues member hm]; rfl
  rw [Value.normal, hsame, sorted_eq_self]
  rw [← hnames, List.pairwise_map] at hordered
  exact hordered

theorem normalItems_categories (categories : List Category) :
    normalItems (categories.map Category.toValue) = categories.map Category.toValue := by
  induction categories with
  | nil => rfl
  | cons category rest ih => rw [List.map_cons, normalItems, ih]; rfl

theorem isExact_nat {levels n : Nat} (h : n < wordLimit) : (Value.nat n).IsExact levels :=
  .number ⟨by omega, Int.ofNat_lt.mpr h⟩

-- Details that are an object of exact values, with its names in their order.
theorem details_of_object {e : Entry} {members : List (String × Value)} (names : List String)
    (hdetails : e.details = some (.object members)) (hnames : members.map Prod.fst = names)
    (hordered : names.Pairwise (· < ·))
    (hvalues : ∀ member ∈ members, member.2.IsExact (maxLevels - 2) ∧
      member.2.normal = member.2) :
    ∀ v ∈ e.details, v.IsExact (maxLevels - 1) ∧ v.normal = v ∧ v ≠ .null := by
  rw [hdetails]
  rintro v ⟨⟩
  exact ⟨.object fun member hm => (hvalues member hm).1,
    normal_object hnames hordered fun member hm => (hvalues member hm).2, nofun⟩

-- An entry about no fixture, all details of which are counts but for those given apart.
theorem isSound_of_details {e : Entry} {members : List (String × Value)} (event : String)
    (names : List String) (hevent : e.event = event) (hne : event ≠ "fixture_verdict")
    (hcode : e.exitCode = none) (hduration : ∀ n ∈ e.durationMs, n < wordLimit)
    (hdetails : e.details = some (.object members)) (hnames : members.map Prod.fst = names)
    (hordered : names.Pairwise (· < ·))
    (hvalues : ∀ member ∈ members, member.2.IsExact (maxLevels - 2) ∧
      member.2.normal = member.2) : e.IsSound where
  verdict := fun h => absurd (hevent.symm.trans h) hne
  exitCode := by simp [hcode]
  durationMs := hduration
  details := details_of_object names hdetails hnames hordered hvalues

theorem isSound_runStart (mode : String) (categories : List Category) {fixtures : Nat}
    (h : fixtures < wordLimit) : (runStart mode categories fixtures).IsSound := by
  refine isSound_of_details "run_start" ["categories", "fixtures", "mode"] rfl (by decide) rfl
    nofun rfl rfl (by decide) ?_
  simp only [List.forall_mem_cons]
  refine ⟨⟨.array fun v hv => ?_, congrArg Value.array (normalItems_categories categories)⟩,
    ⟨isExact_nat h, rfl⟩, ⟨.string _, rfl⟩, by simp⟩
  obtain ⟨category, -, rfl⟩ := List.mem_map.mp hv
  exact .string _

theorem isSound_categoryStart (category : Category) {fixtures skipped : Nat}
    (hfixtures : fixtures < wordLimit) (hskipped : skipped < wordLimit) :
    (categoryStart category fixtures skipped).IsSound := by
  refine isSound_of_details "category_start" ["fixtures", "skipped"] rfl (by decide) rfl nofun
    rfl rfl (by decide) ?_
  simp only [List.forall_mem_cons]
  exact ⟨⟨isExact_nat hfixtures, rfl⟩, ⟨isExact_nat hskipped, rfl⟩, by simp⟩

theorem isSound_categoryEnd {r : CategoryReport} (hfailed : r.failed < wordLimit)
    (hpassed : r.passed < wordLimit) (hskipped : r.skipped < wordLimit)
    (htotal : r.total < wordLimit) : (categoryEnd r).IsSound := by
  refine isSound_of_details "category_end" ["failed", "passed", "skipped", "total"] rfl
    (by decide) rfl nofun rfl rfl (by decide) ?_
  simp only [List.forall_mem_cons]
  exact ⟨⟨isExact_nat hfailed, rfl⟩, ⟨isExact_nat hpassed, rfl⟩, ⟨isExact_nat hskipped, rfl⟩,
    ⟨isExact_nat htotal, rfl⟩, by simp⟩

theorem isSound_runEnd {s : Summary} (hfailed : s.failed < wordLimit)
    (hpassed : s.passed < wordLimit) (htotal : s.total < wordLimit)
    (hduration : (s.results.map Verdict.elapsedMs).sum < wordLimit) : (runEnd s).IsSound := by
  refine isSound_of_details "run_end" ["failed", "passed", "total"] rfl (by decide) rfl ?_ rfl rfl
    (by decide) ?_
  · rintro n ⟨⟩
    exact hduration
  · simp only [List.forall_mem_cons]
    exact ⟨⟨isExact_nat hfailed, rfl⟩, ⟨isExact_nat hpassed, rfl⟩, ⟨isExact_nat htotal, rfl⟩,
      by simp⟩

theorem isSound_ofVerdict {v : Verdict}
    (hcode : ∀ code ∈ codeOf v.outcome, -2147483648 ≤ code ∧ code ≤ 2147483647)
    (hduration : v.elapsedMs < wordLimit) : (ofVerdict v).IsSound where
  verdict := fun _ => ⟨rfl, rfl, rfl⟩
  exitCode := hcode
  durationMs := by
    rintro n ⟨⟩
    exact hduration
  details := by
    refine details_of_object ["expected", "observed"] rfl rfl (by decide) ?_
    simp only [List.forall_mem_cons]
    exact ⟨⟨.string _, rfl⟩, ⟨.string _, rfl⟩, by simp⟩

end Entry

-- Entries with their numbers.
def numberedAll (suite runId : String) (clock : Nat → String) (entries : List Entry) :
    List Entry :=
  entries.mapIdx fun k e => e.numbered suite runId clock k

section Numbered

variable {suite runId : String} {clock : Nat → String} {entries : List Entry}

theorem map_numberedAll {α : Type} {g : Entry → α}
    (h : ∀ k e, g (e.numbered suite runId clock k) = g e) :
    (numberedAll suite runId clock entries).map g = entries.map g := by
  rw [numberedAll, List.mapIdx_eq_zipIdx_map, List.map_map]
  conv_rhs => rw [← List.zipIdx_map_fst 0 entries, List.map_map]
  exact List.map_congr_left fun p _ => h p.2 p.1

theorem forall₂_numberedAll (suite runId : String) (clock : Nat → String) (entries : List Entry) :
    List.Forall₂ (fun e e' => ∃ k, e' = e.numbered suite runId clock k) entries
      (numberedAll suite runId clock entries) := by
  rw [List.forall₂_iff_get]
  refine ⟨by simp [numberedAll], fun k hk hk' => ⟨k, ?_⟩⟩
  simp [numberedAll]

theorem isExact_of_mem_numberedAll (h : ∀ e ∈ entries, e.IsSound) {e' : Entry}
    (hm : e' ∈ numberedAll suite runId clock entries) : e'.IsExact := by
  obtain ⟨k, hk, rfl⟩ := List.mem_mapIdx.mp hm
  exact (h _ (List.getElem_mem hk)).isExact_numbered suite runId clock k

theorem getLast?_numberedAll_concat (suite runId : String) (clock : Nat → String)
    (entries : List Entry) (e : Entry) :
    (numberedAll suite runId clock (entries ++ [e])).getLast? =
      some (e.numbered suite runId clock entries.length) := by
  rw [numberedAll, List.mapIdx_concat, List.getLast?_concat]

theorem map_traceId_numberedAll (suite runId : String) (clock : Nat → String)
    (entries : List Entry) :
    (numberedAll suite runId clock entries).map Entry.traceId =
      (List.range (numberedAll suite runId clock entries).length).map fun k =>
        suite ++ "::" ++ runId ++ "::" ++ Text.zeroPadded 3 (k + 1) := by
  apply List.ext_getElem
  · simp
  · intro k hk hk'
    simp [numberedAll, Entry.numbered]

end Numbered

namespace Book

-- Drafts that are added to a log get their numbers from its length.
theorem entries_addAll {b : Book} {clock : Nat → String} {entries : List Entry}
    (hnamed : b.emitter.named = b.entries.length) (h : ∀ e ∈ entries, e.IsDraft) :
    (b.addAll clock entries).entries = b.entries ++ entries.mapIdx fun k e =>
      e.numbered b.emitter.suite b.emitter.runId clock (b.entries.length + k) := by
  induction entries generalizing b with
  | nil => simp [addAll]
  | cons e rest ih =>
      obtain ⟨htrace, hrun⟩ := h e List.mem_cons_self
      have hadd : b.add clock e = { b with
            emitter := { b.emitter with named := b.emitter.named + 1 }
            entries := b.entries ++
              [e.numbered b.emitter.suite b.emitter.runId clock b.entries.length] } := by
        simp [add, put, Emitter.complete, htrace, hrun, Entry.numbered, Emitter.traceId, hnamed]
      have hstep : b.addAll clock (e :: rest) = (b.add clock e).addAll clock rest := rfl
      rw [hstep, ih _ fun other hm => h other (List.mem_cons_of_mem _ hm), hadd]
      · simp [List.mapIdx_cons, Nat.add_assoc, Nat.add_comm 1]
      · simp [hadd, hnamed]

theorem entries_opened_addAll (suite runId : String) (clock : Nat → String) {entries : List Entry}
    (h : ∀ e ∈ entries, e.IsDraft) :
    ((opened suite runId).addAll clock entries).entries =
      numberedAll suite runId clock entries := by
  rw [entries_addAll rfl h]
  simp [opened, numberedAll]

-- No line is longer than the whole text.
theorem length_compactChars_le {b : Book} {e : Entry} (h : e ∈ b.entries) :
    e.toValue.compactChars.length ≤ (Text.bytesOf b.text).length := by
  have hline : e.toValue.compactChars.Sublist (Emitter.lineText e).toList := by
    rw [Emitter.lineText, Entry.line, Value.compact, String.toList_append,
      String.toList_ofList]
    exact List.sublist_append_left _ _
  have htext : (Emitter.lineText e).toList.Sublist b.text.toList := by
    rw [Book.text, String.toList_join, List.flatMap_map]
    exact List.sublist_flatten_of_mem (List.mem_map_of_mem h)
  exact Nat.le_trans (hline.trans htext).length_le (Text.length_toList_le b.text)

theorem bytesOf_text_ne_nil {b : Book} (h : b.entries ≠ []) : Text.bytesOf b.text ≠ [] := by
  intro hnil
  obtain ⟨e, he⟩ := List.exists_mem_of_ne_nil _ h
  have hle := length_compactChars_le he
  rw [hnil] at hle
  have hchars : e.toValue.compactChars = [] := List.eq_nil_of_length_eq_zero (Nat.le_zero.mp hle)
  exact e.line_ne_empty (by rw [Entry.line, Value.compact, hchars])

end Book

end Log

end Conformance
