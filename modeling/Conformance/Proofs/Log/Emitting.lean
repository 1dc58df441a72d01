import Conformance.Log.Book
import Conformance.Proofs.Log.EntryLines
import Conformance.Proofs.Text.Decimals
import Mathlib.Data.List.Nodup
import Mathlib.Data.List.ReduceOption

namespace Conformance

namespace Text

theorem ofDigitChars_zeros (k : Nat) : Nat.ofDigitChars 10 (List.replicate k '0') 0 = 0 := by
  induction k with
  | zero => rfl
  | succ k ih => exact ih

-- A number can be told from its digits whatever they are padded to.
theorem ofDigitChars_zeroPadded (width n : Nat) :
    Nat.ofDigitChars 10 (zeroPadded width n).toList 0 = n := by
  rw [toList_zeroPadded, Nat.ofDigitChars_append, ofDigitChars_zeros,
    Nat.ofDigitChars_ten_toDigits]

theorem zeroPadded_injective (width : Nat) : Function.Injective (zeroPadded width) := by
  intro m n h
  rw [← ofDigitChars_zeroPadded width m, h, ofDigitChars_zeroPadded]

end Text

namespace Log

open Json

-- The entry as an emitter gives it back: a name and a run of its own are kept.
def Entry.named (runId traceId : String) (e : Entry) : Entry :=
  { e with
    traceId := if e.traceId = "" then traceId else e.traceId
    runId := some (e.runId.getD runId) }

theorem Entry.Fits.named {e : Entry} (h : e.Fits) (runId traceId : String) :
    (e.named runId traceId).Fits where
  exitCode := h.exitCode
  durationMs := h.durationMs
  details := h.details

namespace Emitter

theorem complete_eq (emitter : Emitter) (e : Entry) :
    emitter.complete e = (e.named emitter.runId (emitter.traceId (emitter.named + 1)),
      { emitter with named := emitter.named + if e.traceId = "" then 1 else 0 }) := by
  unfold complete Entry.named
  by_cases h : e.traceId = ""
  · simp only [h, if_true]
  · simp only [h, if_false, Nat.add_zero]

theorem traceId_injective (emitter : Emitter) : Function.Injective emitter.traceId := by
  intro m n h
  exact Text.zeroPadded_injective 3 ((String.append_right_inj _).mp h)

end Emitter

namespace Request

-- What a request brings can be written without loss.
def Fits : Request → Prop
  | entry e => e.Fits
  | _ => True

-- The request brings an entry without a name.
def isUnnamed : Request → Bool
  | event _ _ => true
  | entry e => e.traceId = ""
  | flush => false

-- The answer is what the request brought, with the names that it lacked. A request that
-- brings nothing gets nothing.
def IsAnswered (clock : Nat → String) (runId : String) (r : Request) (answer : Option Entry) :
    Prop :=
  ∃ k traceId, answer = (r.entry? (clock k)).map (Entry.named runId traceId)

-- The names that were made for entries without one.
def generated (requests : List Request) (answers : List (Option Entry)) : List String :=
  (requests.zip answers).filterMap fun served =>
    if served.1.isUnnamed then served.2.map Entry.traceId else none

theorem Fits.entry? {r : Request} (h : r.Fits) {now : String} {e : Entry}
    (he : r.entry? now = some e) : e.Fits := by
  cases r with
  | event level name =>
      cases he
      exact ⟨nofun, nofun, nofun⟩
  | entry given =>
      cases he
      exact h
  | flush => cases he

theorem Fits.of_isAnswered {r : Request} (h : r.Fits) {clock : Nat → String} {runId : String}
    {e : Entry} (he : r.IsAnswered clock runId (some e)) : e.Fits := by
  obtain ⟨k, traceId, hanswer⟩ := he
  obtain ⟨given, hgiven, rfl⟩ := Option.map_eq_some_iff.mp hanswer.symm
  exact (h.entry? hgiven).named runId traceId

end Request

namespace Book

variable (clock : Nat → String) (b : Book) (r : Request) (requests : List Request)

-- One request: its answer is what comes into the log, and the next name is used up only by
-- an entry that has none.
theorem serve_cases :
    (r.entry? (clock b.entries.length) = none ∧ b.serve clock r = (none, b)) ∨
      ∃ e e', r.entry? (clock b.entries.length) = some e ∧
        e' = e.named b.emitter.runId (b.emitter.traceId (b.emitter.named + 1)) ∧
        b.serve clock r = (some e', { b with
          emitter := { b.emitter with
            named := b.emitter.named + if e.traceId = "" then 1 else 0 }
          entries := b.entries ++ [e'] }) := by
  unfold serve
  cases h : r.entry? (clock b.entries.length) with
  | none => exact .inl ⟨rfl, rfl⟩
  | some e =>
      refine .inr ⟨e, _, rfl, rfl, ?_⟩
      simp only [put, Emitter.complete_eq]

theorem serveAll_cons : b.serveAll clock (r :: requests) =
    ((b.serve clock r).1 :: ((b.serve clock r).2.serveAll clock requests).1,
      ((b.serve clock r).2.serveAll clock requests).2) :=
  rfl

theorem runId_serve : (b.serve clock r).2.emitter.runId = b.emitter.runId := by
  rcases serve_cases clock b r with ⟨-, h⟩ | ⟨e, e', -, -, h⟩ <;> rw [h]

theorem traceId_serve (n : Nat) :
    (b.serve clock r).2.emitter.traceId n = b.emitter.traceId n := by
  rcases serve_cases clock b r with ⟨-, h⟩ | ⟨e, e', -, -, h⟩ <;> rw [h]
  rfl

-- The log grows by what is given back, and by nothing else.
theorem entries_serveAll : (b.serveAll clock requests).2.entries =
    b.entries ++ (b.serveAll clock requests).1.reduceOption := by
  induction requests generalizing b with
  | nil => exact (List.append_nil _).symm
  | cons r rest ih =>
      rw [serveAll_cons, ih]
      rcases serve_cases clock b r with ⟨-, h⟩ | ⟨e, e', -, -, h⟩
      · rw [h, List.reduceOption_cons_of_none]
      · rw [h, List.reduceOption_cons_of_some, List.append_assoc, List.singleton_append]

theorem isAnswered_serve : r.IsAnswered clock b.emitter.runId (b.serve clock r).1 := by
  rcases serve_cases clock b r with ⟨hnone, h⟩ | ⟨e, _, hentry, rfl, h⟩
  · exact ⟨_, "", by rw [h, hnone]; rfl⟩
  · exact ⟨_, _, by rw [h, hentry]; rfl⟩

theorem forall₂_serveAll : List.Forall₂ (Request.IsAnswered clock b.emitter.runId) requests
    (b.serveAll clock requests).1 := by
  induction requests generalizing b with
  | nil => exact .nil
  | cons r rest ih =>
      have hrest := ih (b.serve clock r).2
      rw [runId_serve] at hrest
      exact .cons (isAnswered_serve clock b r) hrest

-- An unnamed request gets the next name, and all others leave the count as it is.
theorem generated_serve : Request.generated [r] [(b.serve clock r).1] =
      (if r.isUnnamed then [b.emitter.traceId (b.emitter.named + 1)] else []) ∧
    (b.serve clock r).2.emitter.named = b.emitter.named + if r.isUnnamed then 1 else 0 := by
  cases r with
  | event level name => exact ⟨rfl, rfl⟩
  | entry e =>
      have hserve : b.serve clock (.entry e) = (some (b.put e).1, (b.put e).2) := rfl
      rw [hserve, put, Emitter.complete_eq]
      by_cases h : e.traceId = "" <;>
        simp [Request.generated, Request.isUnnamed, Entry.named, h]
  | flush => exact ⟨rfl, rfl⟩

theorem generated_serveAll : Request.generated requests (b.serveAll clock requests).1 =
    (List.range (requests.countP Request.isUnnamed)).map fun j =>
      b.emitter.traceId (b.emitter.named + 1 + j) := by
  induction requests generalizing b with
  | nil => rfl
  | cons r rest ih =>
      obtain ⟨hfirst, hnamed⟩ := generated_serve clock b r
      have hrest := ih (b.serve clock r).2
      have hsplit : Request.generated (r :: rest) (b.serveAll clock (r :: rest)).1 =
          Request.generated [r] [(b.serve clock r).1] ++
            Request.generated rest ((b.serve clock r).2.serveAll clock rest).1 := by
        rw [serveAll_cons]
        exact List.filterMap_append (l := [(r, (b.serve clock r).1)])
      simp only [traceId_serve, hnamed] at hrest
      rw [hsplit, hfirst, hrest, List.countP_cons]
      by_cases hr : r.isUnnamed = true
      · have hnext : ∀ j, b.emitter.named + 1 + 1 + j = b.emitter.named + 1 + (j + 1) := by
          omega
        simp only [hr, if_true, hnext, List.range_succ_eq_map, List.map_cons, List.map_map,
          Function.comp_def, List.singleton_append, Nat.succ_eq_add_one, Nat.add_zero]
      · simp only [hr, Bool.false_eq_true, if_false, List.nil_append, Nat.add_zero]

end Book

-- Whatever is asked of a log: it has one line for each entry that is given back, and each
-- line is read as that entry. What an entry says of its name and its run stays, and the names
-- that are made are numbered in order, so that no two of them are the same.
theorem serveAll_lossless (suite runId : String) (clock : Nat → String) (requests : List Request)
    (hfits : ∀ r ∈ requests, r.Fits) :
    let served := (Book.opened suite runId).serveAll clock requests
    (Text.lines served.2.text).map (decodeText Entry.decoder) =
        served.1.reduceOption.map .ok ∧
      List.Forall₂ (Request.IsAnswered clock runId) requests served.1 ∧
      Request.generated requests served.1 =
        ((List.range (requests.countP Request.isUnnamed)).map fun j =>
          suite ++ "::" ++ runId ++ "::" ++ Text.zeroPadded 3 (j + 1)) ∧
      (Request.generated requests served.1).Nodup := by
  intro served
  have hanswered : List.Forall₂ (Request.IsAnswered clock runId) requests served.1 :=
    Book.forall₂_serveAll clock (.opened suite runId) requests
  have hentries : served.2.entries = served.1.reduceOption :=
    (Book.entries_serveAll clock (.opened suite runId) requests).trans (List.nil_append _)
  have hgenerated : Request.generated requests served.1 =
      (List.range (requests.countP Request.isUnnamed)).map fun j =>
        suite ++ "::" ++ runId ++ "::" ++ Text.zeroPadded 3 (j + 1) := by
    refine (Book.generated_serveAll clock (.opened suite runId) requests).trans ?_
    refine List.map_congr_left fun j _ => ?_
    rw [Nat.add_comm j 1]
    rfl
  have hall : ∀ e ∈ served.2.entries, e.Fits := by
    intro e he
    rw [hentries, List.reduceOption_mem_iff] at he
    obtain ⟨r, hr, hanswer⟩ := exists_of_mem_forall₂ hanswered he
    exact (hfits r hr).of_isAnswered hanswer
  refine ⟨?_, hanswered, hgenerated, ?_⟩
  · rw [Book.text, lines_join_lineText hall, List.map_map, ← hentries]
    exact List.map_congr_left fun e he => Entry.decodeText_line (hall e he)
  · rw [hgenerated]
    refine (List.nodup_map_iff_inj_on List.nodup_range).mpr fun j _ j' _ h => ?_
    exact Nat.succ.inj (Emitter.traceId_injective ⟨suite, runId, 0⟩ h)

-- An entry with a name of its own, and with line ends wherever there is text.
def manyLines : Entry where
  timestamp := "\n"
  traceId := "a::b\r\n"
  level := .warn
  event := "two\nlines\r"
  fixture := some "\x00\"\\\n"
  exitCode := some (-1)
  durationMs := some 7
  artifactRefs := some ["\r\n"]
  details := some (.object [("k\n", .array [.null, .string "\u2028"])])

def mixedRequests : List Request :=
  [.event .info "start", .entry manyLines, .flush,
    .entry { manyLines with traceId := "", runId := some "other" }]

theorem fits_manyLines : manyLines.Fits where
  exitCode := by
    rintro code ⟨⟩
    decide
  durationMs := by
    rintro n ⟨⟩
    decide
  details := by
    rintro v ⟨⟩
    have hitems : ∀ item ∈ [Value.null, .string "\u2028"], item.IsExact (maxLevels - 3) :=
      List.forall_mem_cons.mpr ⟨.null, List.forall_mem_singleton.mpr (.string _)⟩
    exact ⟨.object (List.forall_mem_singleton.mpr (.array hitems)), rfl, nofun⟩

theorem serveAll_lossless_mixedRequests : (∀ r ∈ mixedRequests, r.Fits) ∧
    let served := (Book.opened "s" "r").serveAll (fun _ => "now") mixedRequests
    (Text.lines served.2.text).map (decodeText Entry.decoder) =
        served.1.reduceOption.map .ok ∧
      served.1.reduceOption.map Entry.traceId = ["s::r::001", "a::b\r\n", "s::r::002"] ∧
      (Request.generated mixedRequests served.1).Nodup := by
  have hfits : ∀ r ∈ mixedRequests, r.Fits := by
    simp only [mixedRequests, List.forall_mem_cons]
    exact ⟨trivial, fits_manyLines, trivial, ⟨fits_manyLines.exitCode,
      fits_manyLines.durationMs, fits_manyLines.details⟩, by simp⟩
  obtain ⟨hlines, -, -, hdistinct⟩ :=
    serveAll_lossless "s" "r" (fun _ => "now") mixedRequests hfits
  exact ⟨hfits, hlines, by decide +kernel, hdistinct⟩

end Log

end Conformance
