import Conformance.Log.Book

namespace Conformance.Log.Book

variable {clock : Nat → String} {b b' : Book} {e : Entry}

-- Some entries added one after the other.
def addAll (b : Book) (clock : Nat → String) (entries : List Entry) : Book :=
  entries.foldl (fun b e => b.add clock e) b

theorem addAll_append (b : Book) (clock : Nat → String) (xs ys : List Entry) :
    b.addAll clock (xs ++ ys) = (b.addAll clock xs).addAll clock ys :=
  List.foldl_append

-- Nothing fails that is written into a log, if there is one.
def AllSound (log : Option Book) : Prop :=
  ∀ b ∈ log, b.fault? = none

@[simp] theorem allSound_some_iff : AllSound (some b) ↔ b.fault? = none := by
  simp [AllSound]

theorem fault?_addAll (b : Book) (clock : Nat → String) (entries : List Entry) :
    (b.addAll clock entries).fault? = b.fault? := by
  induction entries generalizing b with
  | nil => rfl
  | cons e rest ih => exact ih (b.add clock e)

theorem length_entries_addAll (b : Book) (clock : Nat → String) (entries : List Entry) :
    (b.addAll clock entries).entries.length = b.entries.length + entries.length := by
  induction entries generalizing b with
  | nil => rfl
  | cons e rest ih =>
      have hadd : (b.add clock e).entries.length = b.entries.length + 1 := List.length_append
      have hstep : b.addAll clock (e :: rest) = (b.add clock e).addAll clock rest := rfl
      rw [hstep, ih, hadd, List.length_cons]
      omega

-- An entry that is logged without a failure is added, whether or not it is held back.
theorem emitIn_eq_ok {log log' : Option Book} (h : emitIn clock e log = (.ok (), log')) :
    log' = log.map fun b => b.add clock e := by
  cases log with
  | none =>
      cases h
      rfl
  | some b =>
      unfold emitIn emit at h
      dsimp only at h
      split at h
      · cases h
        rfl
      · split at h
        · cases h
          rfl
        · cases h

-- A failure leaves the log as it was.
theorem emitIn_eq_error {log log' : Option Book} {cause : IoError}
    (h : emitIn clock e log = (.error cause, log')) : log' = log := by
  cases log with
  | none => cases h
  | some b =>
      unfold emitIn emit at h
      dsimp only at h
      split at h
      · cases h
      · split at h <;> cases h
        rfl

theorem emitIn_of_allSound {log : Option Book} (h : AllSound log) (clock : Nat → String)
    (e : Entry) : emitIn clock e log = (.ok (), log.map fun b => b.add clock e) := by
  cases log with
  | none => rfl
  | some b =>
      rw [allSound_some_iff] at h
      simp only [emitIn, emit, h, Option.map_some]

theorem flushIn_of_allSound {log : Option Book} (h : AllSound log) : flushIn log = .ok () := by
  cases log with
  | none => rfl
  | some b =>
      rw [allSound_some_iff] at h
      simp only [flushIn, flush, h]

-- That nothing can be written shows at the latest when all must be written that there is.
theorem allSound_of_flushIn {log : Option Book} (h : flushIn log = .ok ())
    (hsome : ∀ b ∈ log, b.entries ≠ []) : AllSound log := by
  rintro b rfl
  unfold flushIn flush at h
  dsimp only at h
  split at h
  · assumption
  · rw [if_neg (by simpa using hsome b rfl)] at h
    cases h

end Conformance.Log.Book
