import Conformance.Proofs.Digest.Bits

namespace Conformance.Sha256

open Standard
open Text (Bytes)

section Constants

-- The numbers of a kind below a bound are the first of that kind.
theorem filter_range_eq (p : ℕ → Prop) [DecidablePred p] (n : ℕ) :
    (List.range n).filter p = (List.range (Nat.count p n)).map (Nat.nth p) := by
  induction n with
  | zero => rfl
  | succ n ih =>
      rw [List.range_succ, List.filter_append, ih, Nat.count_succ]
      by_cases hn : p n
      · rw [if_pos hn, List.range_succ, List.map_append, List.filter_cons_of_pos (by simpa using hn),
          List.map_singleton, Nat.nth_count hn]
        rfl
      · rw [if_neg hn, List.filter_cons_of_neg (by simpa using hn), List.filter_nil,
          List.append_nil, Nat.add_zero]

def firstPrimes : List ℕ := [
  2, 3, 5, 7, 11, 13, 17, 19, 23, 29, 31, 37, 41, 43, 47, 53, 59, 61, 67, 71, 73, 79, 83, 89, 97,
  101, 103, 107, 109, 113, 127, 131, 137, 139, 149, 151, 157, 163, 167, 173, 179, 181, 191, 193,
  197, 199, 211, 223, 227, 229, 233, 239, 241, 251, 257, 263, 269, 271, 277, 281, 283, 293, 307, 311]

theorem map_nth_prime : (List.range 64).map (Nat.nth Nat.Prime) = firstPrimes := by
  -- the least factor is found faster than all numbers below are tried
  have hfactors : (List.range 312).filter (fun n => decide (2 ≤ n ∧ n.minFac = n)) = firstPrimes := by
    decide +kernel
  have hfilter : (List.range 312).filter Nat.Prime = firstPrimes := by
    rw [← hfactors]
    exact List.filter_congr fun n _ => decide_eq_decide.mpr Nat.prime_def_minFac
  have hrange := filter_range_eq Nat.Prime 312
  rw [hfilter] at hrange
  have hcount := congrArg List.length hrange
  rw [List.length_map, List.length_range] at hcount
  rw [hrange, ← hcount]
  rfl

theorem map_roundConstants :
    roundConstants.map UInt32.toBitVec = (List.range 64).map roundConstant := by
  have hroots : roundConstants.map UInt32.toBitVec = firstPrimes.map (rootFraction 3) := by
    decide +kernel
  rw [hroots, ← map_nth_prime, List.map_map]
  rfl

end Constants

section Variables

def Hash.variables (s : Hash) : Variables :=
  ⟨s.a.toBitVec, s.b.toBitVec, s.c.toBitVec, s.d.toBitVec, s.e.toBitVec, s.f.toBitVec,
    s.g.toBitVec, s.h.toBitVec⟩

theorem variables_first : Hash.first.variables = initial := by
  have hprime : ∀ j < 8, initialPart j = rootFraction 2 (firstPrimes.getD j 0) := by
    intro j hj
    rw [initialPart, ← map_nth_prime]
    simp [show j < 64 by omega]
  have hroots : Hash.first.variables =
      ⟨rootFraction 2 2, rootFraction 2 3, rootFraction 2 5, rootFraction 2 7, rootFraction 2 11,
        rootFraction 2 13, rootFraction 2 17, rootFraction 2 19⟩ := by
    decide +kernel
  rw [hroots, initial, hprime 0, hprime 1, hprime 2, hprime 3, hprime 4, hprime 5, hprime 6, hprime 7]
  all_goals decide

theorem variables_mix (s : Hash) (constant word : UInt32) :
    (mix s constant word).variables = s.variables.step constant.toBitVec word.toBitVec :=
  rfl

theorem variables_add (s r : Hash) : (s.add r).variables = r.variables.add s.variables := by
  simp only [Hash.variables, Hash.add, Variables.add, UInt32.toBitVec_add, BitVec.add_comm]

end Variables

section Schedule

variable {words : ℕ → Word}

theorem schedule_of_lt {t : ℕ} (h : t < 16) : Standard.schedule words t = words t := by
  rw [Standard.schedule, if_pos h]

theorem schedule_of_le {t : ℕ} (h : 16 ≤ t) : Standard.schedule words t =
    lowerSigma1 (Standard.schedule words (t - 2)) + Standard.schedule words (t - 7) +
      lowerSigma0 (Standard.schedule words (t - 15)) + Standard.schedule words (t - 16) := by
  rw [Standard.schedule, if_neg (Nat.not_lt.mpr h)]

-- The words of a list, latest first, are those of the first rounds.
def Spread (words : ℕ → Word) (count : ℕ) (latest : List UInt32) : Prop :=
  latest.map UInt32.toBitVec = ((List.range count).map (Standard.schedule words)).reverse

theorem Spread.getD {count i : ℕ} {latest : List UInt32} (h : Spread words count latest)
    (hi : i < count) : (latest.getD i 0).toBitVec = Standard.schedule words (count - (i + 1)) := by
  have hget : (latest.map UInt32.toBitVec)[i]? =
      some (Standard.schedule words (count - 1 - i)) := by
    rw [h, List.getElem?_reverse (by simpa using hi), List.length_map, List.length_range,
      List.getElem?_map, List.getElem?_range (by omega)]
    rfl
  rw [List.getElem?_map] at hget
  obtain ⟨word, hword, heq⟩ := Option.map_eq_some_iff.mp hget
  rw [List.getD_eq_getElem?_getD, hword, Option.getD_some, heq, Nat.sub_sub, Nat.add_comm]

theorem Spread.cons {count : ℕ} {latest : List UInt32} (h : Spread words count latest)
    {word : UInt32} (hword : word.toBitVec = Standard.schedule words count) :
    Spread words (count + 1) (word :: latest) := by
  rw [Spread, List.map_cons, h, hword, List.range_succ, List.map_append, List.reverse_append]
  rfl

theorem Spread.extend {count : ℕ} {latest : List UInt32} (h : Spread words count latest)
    (hcount : 16 ≤ count) (n : ℕ) : Spread words (count + n) (extend n latest) := by
  induction n generalizing count latest with
  | zero => exact h
  | succ n ih =>
      have hword : (smallSigma1 (latest.getD 1 0) + latest.getD 6 0 + smallSigma0 (latest.getD 14 0) +
          latest.getD 15 0).toBitVec = Standard.schedule words count := by
        rw [schedule_of_le hcount, ← h.getD (i := 1) (by omega), ← h.getD (i := 6) (by omega),
          ← h.getD (i := 14) (by omega), ← h.getD (i := 15) (by omega)]
        rfl
      rw [Nat.add_succ, ← Nat.succ_add]
      exact ih (h.cons hword) (by omega)

theorem map_schedule {block : Bytes} (h : block.length = blockBytes) :
    (schedule block).map UInt32.toBitVec =
      (List.range 64).map (Standard.schedule (wordAt (messageOf block))) := by
  have hfirst : Spread (wordAt (messageOf block)) 16 (wordsOf block).reverse := by
    rw [Spread, List.map_reverse, map_wordsOf, h]
    refine congrArg List.reverse (List.map_congr_left fun t ht => ?_)
    exact (schedule_of_lt (List.mem_range.mp ht)).symm
  have hall := hfirst.extend (Nat.le_refl 16) 48
  rw [schedule, List.map_reverse, hall, List.reverse_reverse]

end Schedule

section Compression

theorem variables_foldl_mix (s : Hash) (pairs : List (UInt32 × UInt32)) :
    (pairs.foldl (fun s p => mix s p.1 p.2) s).variables =
      (pairs.map fun p => (p.1.toBitVec, p.2.toBitVec)).foldl (fun v p => v.step p.1 p.2)
        s.variables := by
  induction pairs generalizing s with
  | nil => rfl
  | cons pair pairs ih => rw [List.foldl_cons, ih, variables_mix, List.map_cons, List.foldl_cons]

theorem foldl_step_eq_rounds (words : ℕ → Word) (v : Variables) (count : ℕ) :
    ((List.range count).map fun t => (roundConstant t, words t)).foldl
      (fun v p => v.step p.1 p.2) v = rounds words v count := by
  induction count with
  | zero => rfl
  | succ count ih =>
      rw [List.range_succ, List.map_append, List.foldl_append, ih]
      rfl

-- A block is taken in as the standard has it.
theorem variables_compress (s : Hash) {block : Bytes} (h : block.length = blockBytes) :
    (compress s block).variables =
      (rounds (Standard.schedule (wordAt (messageOf block))) s.variables 64).add s.variables := by
  have hpairs : (roundConstants.zip (schedule block)).map
      (fun p => (p.1.toBitVec, p.2.toBitVec)) = (List.range 64).map fun t =>
        (roundConstant t, Standard.schedule (wordAt (messageOf block)) t) := by
    have hzip : (roundConstants.zip (schedule block)).map (Prod.map UInt32.toBitVec UInt32.toBitVec) =
        (roundConstants.map UInt32.toBitVec).zip ((schedule block).map UInt32.toBitVec) :=
      List.zip_map.symm
    rw [map_roundConstants, map_schedule h, List.zip_map'] at hzip
    exact hzip
  rw [compress, variables_add, variables_foldl_mix, hpairs, foldl_step_eq_rounds]

end Compression

end Conformance.Sha256
