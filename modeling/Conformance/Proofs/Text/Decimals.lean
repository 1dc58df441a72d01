import Conformance.Proofs.Text.Utf8
import Conformance.Text.Lines
import Mathlib.Tactic.IntervalCases

namespace Conformance

namespace Text

-- Of two lists of the same length the first difference decides, whatever comes behind.
theorem append_lt_append {a b : Bytes} (h : a < b) (hlength : a.length = b.length) (x y : Bytes) :
    a ++ x < b ++ y := by
  induction a generalizing b with
  | nil =>
      rw [List.length_eq_zero_iff.mp hlength.symm] at h
      exact absurd h (List.lt_irrefl [])
  | cons c a ih =>
      cases b with
      | nil => cases hlength
      | cons d b =>
          rw [List.cons_append, List.cons_append]
          rw [List.cons_lt_cons_iff] at h ⊢
          exact h.imp_right fun h => ⟨h.1, ih h.2 (Nat.succ.inj hlength)⟩

-- The last digits of a number, as many as asked for.
def decimals : ℕ → ℕ → Bytes
  | 0, _ => []
  | width + 1, n => decimals width (n / 10) ++ [UInt8.ofNat (n % 10 + 48)]

theorem length_decimals (width n : ℕ) : (decimals width n).length = width := by
  induction width generalizing n with
  | zero => rfl
  | succ width ih => rw [decimals, List.length_append, ih, List.length_singleton]

theorem decimals_lt {width m n : ℕ} (h : m < n) (hn : n < 10 ^ width) :
    decimals width m < decimals width n := by
  induction width generalizing m n with
  | zero => omega
  | succ width ih =>
      rw [decimals, decimals]
      rcases (Nat.div_le_div_right h.le : m / 10 ≤ n / 10).lt_or_eq with hlt | heq
      · refine append_lt_append (ih hlt (by omega)) ?_ _ _
        rw [length_decimals, length_decimals]
      · rw [heq]
        refine List.append_left_lt (List.cons_lt_cons_iff.mpr (.inl ?_))
        rw [UInt8.lt_iff_toNat_lt, Utf8.toNat_ofNat (by omega),
          Utf8.toNat_ofNat (by omega)]
        omega

theorem toList_zeroPadded (width n : ℕ) : (zeroPadded width n).toList =
    List.replicate (width - (Nat.toDigits 10 n).length) '0' ++ Nat.toDigits 10 n := by
  have hdigits : (toString n).toList = Nat.toDigits 10 n := String.toList_ofList
  rw [zeroPadded, String.toList_append, String.toList_ofList, ← String.length_toList, hdigits]

theorem utf8EncodeChar_digitChar {n : ℕ} (h : n < 10) :
    String.utf8EncodeChar n.digitChar = [UInt8.ofNat (n + 48)] := by
  interval_cases n <;> rfl

-- The last digits of a number to some base, as many as asked for.
def lastDigits (base : ℕ) : ℕ → ℕ → List Char
  | 0, _ => []
  | width + 1, n => lastDigits base width (n / base) ++ [(n % base).digitChar]

theorem length_lastDigits (base width n : ℕ) : (lastDigits base width n).length = width := by
  induction width generalizing n with
  | zero => rfl
  | succ width ih => rw [lastDigits, List.length_append, ih, List.length_singleton]

theorem lastDigits_zero (base width : ℕ) :
    lastDigits base width 0 = List.replicate width '0' := by
  induction width with
  | zero => rfl
  | succ width ih =>
      rw [lastDigits, Nat.zero_div, Nat.zero_mod, ih, List.replicate_succ']
      rfl

theorem exists_of_mem_lastDigits {base width n : ℕ} {c : Char} (hbase : 0 < base)
    (h : c ∈ lastDigits base width n) : ∃ digit < base, c = digit.digitChar := by
  induction width generalizing n with
  | zero => cases h
  | succ width ih =>
      rw [lastDigits, List.mem_append, List.mem_singleton] at h
      rcases h with h | rfl
      · exact ih h
      · exact ⟨n % base, Nat.mod_lt n hbase, rfl⟩

-- A number that fits into its width is written with as many digits.
theorem leftpad_toDigits {base width n : ℕ} (hbase : 1 < base) (h : n < base ^ width)
    (hpos : 0 < width) :
    List.leftpad width '0' (Nat.toDigits base n) = lastDigits base width n := by
  rw [List.leftpad]
  induction width generalizing n with
  | zero => cases hpos
  | succ width ih =>
      rw [lastDigits]
      by_cases hsmall : n < base
      · rw [Nat.toDigits_of_lt_base hsmall, Nat.div_eq_of_lt hsmall, Nat.mod_eq_of_lt hsmall,
          lastDigits_zero]
        rfl
      · have hle : base ≤ n := Nat.le_of_not_lt hsmall
        have hwidth : 0 < width := by
          rcases width.eq_zero_or_pos with rfl | hwidth
          · rw [Nat.zero_add, Nat.pow_one] at h
            exact absurd h hsmall
          · exact hwidth
        have hfront : n / base < base ^ width := by
          rwa [Nat.div_lt_iff_lt_mul (by omega), ← Nat.pow_succ]
        rw [Nat.toDigits_of_base_le hbase hle, List.length_append, List.length_singleton,
          Nat.add_sub_add_right, ← List.append_assoc, ih hfront hwidth]

theorem flatMap_lastDigits (width n : ℕ) :
    (lastDigits 10 width n).flatMap String.utf8EncodeChar = decimals width n := by
  induction width generalizing n with
  | zero => rfl
  | succ width ih =>
      rw [lastDigits, List.flatMap_append, ih, List.flatMap_singleton,
        utf8EncodeChar_digitChar (Nat.mod_lt n (by decide)), decimals]

theorem bytesOf_zeroPadded {width n : ℕ} (h : n < 10 ^ width) (hpos : 0 < width) :
    bytesOf (zeroPadded width n) = decimals width n := by
  rw [bytesOf, toList_zeroPadded, ← List.leftpad, leftpad_toDigits (by decide) h hpos,
    flatMap_lastDigits]

end Text

end Conformance
