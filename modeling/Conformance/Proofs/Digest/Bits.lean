import Conformance.Digest.Sha256
import Conformance.Proofs.Digest.Standard
import Mathlib.Tactic.Ring

namespace Conformance.Sha256

open Standard
open Text (Bytes)

section Numbers

theorem length_bitsOf (width n : ℕ) : (bitsOf width n).length = width := by
  induction width with
  | zero => rfl
  | succ width ih => rw [bitsOf, List.length_cons, ih]

theorem numberOf_bitsOf (width n : ℕ) : numberOf (bitsOf width n) = n % 2 ^ width := by
  induction width with
  | zero => rw [Nat.pow_zero, Nat.mod_one]; rfl
  | succ width ih =>
      rw [bitsOf, numberOf, length_bitsOf, ih, Nat.mod_pow_succ, Nat.toNat_testBit, Nat.mul_comm,
        Nat.add_comm]

theorem numberOf_append (xs ys : List Bool) :
    numberOf (xs ++ ys) = numberOf xs * 2 ^ ys.length + numberOf ys := by
  induction xs with
  | nil => simp [numberOf]
  | cons bit xs ih =>
      rw [List.cons_append, numberOf, numberOf, ih, List.length_append, Nat.pow_add]
      ring

-- The bits in front are those of the number without the bits behind.
theorem bitsOf_add (front behind n : ℕ) :
    bitsOf (front + behind) n = bitsOf front (n / 2 ^ behind) ++ bitsOf behind n := by
  induction front with
  | zero => rw [Nat.zero_add]; rfl
  | succ front ih =>
      rw [Nat.succ_add, bitsOf, bitsOf, ih, Nat.testBit_div_two_pow, Nat.add_comm front behind,
        List.cons_append]

theorem bitsOf_mod {width power : ℕ} (h : width ≤ power) (n : ℕ) :
    bitsOf width (n % 2 ^ power) = bitsOf width n := by
  induction width with
  | zero => rfl
  | succ width ih =>
      rw [bitsOf, bitsOf, ih (by omega), Nat.testBit_mod_two_pow, decide_eq_true (by omega),
        Bool.true_and]

end Numbers

section Messages

theorem messageOf_cons (byte : UInt8) (data : Bytes) :
    messageOf (byte :: data) = bitsOf 8 byte.toNat ++ messageOf data :=
  List.flatMap_cons

theorem messageOf_append (xs ys : Bytes) : messageOf (xs ++ ys) = messageOf xs ++ messageOf ys :=
  List.flatMap_append

theorem length_messageOf (data : Bytes) : (messageOf data).length = 8 * data.length := by
  induction data with
  | nil => rfl
  | cons byte data ih =>
      rw [messageOf_cons, List.length_append, length_bitsOf, ih, List.length_cons]
      omega

theorem drop_messageOf (data : Bytes) (n : ℕ) :
    (messageOf data).drop (8 * n) = messageOf (data.drop n) := by
  rcases Nat.le_total n data.length with hle | hle
  · have hfront : (messageOf (data.take n)).length = 8 * n := by
      rw [length_messageOf, List.length_take_of_le hle]
    conv_lhs => rw [← List.take_append_drop n data, messageOf_append, ← hfront]
    exact List.drop_left
  · rw [List.drop_of_length_le hle, List.drop_of_length_le (by rw [length_messageOf]; omega)]
    rfl

theorem take_messageOf (data : Bytes) (n : ℕ) :
    (messageOf data).take (8 * n) = messageOf (data.take n) := by
  rcases Nat.le_total n data.length with hle | hle
  · have hfront : (messageOf (data.take n)).length = 8 * n := by
      rw [length_messageOf, List.length_take_of_le hle]
    conv_lhs => rw [← List.take_append_drop n data, messageOf_append, ← hfront]
    exact List.take_left
  · rw [List.take_of_length_le hle, List.take_of_length_le (by rw [length_messageOf]; omega)]

theorem numberOf_messageOf_cons (byte : UInt8) (data : Bytes) : numberOf (messageOf (byte :: data)) =
    byte.toNat * 2 ^ (8 * data.length) + numberOf (messageOf data) := by
  rw [messageOf_cons, numberOf_append, numberOf_bitsOf, length_messageOf,
    Nat.mod_eq_of_lt byte.toNat_lt]

end Messages

section Words

theorem toNat_toUInt32_shiftLeft (x : UInt8) {n : UInt32} (h : n.toNat ≤ 24) :
    (x.toUInt32 <<< n).toNat = 2 ^ n.toNat * x.toNat := by
  have hx := x.toNat_lt
  have hpow : 2 ^ n.toNat ≤ 2 ^ 24 := Nat.pow_le_pow_right (by decide) h
  have hfits : x.toNat * 2 ^ n.toNat < 2 ^ 32 :=
    (Nat.mul_le_mul (Nat.le_sub_one_of_lt hx) hpow).trans_lt (by decide)
  have hn : n.toNat % 32 = n.toNat := Nat.mod_eq_of_lt (by omega)
  rw [UInt32.toNat_shiftLeft, UInt8.toNat_toUInt32, hn, Nat.shiftLeft_eq, Nat.mod_eq_of_lt hfits,
    Nat.mul_comm]

theorem toNat_wordOf (a b c d : UInt8) : (wordOf a b c d).toNat =
    a.toNat * 2 ^ 24 + b.toNat * 2 ^ 16 + c.toNat * 2 ^ 8 + d.toNat := by
  have hb := b.toNat_lt
  have hc := c.toNat_lt
  have hd := d.toNat_lt
  have hword : (wordOf a b c d).toNat =
      2 ^ 24 * a.toNat ||| 2 ^ 16 * b.toNat ||| 2 ^ 8 * c.toNat ||| d.toNat := by
    rw [wordOf, UInt32.toNat_or, UInt32.toNat_or, UInt32.toNat_or,
      toNat_toUInt32_shiftLeft a (by decide), toNat_toUInt32_shiftLeft b (by decide),
      toNat_toUInt32_shiftLeft c (by decide), UInt8.toNat_toUInt32]
    rfl
  -- each byte lies below the bits of those in front of it
  have hab : 2 ^ 24 * a.toNat ||| 2 ^ 16 * b.toNat = 2 ^ 16 * (2 ^ 8 * a.toNat + b.toNat) := by
    rw [← Nat.two_pow_add_eq_or_of_lt (by omega)]
    ring
  have habc : 2 ^ 16 * (2 ^ 8 * a.toNat + b.toNat) ||| 2 ^ 8 * c.toNat =
      2 ^ 8 * (2 ^ 8 * (2 ^ 8 * a.toNat + b.toNat) + c.toNat) := by
    rw [← Nat.two_pow_add_eq_or_of_lt (by omega)]
    ring
  rw [hword, hab, habc, ← Nat.two_pow_add_eq_or_of_lt hd]
  ring

theorem toBitVec_wordOf (a b c d : UInt8) :
    (wordOf a b c d).toBitVec = BitVec.ofNat 32 (numberOf (messageOf [a, b, c, d])) := by
  apply BitVec.eq_of_toNat_eq
  have hnil : numberOf (messageOf []) = 0 := rfl
  have ha := a.toNat_lt
  have hb := b.toNat_lt
  have hc := c.toNat_lt
  have hd := d.toNat_lt
  rw [UInt32.toNat_toBitVec, toNat_wordOf, BitVec.toNat_ofNat]
  simp only [numberOf_messageOf_cons, hnil, List.length_cons, List.length_nil]
  omega

theorem wordAt_messageOf (data : Bytes) (n : ℕ) : wordAt (messageOf data) n =
    BitVec.ofNat 32 (numberOf (messageOf ((data.drop (4 * n)).take 4))) := by
  have htake := take_messageOf (data.drop (4 * n)) 4
  rw [← drop_messageOf, ← Nat.mul_assoc] at htake
  exact congrArg (fun bits => BitVec.ofNat 32 (numberOf bits)) htake

theorem wordAt_messageOf_succ (a b c d : UInt8) (rest : Bytes) (n : ℕ) :
    wordAt (messageOf (a :: b :: c :: d :: rest)) (n + 1) = wordAt (messageOf rest) n := by
  have hdrop : (a :: b :: c :: d :: rest).drop (4 * (n + 1)) = rest.drop (4 * n) := by
    rw [Nat.mul_succ]
    rfl
  rw [wordAt_messageOf, wordAt_messageOf, hdrop]

-- The words of some bytes are those of their bits.
theorem map_wordsOf (data : Bytes) : (wordsOf data).map UInt32.toBitVec =
    (List.range (data.length / 4)).map (wordAt (messageOf data)) := by
  fun_induction wordsOf data with
  | case1 a b c d rest ih =>
      have hlength : (a :: b :: c :: d :: rest).length / 4 = rest.length / 4 + 1 := by
        simp only [List.length_cons]
        omega
      have hfirst : wordAt (messageOf (a :: b :: c :: d :: rest)) 0 = (wordOf a b c d).toBitVec := by
        rw [wordAt_messageOf, toBitVec_wordOf]
        rfl
      rw [hlength, List.range_succ_eq_map, List.map_cons, List.map_cons, List.map_map, ih, hfirst]
      refine congrArg (_ :: ·) (List.map_congr_left fun n _ => ?_)
      exact (wordAt_messageOf_succ a b c d rest n).symm
  | case2 data hshort =>
      have hlength : data.length < 4 := by
        by_contra hlong
        obtain ⟨a, b, c, d, rest, rfl⟩ : ∃ a b c d rest, data = a :: b :: c :: d :: rest := by
          match data with
          | [] | [_] | [_, _] | [_, _, _] => simp at hlong
          | a :: b :: c :: d :: rest => exact ⟨a, b, c, d, rest, rfl⟩
        exact hshort a b c d rest rfl
      rw [Nat.div_eq_of_lt hlength]
      rfl

end Words

section Padding

theorem messageOf_replicate_zero (n : ℕ) :
    messageOf (List.replicate n 0) = List.replicate (8 * n) false := by
  induction n with
  | zero => rfl
  | succ n ih =>
      rw [List.replicate_succ, messageOf_cons, ih, Nat.mul_succ, Nat.add_comm,
        List.replicate_add]
      rfl

-- The bytes of a number, the most significant first.
theorem messageOf_bytes (width n : ℕ) : messageOf ((List.range width).map fun i =>
    (n / Nat.pow 256 (width - 1 - i) % 256).toUInt8) = bitsOf (8 * width) n := by
  induction width with
  | zero => rfl
  | succ width ih =>
      have hpow : Nat.pow 256 width = 2 ^ (8 * width) := (Nat.pow_mul 2 8 width).symm
      have hbyte : (n / Nat.pow 256 width % 256).toUInt8.toNat = n / 2 ^ (8 * width) % 2 ^ 8 := by
        rw [hpow]
        exact Nat.mod_mod _ 256
      have hrest : ((List.range width).map Nat.succ).map (fun i =>
          (n / Nat.pow 256 (width + 1 - 1 - i) % 256).toUInt8) =
          (List.range width).map fun i => (n / Nat.pow 256 (width - 1 - i) % 256).toUInt8 := by
        rw [List.map_map]
        refine List.map_congr_left fun i _ => ?_
        have hindex : width + 1 - 1 - i.succ = width - 1 - i := by omega
        rw [Function.comp_apply, hindex]
      rw [List.range_succ_eq_map, List.map_cons, messageOf_cons, hrest, ih, Nat.mul_succ,
        Nat.add_comm (8 * width), bitsOf_add]
      refine congrArg (· ++ _) ?_
      exact (congrArg (bitsOf 8) hbyte).trans (bitsOf_mod (Nat.le_refl 8) _)

theorem zeros_eq (n : ℕ) : zeros (8 * n) = 7 + 8 * ((119 - n % blockBytes) % blockBytes) := by
  unfold blockBytes
  refine (Nat.find_eq_iff _).mpr ⟨by omega, fun fewer hfewer => by omega⟩

-- A padded message is whole bytes: the one and the first seven zeros make a byte of their own.
theorem messageOf_append_padding (data : Bytes) :
    messageOf (data ++ padding data.length) = padded (messageOf data) := by
  have hone : messageOf [0x80] = true :: List.replicate 7 false := by decide
  have hlength : messageOf (lengthBytes (data.length * 8)) = bitsOf 64 (8 * data.length) := by
    rw [Nat.mul_comm]
    exact messageOf_bytes 8 (8 * data.length)
  rw [padded, length_messageOf, zeros_eq, messageOf_append, padding, messageOf_append,
    ← List.singleton_append, messageOf_append, messageOf_replicate_zero, hlength, hone,
    List.replicate_add]
  simp only [List.cons_append, List.append_assoc]

theorem length_padding (length : ℕ) :
    (padding length).length = 9 + (119 - length % blockBytes) % blockBytes := by
  simp only [padding, lengthBytes, List.length_append, List.length_cons, List.length_replicate,
    List.length_map, List.length_range]
  omega

-- Message and padding fill whole blocks.
theorem blockBytes_dvd_length_append_padding (data : Bytes) :
    blockBytes ∣ (data ++ padding data.length).length := by
  rw [List.length_append, length_padding]
  unfold blockBytes
  omega

end Padding

end Conformance.Sha256
