import Conformance.Text.Utf8
import Mathlib.Algebra.BigOperators.Group.List.Basic
import Mathlib.Data.List.Forall2

namespace Conformance.Text

namespace Utf8

-- A byte in its range, as a number.
def Within (range : UInt8 × UInt8) (b : UInt8) : Prop :=
  range.1.toNat ≤ b.toNat ∧ b.toNat ≤ range.2.toNat

theorem matching_append {ranges : List (UInt8 × UInt8)} {tail : Bytes}
    (h : List.Forall₂ Within ranges tail) (rest : Bytes) :
    matching ranges (tail ++ rest) = tail := by
  induction h with
  | nil => cases rest <;> rfl
  | cons hb _ ih =>
      rw [List.cons_append, matching, if_pos ⟨UInt8.le_iff_toNat_le.mpr hb.1,
        UInt8.le_iff_toNat_le.mpr hb.2⟩, ih]

theorem firstPiece_append {lead : UInt8} {tail : Bytes} {ranges : List (UInt8 × UInt8)} {c : Char}
    (hranges : followers lead = some ranges) (htail : List.Forall₂ Within ranges tail)
    (hpoint : codePoint lead tail = c.toNat) (rest : Bytes) :
    firstPiece lead (tail ++ rest) = (some c, tail.length) := by
  simp only [firstPiece, hranges, matching_append htail, htail.length_eq, if_true, hpoint,
    Char.ofNat_toNat]

theorem toNat_ofNat {n : Nat} (h : n < 256) : (UInt8.ofNat n).toNat = n :=
  UInt8.toNat_ofNat_of_lt' h

-- The six low bits of what stands above some bits of a number.
def follower (n : Nat) : UInt8 :=
  UInt8.ofNat (n % 64 + 128)

theorem toNat_follower (n : Nat) : (follower n).toNat = n % 64 + 128 :=
  toNat_ofNat (by omega)

theorem within_follower {low high : UInt8} {n : Nat} (hlow : low.toNat ≤ n % 64 + 128)
    (hhigh : n % 64 + 128 ≤ high.toNat) : Within (low, high) (follower n) := by
  rw [Within, toNat_follower]
  exact ⟨hlow, hhigh⟩

-- The first follower leaves out what a shorter form could write and what is no character.
theorem exists_followers_three {n : Nat} (hlow : 0x7ff < n) (hhigh : n ≤ 0xffff)
    (hgap : n < 0xD800 ∨ 0xDFFF < n) :
    ∃ range, followers (UInt8.ofNat (n / 4096 % 0x10 + 0xe0)) = some [range, (0x80, 0xBF)] ∧
      Within range (follower (n / 64)) := by
  have hlead := toNat_ofNat (n := n / 4096 % 0x10 + 0xe0) (by omega)
  rw [followers, hlead, if_neg (by omega), if_neg (by omega), if_neg (by omega)]
  by_cases hfirst : n / 4096 = 0
  · rw [if_pos (by omega)]
    exact ⟨_, rfl, within_follower (by simp; omega) (by simp; omega)⟩
  by_cases hbefore : n / 4096 = 13
  · rw [if_neg (by omega), if_pos (by omega)]
    exact ⟨_, rfl, within_follower (by simp) (by simp; omega)⟩
  · rw [if_neg (by omega), if_neg (by omega), if_pos (by omega)]
    exact ⟨_, rfl, within_follower (by simp) (by simp; omega)⟩

theorem exists_followers_four {n : Nat} (hlow : 0xffff < n) (hhigh : n < 0x110000) :
    ∃ range, followers (UInt8.ofNat (n / 262144 % 0x08 + 0xf0)) =
        some [range, (0x80, 0xBF), (0x80, 0xBF)] ∧
      Within range (follower (n / 4096)) := by
  have hlead := toNat_ofNat (n := n / 262144 % 0x08 + 0xf0) (by omega)
  rw [followers, hlead, if_neg (by omega), if_neg (by omega), if_neg (by omega),
    if_neg (by omega), if_neg (by omega), if_neg (by omega)]
  by_cases hfirst : n / 262144 = 0
  · rw [if_pos (by omega)]
    exact ⟨_, rfl, within_follower (by simp; omega) (by simp; omega)⟩
  by_cases hlast : n / 262144 = 4
  · rw [if_neg (by omega), if_neg (by omega), if_pos (by omega)]
    exact ⟨_, rfl, within_follower (by simp) (by simp; omega)⟩
  · rw [if_neg (by omega), if_pos (by omega)]
    exact ⟨_, rfl, within_follower (by simp) (by simp; omega)⟩

-- A leading byte tells how many followers there are, and in which ranges they lie.
theorem exists_utf8EncodeChar_eq (c : Char) : ∃ lead tail ranges,
    String.utf8EncodeChar c = lead :: tail ∧ followers lead = some ranges ∧
      List.Forall₂ Within ranges tail ∧ codePoint lead tail = c.toNat := by
  have hvalid : c.toNat < 0xD800 ∨ 0xDFFF < c.toNat ∧ c.toNat < 0x110000 := c.valid
  have hval : c.val.toNat = c.toNat := rfl
  generalize c.toNat = n at hvalid hval
  unfold String.utf8EncodeChar
  simp only [hval]
  by_cases hone : n ≤ 0x7f
  · have hlead := toNat_ofNat (n := n) (by omega)
    rw [if_pos hone]
    refine ⟨_, [], [], rfl, ?_, .nil, hlead⟩
    rw [followers, hlead, if_pos (by omega)]
  by_cases htwo : n ≤ 0x7ff
  · have hlead := toNat_ofNat (n := n / 64 % 0x20 + 0xc0) (by omega)
    rw [if_neg hone, if_pos htwo]
    refine ⟨_, [follower n], [(0x80, 0xBF)], rfl, ?_, ?_, ?_⟩
    · rw [followers, hlead, if_neg (by omega), if_neg (by omega), if_pos (by omega)]
    · exact .cons (within_follower (by simp) (by simp; omega)) .nil
    · simp only [codePoint, List.foldl_cons, List.foldl_nil, List.length_cons, List.length_nil,
        hlead, toNat_follower]
      omega
  by_cases hthree : n ≤ 0xffff
  · have hlead := toNat_ofNat (n := n / 4096 % 0x10 + 0xe0) (by omega)
    have hpoint : codePoint (UInt8.ofNat (n / 4096 % 0x10 + 0xe0)) [follower (n / 64), follower n]
        = n := by
      simp only [codePoint, List.foldl_cons, List.foldl_nil, List.length_cons, List.length_nil,
        hlead, toNat_follower]
      omega
    obtain ⟨range, hranges, hwithin⟩ := exists_followers_three (n := n) (by omega) hthree (by omega)
    rw [if_neg hone, if_neg htwo, if_pos hthree]
    exact ⟨_, [follower (n / 64), follower n], _, rfl, hranges,
      .cons hwithin (.cons (within_follower (by simp) (by simp; omega)) .nil), hpoint⟩
  · have hlead := toNat_ofNat (n := n / 262144 % 0x08 + 0xf0) (by omega)
    have hpoint : codePoint (UInt8.ofNat (n / 262144 % 0x08 + 0xf0))
        [follower (n / 4096), follower (n / 64), follower n] = n := by
      simp only [codePoint, List.foldl_cons, List.foldl_nil, List.length_cons, List.length_nil,
        hlead, toNat_follower]
      omega
    obtain ⟨range, hranges, hwithin⟩ := exists_followers_four (n := n) (by omega) (by omega)
    rw [if_neg hone, if_neg htwo, if_neg hthree]
    exact ⟨_, [follower (n / 4096), follower (n / 64), follower n], _, rfl, hranges,
      .cons hwithin (.cons (within_follower (by simp) (by simp; omega))
        (.cons (within_follower (by simp) (by simp; omega)) .nil)), hpoint⟩

-- The pieces of a text's form are its characters.
theorem pieces_flatMap (cs : List Char) :
    pieces (cs.flatMap String.utf8EncodeChar) = cs.map some := by
  induction cs with
  | nil => rw [List.flatMap_nil, pieces, List.map_nil]
  | cons c rest ih =>
      obtain ⟨lead, tail, ranges, hencode, hranges, htail, hpoint⟩ := exists_utf8EncodeChar_eq c
      rw [List.flatMap_cons, hencode, List.cons_append, pieces,
        firstPiece_append hranges htail hpoint, List.drop_left, ih, List.map_cons]

end Utf8

theorem bytesOf_append (s t : String) : bytesOf (s ++ t) = bytesOf s ++ bytesOf t := by
  rw [bytesOf, String.toList_append, List.flatMap_append]
  rfl

theorem ofBytes?_bytesOf (s : String) : ofBytes? (bytesOf s) = some s := by
  have hall : ∀ cs : List Char, (cs.map some).mapM id = some cs := by
    intro cs
    induction cs with
    | nil => rfl
    | cons c rest ih => simp [ih]
  rw [ofBytes?, bytesOf, Utf8.pieces_flatMap, hall]
  simp

theorem length_toList_le (s : String) : s.toList.length ≤ (bytesOf s).length := by
  have hsize : ∀ n ∈ s.toList.map fun c => (String.utf8EncodeChar c).length, 1 ≤ n := by
    intro n hn
    obtain ⟨c, -, rfl⟩ := List.mem_map.mp hn
    rw [String.length_utf8EncodeChar]
    exact c.utf8Size_pos
  have hle := List.length_le_sum_of_one_le _ hsize
  rwa [List.length_map, ← List.length_flatMap] at hle

end Conformance.Text
