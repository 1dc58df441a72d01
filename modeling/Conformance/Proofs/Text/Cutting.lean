import Conformance.Proofs.Text.Utf8
import Mathlib.Tactic.SplitIfs

namespace Conformance.Text

namespace Utf8

theorem followers_bounds {lead : UInt8} {ranges : List (UInt8 × UInt8)}
    (h : followers lead = some ranges) :
    ranges.length ≤ 3 ∧ ∀ range ∈ ranges, 0x80 ≤ range.1.toNat ∧ range.2.toNat ≤ 0xBF := by
  unfold followers at h
  dsimp only at h
  split_ifs at h <;> cases h <;> simp

-- A byte that follows in a character begins none.
theorem followers_of_within {ranges : List (UInt8 × UInt8)} {tail : Bytes}
    (hbounds : ∀ range ∈ ranges, 0x80 ≤ range.1.toNat ∧ range.2.toNat ≤ 0xBF)
    (h : List.Forall₂ Within ranges tail) : ∀ b ∈ tail, followers b = none := by
  induction h with
  | nil => exact fun _ hb => absurd hb List.not_mem_nil
  | cons hwithin _ ih =>
      obtain ⟨⟨hlow, hhigh⟩, hrest⟩ := List.forall_mem_cons.mp hbounds
      obtain ⟨hlow', hhigh'⟩ := hwithin
      refine List.forall_mem_cons.mpr ⟨?_, ih hrest⟩
      rw [followers, if_neg (by omega), if_pos (by omega)]

-- A character is a byte that begins it and up to three that begin none.
theorem exists_utf8EncodeChar_cons (c : Char) : ∃ lead tail,
    String.utf8EncodeChar c = lead :: tail ∧ tail.length ≤ 3 ∧
      ∀ b ∈ tail, followers b = none := by
  obtain ⟨lead, tail, ranges, hencode, hranges, htail, -⟩ := exists_utf8EncodeChar_eq c
  obtain ⟨hlength, hbounds⟩ := followers_bounds hranges
  exact ⟨lead, tail, hencode, htail.length_eq ▸ hlength, followers_of_within hbounds htail⟩

-- Each byte that begins no character is a piece of its own.
theorem pieces_append {cut : Bytes} (h : ∀ b ∈ cut, followers b = none) (rest : Bytes) :
    pieces (cut ++ rest) = List.replicate cut.length none ++ pieces rest := by
  induction cut with
  | nil => rfl
  | cons b cut ih =>
      obtain ⟨hb, hcut⟩ := List.forall_mem_cons.mp h
      rw [List.cons_append, pieces, firstPiece, hb, List.drop_zero, ih hcut]
      rfl

end Utf8

-- What is left of a text without its first bytes: the end of a character that was cut, and the
-- characters behind it.
structure Cut (cs : List Char) (n : ℕ) (cut : Bytes) (rest : List Char) : Prop where
  isSuffix : rest <:+ cs
  drop : (cs.flatMap String.utf8EncodeChar).drop n = cut ++ rest.flatMap String.utf8EncodeChar
  follow : ∀ b ∈ cut, Utf8.followers b = none
  short : cut.length ≤ 3
  longest : ∀ other, other <:+ cs → (other.flatMap String.utf8EncodeChar).length + n ≤
    (cs.flatMap String.utf8EncodeChar).length → other <:+ rest

theorem exists_cut (cs : List Char) (n : ℕ) : ∃ cut rest, Cut cs n cut rest := by
  induction cs generalizing n with
  | nil => exact ⟨[], [], List.suffix_rfl, List.drop_nil, by simp, by simp, fun _ h _ => h⟩
  | cons c cs ih =>
      rcases n.eq_zero_or_pos with rfl | hpos
      · exact ⟨[], c :: cs, List.suffix_rfl, rfl, by simp, by simp, fun _ h _ => h⟩
      obtain ⟨lead, tail, hencode, hlength, hfollow⟩ := Utf8.exists_utf8EncodeChar_cons c
      -- the whole text is too long
      have hshorter : ∀ other, other <:+ c :: cs →
          (other.flatMap String.utf8EncodeChar).length + n ≤
            ((c :: cs).flatMap String.utf8EncodeChar).length → other <:+ cs := by
        intro other hother hsize
        rcases List.suffix_cons_iff.mp hother with rfl | hother
        · omega
        · exact hother
      rcases Nat.lt_or_ge tail.length n with hbehind | hwithin
      · obtain ⟨cut, rest, hsuffix, hdrop, hcut, hshort, hlongest⟩ := ih (n - (tail.length + 1))
        refine ⟨cut, rest, hsuffix.trans (List.suffix_cons c cs), ?_, hcut, hshort,
          fun other hother hsize => hlongest other (hshorter other hother hsize) ?_⟩
        · rw [List.flatMap_cons, hencode, List.drop_append, List.length_cons,
            List.drop_eq_nil_of_le (Nat.succ_le_of_lt hbehind), hdrop, List.nil_append]
        · rw [List.flatMap_cons, hencode, List.length_append, List.length_cons] at hsize
          omega
      · obtain ⟨m, rfl⟩ : ∃ m, n = m + 1 := ⟨n - 1, by omega⟩
        refine ⟨tail.drop m, cs, List.suffix_cons c cs, ?_,
          fun b hb => hfollow b (List.mem_of_mem_drop hb), ?_, hshorter⟩
        · rw [List.flatMap_cons, hencode, List.cons_append, List.drop_succ_cons,
            List.drop_append_of_le_length (by omega)]
        · rw [List.length_drop]
          omega

-- The end of a cut character is replaced byte by byte, and all behind it is read as it was.
theorem lossy_cut {cut : Bytes} (h : ∀ b ∈ cut, Utf8.followers b = none) (rest : List Char) :
    lossy (cut ++ rest.flatMap String.utf8EncodeChar) =
      String.ofList (List.replicate cut.length Utf8.replacement) ++ String.ofList rest := by
  rw [lossy, Utf8.pieces_append h, Utf8.pieces_flatMap, ← String.ofList_append]
  simp [Function.comp_def]

theorem lossy_bytesOf (s : String) : lossy (bytesOf s) = s := by
  rw [lossy, bytesOf, Utf8.pieces_flatMap]
  simp [Function.comp_def]

theorem length_utf8EncodeChar_le (c : Char) : (String.utf8EncodeChar c).length ≤ 4 := by
  rw [String.length_utf8EncodeChar]
  exact c.utf8Size_le_four

theorem length_utf8EncodeChar_replacement :
    (String.utf8EncodeChar Utf8.replacement).length = 3 :=
  rfl

theorem lead_lt_of_followers_nil {lead : UInt8} (h : Utf8.followers lead = some []) :
    lead.toNat < 0x80 := by
  unfold Utf8.followers at h
  dsimp only at h
  split_ifs at h with hlead <;> first | exact hlead | cases h

theorem length_utf8EncodeChar_of_lt {n : ℕ} (h : n < 0x80) :
    (String.utf8EncodeChar (Char.ofNat n)).length = 1 := by
  have hall : ∀ n : Fin 128, (String.utf8EncodeChar (Char.ofNat n)).length = 1 := by
    decide +kernel
  exact hall ⟨n, h⟩

-- A piece takes at most three times as many bytes as it was read from. Only a character of four
-- bytes is longer than a replacement, and it is not read from a single byte.
theorem length_firstPiece_le (lead : UInt8) (rest : Bytes) :
    (String.utf8EncodeChar ((Utf8.firstPiece lead rest).1.getD Utf8.replacement)).length ≤
      3 * ((Utf8.firstPiece lead rest).2 + 1) := by
  unfold Utf8.firstPiece
  cases hranges : Utf8.followers lead with
  | none => exact Nat.le_refl 3
  | some ranges =>
      dsimp only
      split_ifs with hfull
      · rw [Option.getD_some]
        cases htail : Utf8.matching ranges rest with
        | nil =>
            rw [htail] at hfull
            rw [List.length_eq_zero_iff.mp hfull.symm] at hranges
            have hlead := length_utf8EncodeChar_of_lt (lead_lt_of_followers_nil hranges)
            exact hlead.trans_le (by simp)
        | cons b tail =>
            have hlength := length_utf8EncodeChar_le (Char.ofNat (Utf8.codePoint lead (b :: tail)))
            rw [List.length_cons]
            omega
      · rw [Option.getD_none, length_utf8EncodeChar_replacement]
        omega

theorem length_matching_le (ranges : List (UInt8 × UInt8)) (data : Bytes) :
    (Utf8.matching ranges data).length ≤ data.length := by
  fun_induction Utf8.matching ranges data with
  | case1 low high ranges b rest _ ih => exact Nat.succ_le_succ ih
  | case2 | case3 => exact Nat.zero_le _

theorem firstPiece_le_length (lead : UInt8) (rest : Bytes) :
    (Utf8.firstPiece lead rest).2 ≤ rest.length := by
  unfold Utf8.firstPiece
  cases Utf8.followers lead with
  | none => exact Nat.zero_le _
  | some ranges =>
      dsimp only
      split_ifs <;> exact length_matching_le ranges rest

-- No more is written than three bytes for each byte that was read.
theorem length_lossy_le (data : Bytes) : (bytesOf (lossy data)).length ≤ 3 * data.length := by
  rw [lossy, bytesOf, String.toList_ofList]
  induction data using Utf8.pieces.induct with
  | case1 => simp [Utf8.pieces]
  | case2 lead rest piece ih =>
      have hpiece := length_firstPiece_le lead rest
      have hread := firstPiece_le_length lead rest
      rw [show piece = Utf8.firstPiece lead rest from rfl, List.length_drop] at ih
      rw [Utf8.pieces, List.map_cons, List.flatMap_cons, List.length_append, List.length_cons]
      omega

end Conformance.Text
