import Conformance.Process.Invoker
import Conformance.Proofs.Text.Cutting

namespace Conformance

open Text (Bytes bytesOf)

-- The longest end of a text that takes at most so many bytes.
structure Text.IsLongestEnd (s : String) (limit : ℕ) (t : String) : Prop where
  isSuffix : t.toList <:+ s.toList
  within : (bytesOf t).length ≤ limit
  longest : ∀ u : String, u.toList <:+ s.toList → (bytesOf u).length ≤ limit →
    u.toList <:+ t.toList

theorem tailOf_of_length_le {s : String} {limit : ℕ} (h : (bytesOf s).length ≤ limit) :
    tailOf limit (bytesOf s) = s := by
  rw [tailOf, if_neg (Nat.not_lt.mpr h), Text.lossy_bytesOf]

theorem exists_tailOf_eq {s : String} {limit : ℕ} (h : limit < (bytesOf s).length) :
    ∃ k t, Text.IsLongestEnd s limit t ∧ k + (bytesOf t).length = limit ∧ k ≤ 3 ∧
      tailOf limit (bytesOf s) =
        "[...truncated]\n" ++ String.ofList (List.replicate k '\uFFFD') ++ t := by
  obtain ⟨cut, rest, hsuffix, hdrop, hfollow, hshort, hlongest⟩ :=
    Text.exists_cut s.toList ((bytesOf s).length - limit)
  have hlength := congrArg List.length hdrop
  rw [List.length_drop, List.length_append] at hlength
  have hbytes : bytesOf (String.ofList rest) = rest.flatMap String.utf8EncodeChar := by
    rw [bytesOf, String.toList_ofList]
  unfold bytesOf at h hdrop hlength hlongest ⊢
  refine ⟨cut.length, String.ofList rest, ⟨?_, ?_, fun u hu hfits => ?_⟩, ?_, hshort, ?_⟩
  · rwa [String.toList_ofList]
  · rw [hbytes]
    omega
  · rw [String.toList_ofList]
    exact hlongest u.toList hu (by unfold bytesOf at hfits; omega)
  · rw [String.toList_ofList]
    omega
  · rw [tailOf, if_pos h, hdrop, Text.lossy_cut hfollow, String.append_assoc]
    rfl

theorem length_tailOf_le (limit : ℕ) (data : Bytes) :
    (bytesOf (tailOf limit data)).length ≤ 15 + 3 * limit := by
  unfold tailOf
  split_ifs with h
  · have hlossy := Text.length_lossy_le (data.drop (data.length - limit))
    have hmark : (bytesOf truncationMark).length = 15 := by decide +kernel
    rw [Text.bytesOf_append, List.length_append, hmark]
    rw [List.length_drop] at hlossy
    omega
  · have hlossy := Text.length_lossy_le data
    omega

-- A capture is kept whole, or cut in front so that at most the end of one character is lost to
-- the cut, and that is replaced byte by byte. What was no text is bounded as well.
theorem captureTail_cuts_safely (t : Tree) (cwd : Place) (p : Path) (limit : ℕ) :
    (∀ s, t.readBytes cwd p = .ok (bytesOf s) →
      ((bytesOf s).length ≤ limit → captureTail t cwd p limit = s) ∧
      (limit < (bytesOf s).length → ∃ k rest, Text.IsLongestEnd s limit rest ∧
        k + (bytesOf rest).length = limit ∧ k ≤ 3 ∧
        captureTail t cwd p limit =
          "[...truncated]\n" ++ String.ofList (List.replicate k '\uFFFD') ++ rest)) ∧
    (bytesOf (captureTail t cwd p limit)).length ≤ 15 + 3 * limit := by
  refine ⟨fun s hread => ?_, ?_⟩
  · have htail : captureTail t cwd p limit = tailOf limit (bytesOf s) := by
      rw [captureTail, hread]
    rw [htail]
    exact ⟨tailOf_of_length_le, exists_tailOf_eq⟩
  · unfold captureTail
    cases t.readBytes cwd p with
    | ok data => exact length_tailOf_le limit data
    | error e => exact Nat.zero_le _

-- A cut between the two bytes of a character, and one behind the first of four bytes.
def twoCharacters : Tree :=
  ⟨[(["out"], .file (bytesOf "é😀") false)]⟩

example : captureTail twoCharacters [] "/out" 5 = "[...truncated]\n\uFFFD😀" := by
  decide +kernel

theorem captureTail_cuts_safely_withinCharacter :
    twoCharacters.readBytes [] "/out" = .ok (bytesOf "é😀") ∧ 3 < (bytesOf "é😀").length ∧
      (∃ k rest, Text.IsLongestEnd "é😀" 3 rest ∧ k + (bytesOf rest).length = 3 ∧ k ≤ 3 ∧
        captureTail twoCharacters [] "/out" 3 =
          "[...truncated]\n" ++ String.ofList (List.replicate k '\uFFFD') ++ rest) ∧
      captureTail twoCharacters [] "/out" 6 = "é😀" := by
  have hread : twoCharacters.readBytes [] "/out" = .ok (bytesOf "é😀") := by decide +kernel
  have hlong : 3 < (bytesOf "é😀").length := by decide +kernel
  exact ⟨hread, hlong,
    ((captureTail_cuts_safely twoCharacters [] "/out" 3).1 "é😀" hread).2 hlong,
    ((captureTail_cuts_safely twoCharacters [] "/out" 6).1 "é😀" hread).1 (by decide +kernel)⟩

end Conformance
