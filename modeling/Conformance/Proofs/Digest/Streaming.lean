import Conformance.Digest.Sha256

namespace Conformance.Sha256

open Text (Bytes)

theorem compressBlocks_of_lt {hash : Hash} {data : Bytes} (h : data.length < blockBytes) :
    compressBlocks hash data = (hash, data) := by
  rw [compressBlocks, if_pos h]

theorem compressBlocks_of_le {hash : Hash} {data : Bytes} (h : blockBytes ≤ data.length) :
    compressBlocks hash data =
      compressBlocks (compress hash (data.take blockBytes)) (data.drop blockBytes) := by
  rw [compressBlocks, if_neg (Nat.not_lt.mpr h)]

-- What is left over by one part of a byte string comes before the next part.
theorem compressBlocks_append (hash : Hash) (xs ys : Bytes) :
    compressBlocks hash (xs ++ ys) =
      compressBlocks (compressBlocks hash xs).1 ((compressBlocks hash xs).2 ++ ys) := by
  induction hash, xs using compressBlocks.induct with
  | case1 hash xs hshort => rw [compressBlocks_of_lt hshort]
  | case2 hash xs hlong ih =>
      have hle : blockBytes ≤ xs.length := Nat.le_of_not_lt hlong
      have hle' : blockBytes ≤ (xs ++ ys).length := by
        rw [List.length_append]
        exact Nat.le_add_right_of_le hle
      rw [compressBlocks_of_le hle', List.take_append_of_le_length hle,
        List.drop_append_of_le_length hle, ih, compressBlocks_of_le hle]

namespace State

-- The state of a digest behind some data, however that was cut.
def behind (data : Bytes) : State :=
  ⟨(compressBlocks Hash.first data).1, (compressBlocks Hash.first data).2, data.length⟩

theorem behind_nil : behind [] = start := by
  rw [behind, compressBlocks_of_lt (by decide)]
  rfl

theorem update_behind (data chunk : Bytes) :
    (behind data).update chunk = behind (data ++ chunk) := by
  have hblocks := compressBlocks_append Hash.first data chunk
  simp only [behind, update, hblocks, List.length_append]

theorem readAll_behind (data : Bytes) {chunks : List Bytes} (h : ∀ chunk ∈ chunks, chunk ≠ [])
    (more : List Bytes) :
    (behind data).readAll (chunks ++ [] :: more) = behind (data ++ chunks.flatten) := by
  induction chunks generalizing data with
  | nil =>
      rw [List.flatten_nil, List.append_nil]
      rfl
  | cons chunk rest ih =>
      have hfull : ¬chunk.isEmpty = true := by
        simpa using h chunk List.mem_cons_self
      rw [List.cons_append, readAll, if_neg hfull, update_behind,
        ih _ fun other hother => h other (List.mem_cons_of_mem chunk hother), List.flatten_cons,
        List.append_assoc]

theorem finish_behind (data : Bytes) : (behind data).finish = digest data := by
  rw [digest, compressBlocks_append]
  rfl

end State

-- However reads cut a message, they come to its digest and its length.
theorem digestReads_eq {chunks : List Bytes} (h : ∀ chunk ∈ chunks, chunk ≠ [])
    (more : List Bytes) : digestReads (chunks ++ [] :: more) =
      (Text.hexOfBytes (digest chunks.flatten), chunks.flatten.length) := by
  have hread := State.readAll_behind [] h more
  rw [State.behind_nil, List.nil_append] at hread
  rw [digestReads, hread, State.finish_behind]
  rfl

theorem flatten_chunksOf (data : Bytes) : (chunksOf data).flatten = data := by
  induction data using chunksOf.induct with
  | case1 => rw [chunksOf, List.flatten_nil]
  | case2 b rest ih => rw [chunksOf, List.flatten_cons, ih, List.take_append_drop]

theorem bounds_of_mem_chunksOf {data chunk : Bytes} (h : chunk ∈ chunksOf data) :
    chunk ≠ [] ∧ chunk.length ≤ readBytes := by
  induction data using chunksOf.induct with
  | case1 =>
      rw [chunksOf] at h
      cases h
  | case2 b rest ih =>
      rw [chunksOf] at h
      rcases List.mem_cons.mp h with rfl | h
      · exact ⟨nofun, List.length_take_le readBytes (b :: rest)⟩
      · exact ih h

theorem fileDigest_eq (data : Bytes) :
    fileDigest data = (Text.hexOfBytes (digest data), data.length) := by
  rw [fileDigest, digestReads_eq fun chunk hchunk => (bounds_of_mem_chunksOf hchunk).1,
    flatten_chunksOf]

end Conformance.Sha256
