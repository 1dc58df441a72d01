import Conformance.Proofs.Digest.Rounds
import Conformance.Proofs.Digest.Streaming
import Conformance.Proofs.Text.Decimals

namespace Conformance.Sha256

open Standard
open Text (Bytes)

section Blocks

-- The words of a block are all that its schedule comes from.
theorem schedule_congr {words words' : ℕ → Word} (h : ∀ t < 16, words t = words' t) :
    Standard.schedule words = Standard.schedule words' := by
  funext t
  induction t using Nat.strong_induction_on with
  | _ t ih =>
      by_cases ht : t < 16
      · rw [schedule_of_lt ht, schedule_of_lt ht, h t ht]
      · have hle : 16 ≤ t := Nat.le_of_not_lt ht
        rw [schedule_of_le hle, schedule_of_le hle, ih (t - 2) (by omega), ih (t - 7) (by omega),
          ih (t - 15) (by omega), ih (t - 16) (by omega)]

-- The words of a block are those of the whole, counted from the beginning of the block.
theorem wordAt_block (data : Bytes) (i : ℕ) {t : ℕ} (ht : t < 16) :
    wordAt (messageOf ((data.drop (blockBytes * i)).take blockBytes)) t =
      wordAt (messageOf data) (16 * i + t) := by
  have hpart : (((data.drop (blockBytes * i)).take blockBytes).drop (4 * t)).take 4 =
      (data.drop (4 * (16 * i + t))).take 4 := by
    have hindex : blockBytes * i + 4 * t = 4 * (16 * i + t) := by
      unfold blockBytes
      omega
    have hwithin : min 4 (blockBytes - 4 * t) = 4 := by
      unfold blockBytes
      omega
    rw [List.drop_take, List.take_take, List.drop_drop, hindex, hwithin]
  rw [wordAt_messageOf, wordAt_messageOf, hpart]

-- The blocks of a message are taken in one by one.
theorem exists_compressBlocks_eq (data : Bytes) {i : ℕ} (h : blockBytes * i ≤ data.length) :
    ∃ s, s.variables = hashValue (messageOf data) i ∧
      compressBlocks Hash.first data = compressBlocks s (data.drop (blockBytes * i)) := by
  induction i with
  | zero => exact ⟨Hash.first, variables_first, rfl⟩
  | succ i ih =>
      rw [Nat.mul_succ] at h
      obtain ⟨s, hs, heq⟩ := ih (by omega)
      have hlong : blockBytes ≤ (data.drop (blockBytes * i)).length := by
        rw [List.length_drop]
        omega
      refine ⟨compress s ((data.drop (blockBytes * i)).take blockBytes), ?_, ?_⟩
      · rw [variables_compress s (List.length_take_of_le hlong), hs, hashValue,
          schedule_congr fun t ht => wordAt_block data i ht]
      · rw [heq, compressBlocks_of_le hlong, List.drop_drop, Nat.mul_succ]

theorem exists_digest_eq (data : Bytes) :
    ∃ s : Hash, digest data = s.bytes ∧ Standard.digest data = s.variables.joined := by
  obtain ⟨count, hcount⟩ := blockBytes_dvd_length_append_padding data
  obtain ⟨s, hs, heq⟩ := exists_compressBlocks_eq (data ++ padding data.length) hcount.ge
  have hblocks : (padded (messageOf data)).length / 512 = count := by
    rw [← messageOf_append_padding, length_messageOf, hcount]
    unfold blockBytes
    omega
  refine ⟨s, ?_, ?_⟩
  · rw [digest, heq, ← hcount, List.drop_length, compressBlocks_of_lt (by decide)]
  · rw [Standard.digest, hblocks, ← messageOf_append_padding, hs]

end Blocks

section Digits

theorem numberOf_messageOf_append (xs ys : Bytes) : numberOf (messageOf (xs ++ ys)) =
    numberOf (messageOf xs) * 2 ^ (8 * ys.length) + numberOf (messageOf ys) := by
  rw [messageOf_append, numberOf_append, length_messageOf]

theorem toNat_toUInt8_shiftRight (x : UInt32) {n : UInt32} (h : n.toNat < 32) :
    (x >>> n).toUInt8.toNat = x.toNat / 2 ^ n.toNat % 256 := by
  rw [UInt32.toNat_toUInt8, UInt32.toNat_shiftRight, Nat.mod_eq_of_lt h, Nat.shiftRight_eq_div_pow]

theorem numberOf_bytesOfWord (x : UInt32) : numberOf (messageOf (bytesOfWord x)) = x.toNat := by
  have hx := x.toNat_lt
  have hnil : numberOf (messageOf []) = 0 := rfl
  have h24 : (x >>> 24).toUInt8.toNat = x.toNat / 2 ^ 24 % 256 :=
    toNat_toUInt8_shiftRight x (by decide)
  have h16 : (x >>> 16).toUInt8.toNat = x.toNat / 2 ^ 16 % 256 :=
    toNat_toUInt8_shiftRight x (by decide)
  have h8 : (x >>> 8).toUInt8.toNat = x.toNat / 2 ^ 8 % 256 :=
    toNat_toUInt8_shiftRight x (by decide)
  have h0 : x.toUInt8.toNat = x.toNat % 256 := UInt32.toNat_toUInt8 x
  simp only [bytesOfWord, numberOf_messageOf_cons, hnil, h24, h16, h8, h0, List.length_cons,
    List.length_nil]
  omega

theorem toNat_append_word {width : ℕ} (front : BitVec width) (word : Word) :
    (front ++ word).toNat = front.toNat * 2 ^ 32 + word.toNat := by
  rw [BitVec.toNat_append, ← Nat.shiftLeft_add_eq_or_of_lt word.isLt, Nat.shiftLeft_eq]

theorem numberOf_messageOf_word (front : Bytes) (x : UInt32) :
    numberOf (messageOf (front ++ bytesOfWord x)) =
      numberOf (messageOf front) * 2 ^ 32 + x.toNat := by
  rw [numberOf_messageOf_append, numberOf_bytesOfWord]
  rfl

theorem toNat_joined (s : Hash) : s.variables.joined.toNat = numberOf (messageOf s.bytes) := by
  have hbytes : s.bytes = [] ++ bytesOfWord s.a ++ bytesOfWord s.b ++ bytesOfWord s.c ++
      bytesOfWord s.d ++ bytesOfWord s.e ++ bytesOfWord s.f ++ bytesOfWord s.g ++
      bytesOfWord s.h := rfl
  have hnil : numberOf (messageOf []) = 0 := rfl
  rw [hbytes]
  simp only [numberOf_messageOf_word, hnil, Nat.zero_mul, Nat.zero_add, Variables.joined,
    toNat_append_word]
  rfl

theorem lowerHexDigit_eq {n : ℕ} (h : n < 16) : Text.lowerHexDigit n = n.digitChar := by
  interval_cases n <;> rfl

-- Two digits for each byte are the digits of the whole number.
theorem flatMap_hexOfByte (data : Bytes) : data.flatMap Text.hexOfByte =
    Text.lastDigits 16 (2 * data.length) (numberOf (messageOf data)) := by
  induction data using List.reverseRecOn with
  | nil => rfl
  | append_singleton data byte ih =>
      have hbyte := byte.toNat_lt
      have hnumber : numberOf (messageOf (data ++ [byte])) =
          numberOf (messageOf data) * 256 + byte.toNat := by
        have hlast : numberOf (messageOf [byte]) = byte.toNat := by
          rw [numberOf_messageOf_cons]
          exact Nat.mul_one byte.toNat
        rw [numberOf_messageOf_append, hlast]
        rfl
      have hfront : (numberOf (messageOf data) * 256 + byte.toNat) / 16 / 16 =
          numberOf (messageOf data) := by omega
      have hhigh : (numberOf (messageOf data) * 256 + byte.toNat) / 16 % 16 = byte.toNat / 16 := by
        omega
      have hlow : (numberOf (messageOf data) * 256 + byte.toNat) % 16 = byte.toNat % 16 := by omega
      rw [List.flatMap_append, ih, List.flatMap_singleton, List.length_append, List.length_singleton,
        Nat.mul_succ, Text.lastDigits, Text.lastDigits, hnumber, hfront, hhigh, hlow, Text.hexOfByte,
        lowerHexDigit_eq (by omega), lowerHexDigit_eq (by omega), List.append_assoc]
      rfl

theorem hexText_eq (value : BitVec 256) :
    hexText value = String.ofList (Text.lastDigits 16 64 value.toNat) := by
  have hfits : value.toNat < 16 ^ 64 := value.isLt
  rw [hexText, Text.leftpad_toDigits (by decide) hfits (by decide)]

theorem hexOfBytes_digest (data : Bytes) :
    Text.hexOfBytes (digest data) = hexText (Standard.digest data) := by
  obtain ⟨s, hbytes, hjoined⟩ := exists_digest_eq data
  rw [hbytes, hjoined, hexText_eq, Text.hexOfBytes, flatMap_hexOfByte, toNat_joined]
  rfl

theorem length_hexText (value : BitVec 256) : (hexText value).length = 64 := by
  rw [hexText_eq, String.length_ofList, Text.length_lastDigits]

theorem mem_hexText {value : BitVec 256} {c : Char} (h : c ∈ (hexText value).toList) :
    c ∈ "0123456789abcdef".toList := by
  rw [hexText_eq, String.toList_ofList] at h
  obtain ⟨n, hn, rfl⟩ := Text.exists_of_mem_lastDigits (by decide) h
  interval_cases n <;> decide

end Digits

-- Whatever reads a file comes in, what is told of it is the standard's digest of all its bytes,
-- with every digit that the digest can have, and how many bytes these are.
theorem digestReads_conforms (content : Bytes) :
    (∀ chunks more : List Bytes, (∀ chunk ∈ chunks, chunk ≠ []) → chunks.flatten = content →
      digestReads (chunks ++ [] :: more) = (hexText (Standard.digest content), content.length)) ∧
    fileDigest content = (hexText (Standard.digest content), content.length) ∧
    (fileDigest content).1.length = 64 ∧
    ∀ c ∈ (fileDigest content).1.toList, c ∈ "0123456789abcdef".toList := by
  have hfile : fileDigest content = (hexText (Standard.digest content), content.length) := by
    rw [fileDigest_eq, hexOfBytes_digest]
  refine ⟨fun chunks more hfull hcontent => ?_, hfile, ?_, fun c hc => ?_⟩
  · rw [digestReads_eq hfull, hcontent, hexOfBytes_digest]
  · rw [hfile, length_hexText]
  · rw [hfile] at hc
    exact mem_hexText hc

-- The first read does not end with a block, and the last block holds one byte of the message.
theorem digestReads_conforms_acrossBlocks :
    digestReads [List.replicate 55 0x61, List.replicate 9 0x61, [0x62], []] =
        (hexText (Standard.digest (List.replicate 64 0x61 ++ [0x62])), 65) ∧
      hexText (Standard.digest (List.replicate 64 0x61 ++ [0x62])) =
        "3e63da2d835edc34e3bca8eef3a454427eae1b01381bbc01c6ca812e1066d660" := by
  have hreads :
      digestReads [List.replicate 55 0x61, List.replicate 9 0x61, [0x62], []] =
        (hexText (Standard.digest (List.replicate 64 0x61 ++ [0x62])), 65) :=
    (digestReads_conforms (List.replicate 64 0x61 ++ [0x62])).1
      [List.replicate 55 0x61, List.replicate 9 0x61, [0x62]] [] (by decide) (by decide)
  have hvalue :
      (digestReads [List.replicate 55 0x61, List.replicate 9 0x61, [0x62], []]).1 =
        "3e63da2d835edc34e3bca8eef3a454427eae1b01381bbc01c6ca812e1066d660" := by
    decide +kernel
  refine ⟨hreads, ?_⟩
  rw [← hvalue, hreads]

-- A digest whose first digits are zeros has them all the same.
example : fileDigest [0x32, 0x38, 0x36] =
    ("00328ce57bbc14b33bd6695bc8eb32cdf2fb5f3a7d89ec14a42825e15d39df60", 3) := by
  decide +kernel

end Conformance.Sha256
