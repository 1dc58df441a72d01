import Conformance.Text.Lines
import Conformance.Text.Utf8

namespace Conformance.Sha256

open Text (Bytes)

def roundConstants : List UInt32 := [
  0x428a2f98, 0x71374491, 0xb5c0fbcf, 0xe9b5dba5, 0x3956c25b, 0x59f111f1, 0x923f82a4, 0xab1c5ed5,
  0xd807aa98, 0x12835b01, 0x243185be, 0x550c7dc3, 0x72be5d74, 0x80deb1fe, 0x9bdc06a7, 0xc19bf174,
  0xe49b69c1, 0xefbe4786, 0x0fc19dc6, 0x240ca1cc, 0x2de92c6f, 0x4a7484aa, 0x5cb0a9dc, 0x76f988da,
  0x983e5152, 0xa831c66d, 0xb00327c8, 0xbf597fc7, 0xc6e00bf3, 0xd5a79147, 0x06ca6351, 0x14292967,
  0x27b70a85, 0x2e1b2138, 0x4d2c6dfc, 0x53380d13, 0x650a7354, 0x766a0abb, 0x81c2c92e, 0x92722c85,
  0xa2bfe8a1, 0xa81a664b, 0xc24b8b70, 0xc76c51a3, 0xd192e819, 0xd6990624, 0xf40e3585, 0x106aa070,
  0x19a4c116, 0x1e376c08, 0x2748774c, 0x34b0bcb5, 0x391c0cb3, 0x4ed8aa4a, 0x5b9cca4f, 0x682e6ff3,
  0x748f82ee, 0x78a5636f, 0x84c87814, 0x8cc70208, 0x90befffa, 0xa4506ceb, 0xbef9a3f7, 0xc67178f2]

def blockBytes : Nat := 64

-- The eight words of the chaining value.
structure Hash where
  a : UInt32
  b : UInt32
  c : UInt32
  d : UInt32
  e : UInt32
  f : UInt32
  g : UInt32
  h : UInt32
deriving DecidableEq, Repr

def Hash.first : Hash :=
  ⟨0x6a09e667, 0xbb67ae85, 0x3c6ef372, 0xa54ff53a, 0x510e527f, 0x9b05688c, 0x1f83d9ab, 0x5be0cd19⟩

def rotateRight (x : UInt32) (n : UInt32) : UInt32 :=
  (x >>> n) ||| (x <<< (32 - n))

def choose (x y z : UInt32) : UInt32 :=
  (x &&& y) ^^^ (~~~x &&& z)

def majority (x y z : UInt32) : UInt32 :=
  (x &&& y) ^^^ (x &&& z) ^^^ (y &&& z)

def bigSigma0 (x : UInt32) : UInt32 :=
  rotateRight x 2 ^^^ rotateRight x 13 ^^^ rotateRight x 22

def bigSigma1 (x : UInt32) : UInt32 :=
  rotateRight x 6 ^^^ rotateRight x 11 ^^^ rotateRight x 25

def smallSigma0 (x : UInt32) : UInt32 :=
  rotateRight x 7 ^^^ rotateRight x 18 ^^^ (x >>> 3)

def smallSigma1 (x : UInt32) : UInt32 :=
  rotateRight x 17 ^^^ rotateRight x 19 ^^^ (x >>> 10)

def wordOf (a b c d : UInt8) : UInt32 :=
  (a.toUInt32 <<< 24) ||| (b.toUInt32 <<< 16) ||| (c.toUInt32 <<< 8) ||| d.toUInt32

-- Four bytes a word, the most significant first.
def wordsOf : Bytes → List UInt32
  | a :: b :: c :: d :: rest => wordOf a b c d :: wordsOf rest
  | _ => []

def bytesOfWord (x : UInt32) : Bytes :=
  [(x >>> 24).toUInt8, (x >>> 16).toUInt8, (x >>> 8).toUInt8, x.toUInt8]

-- Sixteen words of a block, the latest first, extended one at a time.
def extend : Nat → List UInt32 → List UInt32
  | 0, words => words
  | n + 1, words =>
      let word (i : Nat) : UInt32 := words.getD i 0
      extend n ((smallSigma1 (word 1) + word 6 + smallSigma0 (word 14) + word 15) :: words)

-- The sixty-four words that a block is spread to.
def schedule (block : Bytes) : List UInt32 :=
  (extend 48 (wordsOf block).reverse).reverse

def mix (s : Hash) (constant word : UInt32) : Hash :=
  let t1 := s.h + bigSigma1 s.e + choose s.e s.f s.g + constant + word
  let t2 := bigSigma0 s.a + majority s.a s.b s.c
  ⟨t1 + t2, s.a, s.b, s.c, s.d + t1, s.e, s.f, s.g⟩

def Hash.add (x y : Hash) : Hash :=
  ⟨x.a + y.a, x.b + y.b, x.c + y.c, x.d + y.d, x.e + y.e, x.f + y.f, x.g + y.g, x.h + y.h⟩

-- The chaining value after one block.
def compress (hash : Hash) (block : Bytes) : Hash :=
  hash.add ((roundConstants.zip (schedule block)).foldl (fun s p => mix s p.1 p.2) hash)

-- All whole blocks of a byte string are compressed; what is left over follows.
def compressBlocks (hash : Hash) (data : Bytes) : Hash × Bytes :=
  if data.length < blockBytes then (hash, data)
  else compressBlocks (compress hash (data.take blockBytes)) (data.drop blockBytes)
termination_by data.length
decreasing_by simp only [blockBytes] at *; simp only [List.length_drop]; omega

def lengthBytes (bits : Nat) : Bytes :=
  (List.range 8).map fun i => (bits / Nat.pow 256 (7 - i) % 256).toUInt8

-- What follows a message: a bit, zeros up to the last eight bytes of a block,
-- and the length of the message in bits.
def padding (length : Nat) : Bytes :=
  let zeros := (119 - length % blockBytes) % blockBytes
  0x80 :: List.replicate zeros 0 ++ lengthBytes (length * 8)

def Hash.bytes (s : Hash) : Bytes :=
  [s.a, s.b, s.c, s.d, s.e, s.f, s.g, s.h].flatMap bytesOfWord

-- The digest of a whole message.
def digest (data : Bytes) : Bytes :=
  (compressBlocks Hash.first (data ++ padding data.length)).1.bytes

-- A digest in the making: the chaining value, the bytes that do not fill a
-- block yet, and the count of all bytes.
structure State where
  hash : Hash
  pending : Bytes
  length : Nat

def State.start : State :=
  ⟨Hash.first, [], 0⟩

def State.update (s : State) (chunk : Bytes) : State :=
  let (hash, pending) := compressBlocks s.hash (s.pending ++ chunk)
  ⟨hash, pending, s.length + chunk.length⟩

def State.finish (s : State) : Bytes :=
  (compressBlocks s.hash (s.pending ++ padding s.length)).1.bytes

-- Takes in what one read after the other brings. A read that brings nothing is
-- the end.
def State.readAll (s : State) : List Bytes → State
  | [] => s
  | chunk :: rest => if chunk.isEmpty then s else (s.update chunk).readAll rest

-- Digest and size of what is read.
def digestReads (reads : List Bytes) : String × Nat :=
  let s := State.start.readAll reads
  (Text.hexOfBytes s.finish, s.length)

def readBytes : Nat := 8192

-- The chunks in which a file is read.
def chunksOf : Bytes → List Bytes
  | [] => []
  | b :: rest => (b :: rest).take readBytes :: chunksOf ((b :: rest).drop readBytes)
termination_by data => data.length
decreasing_by simp only [List.length_drop, List.length_cons, readBytes]; omega

-- Digest and size of a file's content.
def fileDigest (data : Bytes) : String × Nat :=
  digestReads (chunksOf data ++ [[]])

end Conformance.Sha256
