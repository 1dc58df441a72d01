import Conformance.Text.Utf8
import Mathlib.Data.Nat.Nth
import Mathlib.Data.Nat.NthRoot.Defs
import Mathlib.Data.Nat.Prime.Defs

namespace Conformance.Sha256.Standard

open Text (Bytes)

-- The hash in the terms of its standard: a message is a string of bits, the words of a padded
-- message are counted through, and the constants are told by the numbers that they come from.

abbrev Word := BitVec 32

section Messages

-- The last bits of a number, the most significant first.
def bitsOf : ℕ → ℕ → List Bool
  | 0, _ => []
  | width + 1, n => n.testBit width :: bitsOf width n

def numberOf : List Bool → ℕ
  | [] => 0
  | bit :: rest => bit.toNat * 2 ^ rest.length + numberOf rest

def messageOf (data : Bytes) : List Bool :=
  data.flatMap fun byte => bitsOf 8 byte.toNat

theorem exists_zeros (length : ℕ) : ∃ zeros, (length + 1 + zeros) % 512 = 448 :=
  ⟨959 - length % 512, by omega⟩

-- The fewest zeros behind a message and a one that leave room for its length at the end of a
-- block of 512 bits.
def zeros (length : ℕ) : ℕ :=
  Nat.find (exists_zeros length)

def padded (message : List Bool) : List Bool :=
  message ++ true :: (List.replicate (zeros message.length) false ++ bitsOf 64 message.length)

def wordAt (bits : List Bool) (n : ℕ) : Word :=
  BitVec.ofNat 32 (numberOf ((bits.drop (32 * n)).take 32))

end Messages

section Functions

def ch (x y z : Word) : Word :=
  (x &&& y) ^^^ (~~~x &&& z)

def maj (x y z : Word) : Word :=
  (x &&& y) ^^^ (x &&& z) ^^^ (y &&& z)

def upperSigma0 (x : Word) : Word :=
  x.rotateRight 2 ^^^ x.rotateRight 13 ^^^ x.rotateRight 22

def upperSigma1 (x : Word) : Word :=
  x.rotateRight 6 ^^^ x.rotateRight 11 ^^^ x.rotateRight 25

def lowerSigma0 (x : Word) : Word :=
  x.rotateRight 7 ^^^ x.rotateRight 18 ^^^ (x >>> 3)

def lowerSigma1 (x : Word) : Word :=
  x.rotateRight 17 ^^^ x.rotateRight 19 ^^^ (x >>> 10)

-- The first bits of the fraction of a root.
def rootFraction (degree n : ℕ) : Word :=
  BitVec.ofNat 32 (Nat.nthRoot degree (n * 2 ^ (32 * degree)))

noncomputable def roundConstant (t : ℕ) : Word :=
  rootFraction 3 (Nat.nth Nat.Prime t)

end Functions

section Blocks

-- The words of a block, spread to one for each round.
def schedule (words : ℕ → Word) (t : ℕ) : Word :=
  if t < 16 then words t
  else lowerSigma1 (schedule words (t - 2)) + schedule words (t - 7) +
    lowerSigma0 (schedule words (t - 15)) + schedule words (t - 16)
termination_by t

structure Variables where
  a : Word
  b : Word
  c : Word
  d : Word
  e : Word
  f : Word
  g : Word
  h : Word
deriving DecidableEq, Repr

namespace Variables

def add (v w : Variables) : Variables :=
  ⟨v.a + w.a, v.b + w.b, v.c + w.c, v.d + w.d, v.e + w.e, v.f + w.f, v.g + w.g, v.h + w.h⟩

def step (v : Variables) (constant word : Word) : Variables :=
  let t1 := v.h + upperSigma1 v.e + ch v.e v.f v.g + constant + word
  let t2 := upperSigma0 v.a + maj v.a v.b v.c
  ⟨t1 + t2, v.a, v.b, v.c, v.d + t1, v.e, v.f, v.g⟩

def joined (v : Variables) : BitVec 256 :=
  v.a ++ v.b ++ v.c ++ v.d ++ v.e ++ v.f ++ v.g ++ v.h

end Variables

noncomputable def rounds (words : ℕ → Word) (v : Variables) : ℕ → Variables
  | 0 => v
  | t + 1 => (rounds words v t).step (roundConstant t) (words t)

noncomputable def initialPart (j : ℕ) : Word :=
  rootFraction 2 (Nat.nth Nat.Prime j)

noncomputable def initial : Variables :=
  ⟨initialPart 0, initialPart 1, initialPart 2, initialPart 3, initialPart 4, initialPart 5,
    initialPart 6, initialPart 7⟩

-- The hash value behind some blocks of a padded message.
noncomputable def hashValue (bits : List Bool) : ℕ → Variables
  | 0 => initial
  | i + 1 =>
      (rounds (schedule fun t => wordAt bits (16 * i + t)) (hashValue bits i) 64).add
        (hashValue bits i)

noncomputable def digest (data : Bytes) : BitVec 256 :=
  let bits := padded (messageOf data)
  (hashValue bits (bits.length / 512)).joined

-- Lower case digits, with zeros in front of them up to all that the digest can have.
def hexText (digest : BitVec 256) : String :=
  String.ofList (List.leftpad 64 '0' (Nat.toDigits 16 digest.toNat))

end Blocks

end Conformance.Sha256.Standard
