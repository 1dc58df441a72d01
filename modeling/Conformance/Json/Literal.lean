import Conformance.Json.Fault
import Conformance.Json.Value

namespace Conformance.Json

-- A number as it is written.
structure Literal where
  negative : Bool
  whole : List Nat
  -- the digits behind the point, if there is one
  fraction : Option (List Nat)
  -- whether the power of ten is negative, and its digits
  power : Option (Bool × List Nat)

-- The first number that 64 bits cannot hold.
def wordLimit : Nat := 18446744073709551616

-- Digits are taken as long as the number they write stays below 2^64; the
-- digits from the first that would pass the limit are left over.
def takeDigits (limit : Nat) : Nat → List Nat → Nat × List Nat
  | n, [] => (n, [])
  | n, d :: rest =>
      if n * 10 + d < limit then takeDigits limit (n * 10 + d) rest else (n, d :: rest)

def isInfinite (x : Float) : Bool :=
  x.isInf

def powerOfTen (n : Nat) : Float :=
  Float.ofScientific 1 false n

-- Very small powers are reached by steps of 10^308, until nothing is left.
def scaleDown (x : Float) (steps : Nat) (power : Nat) : Float :=
  match steps with
  | 0 => x
  | steps + 1 =>
      if power ≤ 308 then x / powerOfTen power
      else if x == 0.0 then x
      else scaleDown (x / powerOfTen 308) steps (power - 308)

def scaled (significand : Nat) (power : Int) : Except Fault Float :=
  let x := significand.toUInt64.toFloat
  if 0 ≤ power then
    if power ≤ 308 then
      let y := x * powerOfTen power.toNat
      if isInfinite y then .error .numberRange else .ok y
    else if x == 0.0 then .ok x
    else .error .numberRange
  else .ok (scaleDown x 5 power.natAbs)

def signed (negative : Bool) (x : Float) : Number :=
  .float (if negative then -x else x)

def Literal.floatOf (l : Literal) (significand : Nat) (shift : Int) : Except Fault Number :=
  match l.power with
  | none => (scaled significand shift).map (signed l.negative)
  | some (down, digits) =>
      match takeDigits 2147483648 0 digits with
      | (n, []) =>
          (scaled significand (if down then shift - n else shift + n)).map (signed l.negative)
      | (_, _ :: _) =>
          if significand ≠ 0 ∧ !down then .error .numberRange else .ok (signed l.negative 0.0)

-- A whole number that fits stays whole. Otherwise the leading digits that fit
-- 64 bits are scaled by the power of ten; further digits behind the point are
-- dropped.
def Literal.number (l : Literal) : Except Fault Number :=
  let (n, left) := takeDigits wordLimit 0 l.whole
  match left, l.fraction, l.power with
  | [], none, none =>
      if !l.negative then .ok (.int n)
      else if n ≠ 0 ∧ n ≤ 9223372036854775808 then .ok (.int (-n))
      else .ok (signed true n.toUInt64.toFloat)
  | left, none, _ => l.floatOf n left.length
  | left, some digits, _ =>
      let (m, rest) := takeDigits wordLimit n digits
      l.floatOf m ((left.length : Int) - (digits.length - rest.length : Nat))

end Conformance.Json
