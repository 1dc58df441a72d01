import Conformance.Decimal.Shortest

namespace Conformance.Decimal

-- A number that is not negative, as a quotient.
structure Ratio where
  numerator : Nat
  denominator : Nat
deriving DecidableEq, Repr

-- The whole number next to a quotient. A tie goes to the even one.
def roundDiv (numerator denominator : Nat) : Nat :=
  let below := numerator / denominator
  let remainder := numerator % denominator
  if 2 * remainder < denominator then below
  else if denominator < 2 * remainder then below + 1
  else if below % 2 = 0 then below else below + 1

namespace Ratio

def scaled (r : Ratio) (base : Nat) (power : Int) : Ratio :=
  ⟨r.numerator * Nat.pow base power.toNat, r.denominator * Nat.pow base (-power).toNat⟩

-- The next number whose significand has so many binary digits.
def toBinary (bits : Nat) (r : Ratio) : Ratio :=
  if r.numerator = 0 then r
  else
    let size : Int := (Nat.log2 r.numerator : Int) - Nat.log2 r.denominator
    let power : Int := (bits : Int) - 1 - size
    let guess := r.scaled 2 power
    let power := if guess.numerator / guess.denominator < Nat.pow 2 (bits - 1) then power + 1
      else power
    let s := r.scaled 2 power
    (⟨roundDiv s.numerator s.denominator, 1⟩ : Ratio).scaled 2 (-power)

-- The digits with so many places behind the point.
def fixedText (places : Nat) (r : Ratio) : String :=
  let digits := toString (roundDiv (r.numerator * Nat.pow 10 places) r.denominator)
  let cs := List.replicate (places + 1 - digits.length) '0' ++ digits.toList
  let whole := String.ofList (cs.take (cs.length - places))
  if places = 0 then whole else whole ++ "." ++ String.ofList (cs.drop (cs.length - places))

-- The digits of which one stands before the point, and the power of ten.
def leadingDigits (places : Nat) (r : Ratio) : List Char × Int :=
  if r.numerator = 0 then (List.replicate (places + 1) '0', 0)
  else
    let power := leadingPower r.numerator r.denominator
    let s := r.scaled 10 ((places : Int) - power)
    let cs := (toString (roundDiv s.numerator s.denominator)).toList
    if cs.length > places + 1 then (cs.take (places + 1), power + 1) else (cs, power)

def powerText (power : Int) : String :=
  let digits := toString power.natAbs
  (if power < 0 then "-" else "+") ++ (if digits.length < 2 then "0" ++ digits else digits)

def pointed (cs : List Char) : String :=
  match cs with
  | [] => ""
  | [c] => String.ofList [c]
  | c :: rest => String.ofList (c :: '.' :: rest)

-- The digits with one of them before the point, and a power of ten.
def scientificText (places : Nat) (r : Ratio) : String :=
  let (cs, power) := r.leadingDigits places
  pointed cs ++ "e" ++ powerText power

-- A text of digits and a point without the zeros at its end.
def withoutFinalZeros (s : String) : String :=
  if s.toList.contains '.' then
    let cs := s.toList.reverse.dropWhile (· = '0')
    String.ofList (match cs with
      | '.' :: rest => rest
      | cs => cs).reverse
  else s

-- So many digits in all, in the form that is shorter for the number's size.
def generalText (digits : Nat) (keepZeros : Bool) (r : Ratio) : String :=
  let digits := max digits 1
  let (cs, power) := r.leadingDigits (digits - 1)
  let cut (s : String) : String := if keepZeros then s else withoutFinalZeros s
  if power < -4 ∨ power ≥ digits then cut (pointed cs) ++ "e" ++ powerText power
  else cut (r.fixedText (digits - 1 - power).toNat)

end Ratio

-- A decimal numeral at the front of a text without a sign: its value, the
-- number of its places, and what follows it.
def numeral? (cs : List Char) : Option (Ratio × Nat × List Char) :=
  let whole := cs.takeWhile Char.isDigit
  let rest := cs.drop whole.length
  let (fraction, rest) := match rest with
    | '.' :: more => (more.takeWhile Char.isDigit, more.dropWhile Char.isDigit)
    | _ => ([], rest)
  if whole.isEmpty && fraction.isEmpty then none
  else
    let value (cs : List Char) : Nat := cs.foldl (fun n c => 10 * n + (c.toNat - 48)) 0
    let plain : Ratio := ⟨value (whole ++ fraction), Nat.pow 10 fraction.length⟩
    let (power, rest) : Int × List Char := match rest with
      | e :: more =>
          if e = 'e' ∨ e = 'E' then
            let (down, digits) := match more with
              | '-' :: ds => (true, ds)
              | '+' :: ds => (false, ds)
              | ds => (false, ds)
            let taken := digits.takeWhile Char.isDigit
            if taken.isEmpty then (0, rest)
            else
              let n : Int := value taken
              (if down then -n else n, digits.drop taken.length)
          else (0, rest)
      | [] => (0, rest)
    some (plain.scaled 10 (max (-400) (min 400 power)), fraction.length, rest)

end Conformance.Decimal
