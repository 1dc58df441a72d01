namespace Conformance.Decimal

-- A finite binary fraction: significand times two to a power.
structure Binary where
  significand : Nat
  exponent : Int
  -- the gap to the next smaller number is half the gap to the next larger one
  narrowBelow : Bool

-- Digits, without a final zero, and the power of ten of the first one.
structure Digits where
  digits : List Nat
  exponent : Int
deriving DecidableEq, Repr

-- Fields of the 64 bit format, read off its bits.
def Binary.ofBits (bits : UInt64) : Binary :=
  let n := bits.toNat
  let fraction : Nat := n % Nat.pow 2 52
  let scale : Nat := n / Nat.pow 2 52 % Nat.pow 2 11
  if scale = 0 then ⟨fraction, -1074, false⟩
  else ⟨Nat.pow 2 52 + fraction, Int.ofNat scale - 1075, fraction = 0 && scale > 1⟩

-- The number and the two ends of the interval that rounds to it, as whole
-- multiples of one over the common denominator.
structure Interval where
  low : Nat
  value : Nat
  high : Nat
  denominator : Nat
  closed : Bool

def Binary.interval (b : Binary) : Interval :=
  let up := Nat.pow 2 b.exponent.toNat
  let down := Nat.pow 2 (-b.exponent).toNat
  let low := if b.narrowBelow then 4 * b.significand - 1 else 4 * b.significand - 2
  ⟨low * up, 4 * b.significand * up, (4 * b.significand + 2) * up, 4 * down,
    b.significand % 2 = 0⟩

def Interval.holds (i : Interval) (numerator denominator : Nat) : Bool :=
  let point := numerator * i.denominator
  if i.closed then i.low * denominator ≤ point && point ≤ i.high * denominator
  else i.low * denominator < point && point < i.high * denominator

-- The power of ten of the first digit of a positive ratio.
def leadingPower (numerator denominator : Nat) : Int :=
  if denominator ≤ numerator then
    ((toString (numerator / denominator)).length : Int) - 1
  else
    -- the first digit of the ratio is behind the point
    let rec behind (fuel : Nat) (n : Nat) (k : Int) : Int :=
      match fuel with
      | 0 => k
      | fuel + 1 => if denominator ≤ n then k else behind fuel (n * 10) (k - 1)
    behind 400 (numerator * 10) (-1)

-- The neighbour of the value on the grid of the given power of ten that rounds
-- to it and lies nearer. A tie goes to the even multiple.
def Interval.onGrid (i : Interval) (power : Int) : Option Nat :=
  let up := Nat.pow 10 power.toNat
  let down := Nat.pow 10 (-power).toNat
  -- value / (denominator * 10 ^ power)
  let numerator := i.value * down
  let denominator := i.denominator * up
  let below := numerator / denominator
  let above := below + 1
  let remainder := numerator % denominator
  let belowIn := i.holds (below * up) down
  let aboveIn := i.holds (above * up) down
  if remainder = 0 then some below
  else match belowIn && below ≠ 0, aboveIn with
    | true, true =>
        if 2 * remainder < denominator then some below
        else if denominator < 2 * remainder then some above
        else if below % 2 = 0 then some below else some above
    | true, false => some below
    | false, true => some above
    | false, false => none

def digitsOf (n : Nat) : List Nat :=
  (toString n).toList.map fun c => c.toNat - 48

def dropFinalZeros (digits : List Nat) : List Nat :=
  (digits.reverse.dropWhile (· = 0)).reverse

-- The fewest digits, at most seventeen, of a decimal that rounds to the number.
def Interval.shortest (i : Interval) : Digits :=
  let first := leadingPower i.value i.denominator
  let candidates := (List.range 17).filterMap fun (count : Nat) =>
    let power : Int := first - (count : Int)
    (i.onGrid power).map fun n => (n, power)
  match candidates with
  | [] => ⟨[0], 0⟩
  | (n, power) :: _ =>
      let digits := digitsOf n
      ⟨dropFinalZeros digits, power + digits.length - 1⟩

def zeros (n : Nat) : List Nat :=
  List.replicate n 0

def digitText (digits : List Nat) : String :=
  String.ofList (digits.map fun d => Char.ofNat (48 + d))

-- Positional from five places behind the point up to sixteen before it, always
-- with a digit behind the point; otherwise with a signed power of ten.
def Digits.text (d : Digits) : String :=
  let count := d.digits.length
  if -5 ≤ d.exponent ∧ d.exponent < 0 then
    "0." ++ digitText (zeros ((-d.exponent).toNat - 1) ++ d.digits)
  else if 0 ≤ d.exponent ∧ d.exponent ≤ 15 then
    let whole := d.exponent.toNat + 1
    if count ≤ whole then digitText (d.digits ++ zeros (whole - count)) ++ ".0"
    else digitText (d.digits.take whole) ++ "." ++ digitText (d.digits.drop whole)
  else
    let mantissa := match d.digits with
      | [] => "0"
      | [one] => digitText [one]
      | one :: more => digitText [one] ++ "." ++ digitText more
    let sign := if d.exponent < 0 then "-" else "+"
    mantissa ++ "e" ++ sign ++ toString d.exponent.natAbs

-- The text of a finite number, by the fewest digits that read back.
def shortestText (x : Float) : String :=
  let bits := x.toBits
  let sign := if bits.toNat / Nat.pow 2 63 = 1 then "-" else ""
  let b := Binary.ofBits bits
  if b.significand = 0 then sign ++ "0.0" else sign ++ b.interval.shortest.text

end Conformance.Decimal
