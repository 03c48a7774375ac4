import Synopsis.Text.Basic

/-!
# Binary floating-point numbers

Numbers of the binary64 format as exact data. A decimal is read to the nearest number, a tie to the
even significand; a number is written with the fewest digits that read back, and of these the nearest.
-/

namespace Synopsis

/-- A finite number is `significand * 2 ^ exponent` with its sign; zero has both signs. -/
inductive Binary64 where
  | finite (negative : Bool) (significand : Nat) (exponent : Int)
  | infinite (negative : Bool)
  | undefined
  deriving DecidableEq, Repr

namespace Binary64

def minExponent : Int := -1074

def maxExponent : Int := 971

/-- The nearest whole number to `num / den`, a tie to the even one. -/
def roundEven (num den : Nat) : Nat :=
  let q := num / den
  let twice := 2 * (num % den)
  if twice < den || (twice == den && q % 2 == 0) then q else q + 1

def scale (base : Nat) (num den : Nat) : Int → Nat × Nat
  | .ofNat n => (num * Nat.pow base n, den)
  | .negSucc n => (num, den * Nat.pow base (n + 1))

def ofFraction (negative : Bool) (num den : Nat) : Binary64 :=
  let size : Int := (num.log2 : Int) - den.log2
  let (n, d) := scale 2 num den (-size)
  let exponent := max minExponent (if n < d then size - 53 else size - 52)
  let (n, d) := scale 2 num den (-exponent)
  let m := roundEven n d
  let (m, exponent) := if m = Nat.pow 2 53 then (Nat.pow 2 52, exponent + 1) else (m, exponent)
  if maxExponent < exponent then .infinite negative else .finite negative m exponent

/-- The number nearest to `digits * 10 ^ power`; far powers are decided without computing them. -/
def ofDecimal (negative : Bool) (digits : Nat) (power : Int) : Binary64 :=
  let size := power + (Text.ofNat digits).length
  if digits = 0 || size < -400 then .finite negative 0 minExponent
  else if 400 < size then .infinite negative
  else
    let (num, den) := scale 10 digits 1 power
    ofFraction negative num den

def toInt? : Binary64 → Option Int
  | .finite negative m e =>
    let (num, den) := scale 2 m 1 e
    if num % den = 0 then some (if negative then -(num / den : Nat) else (num / den : Nat)) else none
  | _ => none

def isFinite : Binary64 → Bool
  | .finite .. => true
  | _ => false

/-- What reads back as `m * 2 ^ e`: the ends as fractions of a common denominator, and whether they count. -/
structure Interval where
  low : Nat
  high : Nat
  value : Nat
  den : Nat
  closed : Bool

def interval (m : Nat) (e : Int) : Interval :=
  let halfBelow := if m = Nat.pow 2 52 ∧ minExponent < e then 1 else 2
  let (unit, den) := scale 2 1 1 (e - 2)
  ⟨(4 * m - halfBelow) * unit, (4 * m + 2) * unit, 4 * m * unit, den, m % 2 == 0⟩

namespace Interval

def holds (i : Interval) (n : Nat) (power : Int) : Bool :=
  let (num, den) := scale 10 n 1 power
  let (x, low, high) := (num * i.den, i.low * den, i.high * den)
  if i.closed then low ≤ x && x ≤ high else low < x && x < high

def nearest? (i : Interval) (power : Int) : Option Nat :=
  let (num, den) := scale 10 i.value i.den (-power)
  let below := num / den
  match i.holds below power, i.holds (below + 1) power with
  | true, true => some (roundEven num den)
  | true, false => some below
  | false, true => some (below + 1)
  | false, false => none

def search (i : Interval) (power : Int) : (digits : Nat) → Nat × Int
  | 0 => (i.value * Nat.pow 10 (-power).toNat / i.den, power)
  | digits + 1 =>
    match i.nearest? power with
    | some n => if n = 0 then search i (power - 1) digits else (n, power)
    | none => search i (power - 1) digits

end Interval

/-- The fewest digits that read back as `m * 2 ^ e`, and the power of ten of the last one. -/
def shortest (m : Nat) (e : Int) : Nat × Int :=
  let i := interval m e
  let power : Int := ((Text.ofNat (i.value / i.den)).length : Int)
  let start := if i.value < i.den then power - (Text.ofNat (i.den / i.value)).length else power
  i.search start 40

def stripZeros : (fuel : Nat) → Nat × Int → Nat × Int
  | 0, p => p
  | fuel + 1, (n, power) => if n % 10 = 0 ∧ n ≠ 0 then stripZeros fuel (n / 10, power + 1) else (n, power)

def zeros (n : Nat) : Text :=
  List.replicate n '0'

def positional (digits : Text) (power : Int) : Text :=
  match power with
  | .ofNat n => digits ++ zeros n ++ ['.', '0']
  | .negSucc n =>
    let padded := zeros (n + 2 - digits.length) ++ digits
    padded.take (padded.length - (n + 1)) ++ '.' :: padded.drop (padded.length - (n + 1))

/-- One digit before the point, and an exponent of at least two digits. -/
def scientific (digits : Text) (exponent : Int) : Text :=
  let power := Text.ofNat exponent.natAbs
  digits.take 1 ++ (if digits.length = 1 then [] else '.' :: digits.drop 1)
    ++ ['e', if exponent < 0 then '-' else '+'] ++ zeros (2 - power.length) ++ power

/-- Exponents from -4 up to 15 are written out. -/
def digitsText (digits : Text) (power : Int) : Text :=
  let exponent := power + digits.length - 1
  if -4 ≤ exponent && exponent < 16 then positional digits power else scientific digits exponent

def toText : Binary64 → Text
  | .undefined => "nan".toList
  | .infinite negative => (if negative then ['-'] else []) ++ "inf".toList
  | .finite negative m e =>
    (if negative then ['-'] else [])
      ++ (if m = 0 then ['0', '.', '0']
        else
          let (n, power) := stripZeros 400 (shortest m e)
          digitsText (Text.ofNat n) power)

end Binary64

end Synopsis
