import Synopsis.Binary64
import Synopsis.Text.Digit

/-!
# Arithmetic of binary floating-point numbers

Sums and products are computed exactly and then rounded to the nearest number. A sum that vanishes is a
positive zero unless both parts are negative zeros. A text is read by the usual form of decimals, or as one
of the words for infinity and for the undefined number.
-/

namespace Synopsis

namespace Binary64

def zero (negative : Bool) : Binary64 :=
  .finite negative 0 minExponent

/-- The nearest number to a fraction, whose sign counts if it vanishes. -/
def ofSigned (negative : Bool) (num den : Nat) : Binary64 :=
  if num = 0 then zero negative else ofFraction negative num den

def negate : Binary64 → Binary64
  | .finite negative m e => .finite (!negative) m e
  | .infinite negative => .infinite (!negative)
  | .undefined => .undefined

def mul : Binary64 → Binary64 → Binary64
  | .finite s m e, .finite s' m' e' =>
    let (num, den) := scale 2 (m * m') 1 (e + e')
    ofSigned (s != s') num den
  | .undefined, _ => .undefined
  | _, .undefined => .undefined
  | .infinite s, .finite s' m _ => if m = 0 then .undefined else .infinite (s != s')
  | .finite s m _, .infinite s' => if m = 0 then .undefined else .infinite (s != s')
  | .infinite s, .infinite s' => .infinite (s != s')

def signedInt (negative : Bool) (n : Nat) : Int :=
  if negative then -n else n

def add : Binary64 → Binary64 → Binary64
  | .finite s m e, .finite s' m' e' =>
    let low := min e e'
    let sum := signedInt s (m * Nat.pow 2 (e - low).toNat) + signedInt s' (m' * Nat.pow 2 (e' - low).toNat)
    let (num, den) := scale 2 sum.natAbs 1 low
    ofSigned (if sum = 0 then s && s' else decide (sum < 0)) num den
  | .undefined, _ => .undefined
  | _, .undefined => .undefined
  | .infinite s, .infinite s' => if s = s' then .infinite s else .undefined
  | .infinite s, _ => .infinite s
  | _, .infinite s => .infinite s

def ofNat? (n : Nat) : Option Binary64 :=
  match ofSigned false n 1 with
  | .infinite _ => none
  | x => some x

def plainDigit (c : Char) : Char :=
  ((Text.digitValue? c).map Nat.digitChar).getD c

def exponent? : Text → Option Int
  | [] => some 0
  | e :: rest =>
    if e ≠ 'e' ∧ e ≠ 'E' then none
    else
      let (negative, digits) := match rest with
        | '-' :: digits => (true, digits)
        | '+' :: digits => (false, digits)
        | digits => (false, digits)
      if digits.isEmpty || !digits.all Char.isDigit then none
      else some (signedInt negative (Text.ofDigitList 10 (digits.map fun c => c.toNat - '0'.toNat)))

/-- A decimal without sign: digits with a point among them or at an end, and an exponent. -/
def decimal? (negative : Bool) (t : Text) : Option Binary64 := do
  let whole := t.takeWhile Char.isDigit
  let (fraction, rest) := match t.dropWhile Char.isDigit with
    | '.' :: rest => (rest.takeWhile Char.isDigit, rest.dropWhile Char.isDigit)
    | rest => ([], rest)
  guard (!(whole ++ fraction).isEmpty)
  let power ← exponent? rest
  let digits := Text.ofDigitList 10 ((whole ++ fraction).map fun c => c.toNat - '0'.toNat)
  return ofDecimal negative digits (power - fraction.length)

def unsigned? (negative : Bool) (t : Text) : Option Binary64 :=
  let word := t.map Char.toLower
  if word = "inf".toList ∨ word = "infinity".toList then some (.infinite negative)
  else if word = "nan".toList then some .undefined
  else decimal? negative t

/-- A number with blanks around it and a sign before it. -/
def ofText? (t : Text) : Option Binary64 :=
  match (Text.trim t).map plainDigit with
  | '-' :: rest => unsigned? true rest
  | '+' :: rest => unsigned? false rest
  | rest => unsigned? false rest

end Binary64

end Synopsis
