import Synopsis.Text.Basic

/-!
# Decimal digits

The decimal digits of every script, by the Unicode standard, version 14. Each script has ten in a row.
-/

namespace Synopsis

namespace Text

def zeroDigits : List Nat :=
  [0x0030, 0x0660, 0x06F0, 0x07C0, 0x0966, 0x09E6, 0x0A66, 0x0AE6, 0x0B66, 0x0BE6, 0x0C66, 0x0CE6,
   0x0D66, 0x0DE6, 0x0E50, 0x0ED0, 0x0F20, 0x1040, 0x1090, 0x17E0, 0x1810, 0x1946, 0x19D0, 0x1A80,
   0x1A90, 0x1B50, 0x1BB0, 0x1C40, 0x1C50, 0xA620, 0xA8D0, 0xA900, 0xA9D0, 0xA9F0, 0xAA50, 0xABF0,
   0xFF10, 0x104A0, 0x10D30, 0x11066, 0x110F0, 0x11136, 0x111D0, 0x112F0, 0x11450, 0x114D0,
   0x11650, 0x116C0, 0x11730, 0x118E0, 0x11950, 0x11C50, 0x11D50, 0x11DA0, 0x16A60, 0x16AC0,
   0x16B50, 0x1D7CE, 0x1D7D8, 0x1D7E2, 0x1D7EC, 0x1D7F6, 0x1E140, 0x1E2F0, 0x1E950, 0x1FBF0]

def digitValue? (c : Char) : Option Nat :=
  (zeroDigits.find? fun z => z ≤ c.toNat && c.toNat < z + 10).map (c.toNat - ·)

def isDecimal (c : Char) : Bool :=
  (digitValue? c).isSome

/-- The value of a digit; letters follow the ten decimal digits. -/
def digitIn? (base : Nat) (c : Char) : Option Nat :=
  let value := match digitValue? c with
    | some n => some n
    | none =>
      if 'a' ≤ c && c ≤ 'z' then some (c.toNat - 'a'.toNat + 10)
      else if 'A' ≤ c && c ≤ 'Z' then some (c.toNat - 'A'.toNat + 10)
      else none
  value.filter (· < base)

/-- Digits, of which two may have an underscore between them. -/
def digits? (base : Nat) : Text → Option (List Nat)
  | [] => none
  | [c] => (digitIn? base c).map ([·])
  | c :: '_' :: rest => do return (← digitIn? base c) :: (← digits? base rest)
  | c :: rest => do return (← digitIn? base c) :: (← digits? base rest)

def ofDigitList (base : Nat) (digits : List Nat) : Nat :=
  digits.foldl (fun n d => base * n + d) 0

/-- How many digits of base ten a number may have when it is read or written. -/
def maxDigits : Nat := 4300

/-- Numbers with more digits than a text may have cannot be written. -/
def fits (n : Int) : Bool :=
  n.natAbs < Nat.pow 10 maxDigits

theorem fits_iff {n : Int} : fits n = true ↔ n.natAbs < Nat.pow 10 maxDigits := decide_eq_true_iff

def baseMarks : Nat → List Text
  | 2 => [['0', 'b'], ['0', 'B']]
  | 8 => [['0', 'o'], ['0', 'O']]
  | 16 => [['0', 'x'], ['0', 'X']]
  | _ => []

def dropBaseMark (base : Nat) (t : Text) : Text :=
  if (baseMarks base).contains (t.take 2) then t.drop 2 else t

def natural? (base : Nat) (t : Text) : Option Nat := do
  let digits ← digits? base (dropBaseMark base t)
  guard (base ≠ 10 ∨ digits.length ≤ maxDigits)
  return ofDigitList base digits

def toInt? (base : Nat) (t : Text) : Option Int :=
  match trim t with
  | '-' :: rest => (natural? base rest).map fun n => -(n : Int)
  | '+' :: rest => (natural? base rest).map Int.ofNat
  | rest => (natural? base rest).map Int.ofNat

end Text

end Synopsis
