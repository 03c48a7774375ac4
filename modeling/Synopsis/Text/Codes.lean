import Synopsis.Text.Quoted

/-!
# Code points

A text that escapes put together may hold halves of characters beside whole ones. It is kept by its code
points. Two halves that follow each other make one character; one by itself makes none.
-/

namespace Synopsis

abbrev Codes := List Nat

namespace Codes

def ofText (t : Text) : Codes :=
  t.map Char.toNat

def isHigh (n : Nat) : Bool :=
  0xD800 ≤ n && n < 0xDC00

def isLow (n : Nat) : Bool :=
  0xDC00 ≤ n && n < 0xE000

def isHalf (n : Nat) : Bool :=
  isHigh n || isLow n

def charOf (n : Nat) : Char :=
  if isHalf n then '\uFFFD' else Char.ofNat n

def join (high low : Nat) : Char :=
  Char.ofNat (0x10000 + 0x400 * (high - 0xD800) + (low - 0xDC00))

def toText : Codes → Text
  | high :: low :: rest =>
    if isHigh high && isLow low then join high low :: toText rest else charOf high :: toText (low :: rest)
  | [n] => [charOf n]
  | [] => []

def masked (c : Codes) : Text :=
  c.flatMap fun n => if isHalf n then List.replicate 3 '\uFFFD' else [charOf n]

/-- The code points of a text in quotes; a half is always escaped. -/
def quoted (c : Codes) : Text :=
  let quote := Text.quoteFor (c.map charOf)
  quote :: c.flatMap (fun n =>
    if isHalf n then '\\' :: 'u' :: Text.hexadecimal 4 n else Text.quotedChar quote (charOf n)) ++ [quote]

@[simp] theorem toText_nil : toText [] = [] := rfl

/-- No character is a half of another one. -/
theorem isHalf_toNat (c : Char) : isHalf c.toNat = false := by
  have h : c.toNat < 0xD800 ∨ (0xDFFF < c.toNat ∧ c.toNat < 0x110000) := c.valid
  simp only [isHalf, isHigh, isLow, Bool.or_eq_false_iff, Bool.and_eq_false_iff, decide_eq_false_iff_not]
  omega

theorem any_isHalf_ofText (t : Text) : (ofText t).any isHalf = false := by
  simp [ofText, isHalf_toNat]

theorem isHigh_toNat (c : Char) : isHigh c.toNat = false :=
  (Bool.or_eq_false_iff.mp (isHalf_toNat c)).1

@[simp] theorem charOf_toNat (c : Char) : charOf c.toNat = c := by
  simp [charOf, isHalf_toNat]

@[simp] theorem toText_ofText (t : Text) : toText (ofText t) = t := by
  induction t with
  | nil => rfl
  | cons c rest ih =>
    cases rest with
    | nil => simp [ofText, toText]
    | cons d more =>
      simp only [ofText, List.map_cons, toText, isHigh_toNat, Bool.false_and, charOf_toNat] at ih ⊢
      simpa using ih

end Codes

end Synopsis
