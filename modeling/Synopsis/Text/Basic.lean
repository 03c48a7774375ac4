/-!
# Text

Text is a list of characters, so that an offset counts characters and every operation is a recursion
on them. Here are the blanks, trimming, cutting at a character, and the writing of whole numbers.
-/

namespace Synopsis

abbrev Text := List Char

namespace Text

def inRanges (ranges : List (Nat × Nat)) (n : Nat) : Bool :=
  ranges.any fun r => r.1 ≤ n && n ≤ r.2

def blankRanges : List (Nat × Nat) :=
  [(0x09, 0x0D), (0x1C, 0x20), (0x85, 0x85), (0xA0, 0xA0), (0x1680, 0x1680), (0x2000, 0x200A),
   (0x2028, 0x2029), (0x202F, 0x202F), (0x205F, 0x205F), (0x3000, 0x3000)]

/-- The white space of the Unicode standard together with the four information separators. -/
def isBlank (c : Char) : Bool :=
  inRanges blankRanges c.toNat

theorem isBlank_of_isWhitespace {c : Char} (h : c.isWhitespace = true) : isBlank c = true := by
  simp only [Char.isWhitespace, Bool.or_eq_true, decide_eq_true_eq] at h
  rcases h with ((rfl | rfl) | rfl) | rfl <;> decide

def trimStart (t : Text) : Text :=
  t.dropWhile isBlank

def trimEnd (t : Text) : Text :=
  (t.reverse.dropWhile isBlank).reverse

def trim (t : Text) : Text :=
  trimEnd (trimStart t)

@[simp] theorem trim_nil : trim [] = [] := rfl

/-- Adds a character to the first of several texts. -/
def consFirst (c : Char) : List Text → List Text
  | [] => [[c]]
  | t :: ts => (c :: t) :: ts

/-- The texts between the occurrences of `sep`, one more than there are occurrences. -/
def cutAt (sep : Char) : Text → List Text
  | [] => [[]]
  | c :: rest => if c = sep then [] :: cutAt sep rest else consFirst c (cutAt sep rest)

@[simp] theorem cutAt_nil (sep : Char) : cutAt sep [] = [[]] := rfl

@[simp] theorem cutAt_cons_self (sep : Char) (t : Text) :
    cutAt sep (sep :: t) = [] :: cutAt sep t := by simp [cutAt]

theorem cutAt_cons_of_ne {sep c : Char} (h : c ≠ sep) (t : Text) :
    cutAt sep (c :: t) = consFirst c (cutAt sep t) := by simp [cutAt, h]

theorem cutAt_ne_nil (sep : Char) (t : Text) : cutAt sep t ≠ [] := by
  cases t with
  | nil => simp
  | cons c rest =>
      by_cases h : c = sep
      · simp [cutAt, h]
      · rw [cutAt_cons_of_ne h]
        cases cutAt sep rest <;> simp [consFirst]

def after? : (lead t : Text) → Option Text
  | [], t => some t
  | _ :: _, [] => none
  | a :: lead, c :: t => if a = c then after? lead t else none

theorem after?_eq_some_iff {lead t rest : Text} : after? lead t = some rest ↔ t = lead ++ rest := by
  induction lead generalizing t with
  | nil => simp [after?, eq_comm]
  | cons a lead ih =>
      cases t with
      | nil => simp [after?]
      | cons c t =>
          by_cases h : a = c
          · simp [after?, h, ih]
          · simp [after?, h, Ne.symm h]

def startsWith (lead t : Text) : Bool :=
  (after? lead t).isSome

theorem startsWith_iff {lead t : Text} : startsWith lead t = true ↔ lead <+: t := by
  unfold startsWith
  rw [Option.isSome_iff_exists]
  constructor
  · rintro ⟨rest, h⟩
    exact ⟨rest, (after?_eq_some_iff.mp h).symm⟩
  · rintro ⟨rest, h⟩
    exact ⟨rest, after?_eq_some_iff.mpr h.symm⟩

def dropLead (lead t : Text) : Text :=
  (after? lead t).getD t

def ofNat (n : Nat) : Text :=
  Nat.toDigits 10 n

def ofInt : Int → Text
  | .ofNat n => ofNat n
  | .negSucc n => '-' :: ofNat (n + 1)

/-- The last `width` hexadecimal digits of `n`. -/
def hexadecimal : (width n : Nat) → Text
  | 0, _ => []
  | width + 1, n => hexadecimal width (n / 16) ++ [Nat.digitChar (n % 16)]

end Text

end Synopsis
