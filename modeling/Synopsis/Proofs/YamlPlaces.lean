import Synopsis.Yaml.Flow
import Synopsis.Yaml.Write

/-!
# Written characters in their places

What is written is made of visible ASCII characters, spaces and line feeds. Each of them stands one column
behind the one before it, but for a line feed, behind which a line begins. No line that is written can be taken
for one of the marks between documents.
-/

namespace Synopsis

namespace Yaml

/-- An ASCII character other than a space and the controls. -/
def isVisible (c : Char) : Bool :=
  0x21 ≤ c.toNat && c.toNat ≤ 0x7E

theorem ne_of_isVisible {c d : Char} (h : isVisible c = true) (hd : isVisible d = false) : c ≠ d := by
  rintro rfl
  rw [h] at hd
  cases hd

theorem isPlainAscii_cases {c : Char} (h : isPlainAscii c = true) :
    c = '\n' ∨ c = ' ' ∨ isVisible c = true := by
  simp only [isPlainAscii, Bool.or_eq_true, beq_iff_eq, Bool.and_eq_true, decide_eq_true_eq] at h
  rcases h with rfl | ⟨hlow, hhigh⟩
  · exact .inl rfl
  · right
    by_cases hspace : c.toNat = 0x20
    · left
      apply Char.ext
      exact UInt32.toNat_inj.mp hspace
    · right
      simp only [isVisible, Bool.and_eq_true, decide_eq_true_eq]
      omega

theorem isPlainAscii_of_isVisible {c : Char} (h : isVisible c = true) : isPlainAscii c = true := by
  simp only [isVisible, Bool.and_eq_true, decide_eq_true_eq] at h
  simp only [isPlainAscii, Bool.or_eq_true, Bool.and_eq_true, decide_eq_true_eq]
  omega

theorem isBreak_of_isVisible {c : Char} (h : isVisible c = true) : isBreak c = false := by
  have hfeed := ne_of_isVisible (d := '\n') h (by decide)
  have hnext := ne_of_isVisible (d := '\u0085') h (by decide)
  have hline := ne_of_isVisible (d := '\u2028') h (by decide)
  have hparagraph := ne_of_isVisible (d := '\u2029') h (by decide)
  simp [isBreak, hfeed, hnext, hline, hparagraph]

theorem endsWord_of_isVisible {c : Char} (h : isVisible c = true) : endsWord c = false := by
  have hend := ne_of_isVisible (d := endMark) h (by decide)
  have hspace := ne_of_isVisible (d := ' ') h (by decide)
  have htab := ne_of_isVisible (d := '\t') h (by decide)
  simp [endsWord, hend, hspace, htab, isBreak_of_isVisible h]

theorem isBlankOrBreak_of_isVisible {c : Char} (h : isVisible c = true) : isBlankOrBreak c = false := by
  have hend := ne_of_isVisible (d := '\x00') h (by decide)
  have hspace := ne_of_isVisible (d := ' ') h (by decide)
  have htab := ne_of_isVisible (d := '\t') h (by decide)
  have hreturn := ne_of_isVisible (d := '\r') h (by decide)
  simp only [isBlankOrBreak, beq_false_of_ne hend, beq_false_of_ne hspace, beq_false_of_ne htab,
    beq_false_of_ne hreturn, Bool.false_or]
  exact isBreak_of_isVisible h

theorem length_placeFrom (offset line column : Nat) (t : Text) :
    (placeFrom offset line column t).length = t.length + 1 := by
  induction t generalizing offset line column with
  | nil => rfl
  | cons c t ih =>
      rw [placeFrom]
      split
      · rw [List.length_cons, ih, List.length_cons]
      · rw [List.length_cons, ih, List.length_cons]

theorem placeFrom_visible {c : Char} (h : isVisible c = true) (offset line column : Nat) (t : Text) :
    placeFrom offset line column (c :: t) =
      ⟨c, offset, line, column⟩ :: placeFrom (offset + 1) line (column + 1) t := by
  rw [placeFrom, if_neg (by simp [isBreak_of_isVisible h]), if_neg (ne_of_isVisible h (by decide))]

theorem placeFrom_space (offset line column : Nat) (t : Text) :
    placeFrom offset line column (' ' :: t) =
      ⟨' ', offset, line, column⟩ :: placeFrom (offset + 1) line (column + 1) t := rfl

theorem placeFrom_feed (offset line column : Nat) (t : Text) :
    placeFrom offset line column ('\n' :: t) =
      ⟨'\n', offset, line, column⟩ :: placeFrom (offset + 1) (line + 1) 0 t := rfl

theorem drop_one_placeFrom {c : Char} (h : isVisible c = true) (offset line column : Nat) (t : Text) :
    (placeFrom offset line column (c :: t)).drop 1 = placeFrom (offset + 1) line (column + 1) t := by
  rw [placeFrom_visible h, List.drop_succ_cons, List.drop_zero]

theorem here_placeFrom (offset line column : Nat) (t : Text) :
    Input.here (placeFrom offset line column t) = ⟨t.head?.getD endMark, offset, line, column⟩ := by
  cases t <;> rfl

theorem peek_placeFrom (offset line column : Nat) (t : Text) :
    Input.peek (placeFrom offset line column t) = t.head?.getD endMark := by
  rw [Input.peek, here_placeFrom]

theorem startsWith_placeFrom {a d : Char} (h : d ≠ a) (b c : Char) (offset line column : Nat) (t : Text) :
    Input.startsWith [a, b, c] (placeFrom offset line column (d :: t)) = false := by
  rw [Input.startsWith, placeFrom]
  simp [h]

/-- A line that begins with neither a dash nor a dot is no mark. -/
theorem isDocumentMark_cons {c : Char} (hdash : c ≠ '-') (hdot : c ≠ '.') (offset line column : Nat)
    (t : Text) :
    Input.isDocumentMark (placeFrom offset line column (c :: t)) = false := by
  rw [Input.isDocumentMark, startsWith_placeFrom hdash, startsWith_placeFrom hdot]
  rfl

/-- A line that begins as those of a written file do: with the name of a key, or with the dash of an item. -/
def BeginsLine (t : Text) : Prop :=
  ∀ c ∈ t.head?, isVisible c = true ∧ c ≠ '#' ∧ c ≠ '.' ∧ (c = '-' → t.tail.head? = some ' ')

theorem beginsLine_nil : BeginsLine [] := by
  intro c hc
  cases hc

theorem beginsLine_dash (t : Text) : BeginsLine ('-' :: ' ' :: t) := by
  intro c hc
  cases hc
  exact ⟨by decide, by decide, by decide, fun _ => rfl⟩

theorem BeginsLine.isDocumentMark {t : Text} (h : BeginsLine t) (offset line : Nat) :
    Input.isDocumentMark (placeFrom offset line 0 t) = false := by
  cases t with
  | nil => rfl
  | cons c t =>
      obtain ⟨-, -, hdot, hdash⟩ := h c rfl
      by_cases hc : c = '-'
      · obtain ⟨rest, rfl⟩ : ∃ rest, t = ' ' :: rest := List.head?_eq_some_iff.mp (hdash hc)
        subst hc
        rfl
      · exact isDocumentMark_cons hc hdot offset line 0 t

end Yaml

end Synopsis
