import Mathlib.Tactic.IntervalCases
import Synopsis.Proofs.YamlPlainText
import Synopsis.Yaml.Token.Lexer

/-!
# Keys and scalars of a written file

A key is a name, and stands plain at the beginning of its line. A scalar is written on a line or on several
ones, and makes one token.
-/

namespace Synopsis

namespace Yaml

def isKeyChar (c : Char) : Bool :=
  c.isLower || c == '-'

/-- A name made of lower-case letters and dashes that reads as a text. -/
structure IsKey (k : Text) : Prop where
  chars : ∀ c ∈ k, isKeyChar c = true
  first : ∃ c w, k = c :: w ∧ c.isLower = true
  short : k.length ≤ Lexer.maxKeyLength
  tag : Tag.ofPlain k = .text

theorem isVisible_of_isLower {c : Char} (h : c.isLower = true) : isVisible c = true := by
  have hbounds : (decide (97 ≤ c.toNat) && decide (c.toNat ≤ 122)) = true := h
  simp only [Bool.and_eq_true, decide_eq_true_eq] at hbounds
  simp only [isVisible, Bool.and_eq_true, decide_eq_true_eq]
  omega

theorem ne_of_isLower {c d : Char} (h : c.isLower = true) (hd : d.isLower = false) : c ≠ d := by
  rintro rfl
  rw [h] at hd
  cases hd

theorem isVisible_of_isKeyChar {c : Char} (h : isKeyChar c = true) : isVisible c = true ∧ c ≠ ':' := by
  rw [isKeyChar, Bool.or_eq_true, beq_iff_eq] at h
  rcases h with h | rfl
  · exact ⟨isVisible_of_isLower h, ne_of_isLower h (by decide)⟩
  · exact ⟨by decide, by decide⟩

theorem IsKey.beginsLine {k : Text} (h : IsKey k) (t : Text) : BeginsLine (k ++ t) := by
  obtain ⟨c, w, rfl, hc⟩ := h.first
  intro d hd
  cases hd
  exact ⟨isVisible_of_isLower hc, ne_of_isLower hc (by decide), ne_of_isLower hc (by decide),
    fun hdash => absurd hdash (ne_of_isLower hc (by decide))⟩

/-- A scalar of one line: a truth value, a number of one digit, or a text. -/
inductive IsLeaf : Value → Prop
  | bool (b : Bool) : IsLeaf (.bool b)
  | digit {n : Nat} (h : n < 10) : IsLeaf (.int n)
  | text (t : Text) : IsLeaf (.text t)

def leafToken : Value → Token
  | .text t => .scalar (admitsPlain t) (.ofText t)
  | v => .scalar true (.ofText (scalarFrom 0 v))

/-- A value that one plain word is written for, and read as. -/
structure IsWord (v : Value) (w : Text) : Prop where
  written : ∀ width, scalarFrom width v = w
  token : leafToken v = .scalar true (.ofText w)
  plain : IsPlain w
  noSpace : ' ' ∉ w
  read : scalarValue (Tag.ofPlain w) (.ofText w) = .ok v

theorem isPlain_of_all_isVisible {w : Text} (hne : w ≠ []) (hw : w.all isVisible = true)
    (hleading : hasLeadingMark w = false) (hinner : hasInnerMark false w = false) : IsPlain w := by
  rw [List.all_eq_true] at hw
  have hspace : ∀ c ∈ w, c ≠ ' ' := fun c hc => ne_of_isVisible (hw c hc) (by decide)
  refine ⟨hne, fun c hc => .inr (hw c hc), ?_, ?_, hleading, ?_⟩
  · exact fun h => hspace ' ' (List.mem_of_mem_head? h) rfl
  · exact fun h => hspace ' ' (List.mem_of_mem_getLast? h) rfl
  · cases w with
    | nil => rfl
    | cons c w =>
        have hc : isBlankOrBreak c = false := isBlankOrBreak_of_isVisible (hw c List.mem_cons_self)
        have htail := (hasInnerMark_cons hinner).2.2
        rw [hc] at htail
        simpa [hc] using htail

theorem IsLeaf.text_or_word {v : Value} (h : IsLeaf v) : (∃ t, v = .text t) ∨ ∃ w, IsWord v w := by
  cases h with
  | text t => exact .inl ⟨t, rfl⟩
  | bool b =>
      refine .inr ⟨scalarFrom 0 (.bool b), ?_⟩
      cases b
      all_goals
        exact ⟨fun _ => rfl, rfl,
          isPlain_of_all_isVisible (by decide) (by decide) (by decide) (by decide), by decide, rfl⟩
  | @digit n h =>
      refine .inr ⟨scalarFrom 0 (.int n), ?_⟩
      interval_cases n
      all_goals
        exact ⟨fun _ => rfl, rfl,
          isPlain_of_all_isVisible (by decide) (by decide) (by decide) (by decide), by decide, rfl⟩

theorem plainFrom_of_not_mem {w : Text} (h : ' ' ∉ w) (width : Nat) : plainFrom false width w = w := by
  induction w generalizing width with
  | nil => rfl
  | cons c w ih =>
      have hc : (c == ' ') = false := beq_false_of_ne fun h' => h (h' ▸ List.mem_cons_self)
      rw [plainFrom, hc, Bool.false_and, Bool.false_and, Bool.false_and, if_neg (by decide),
        ih fun h' => h (List.mem_cons_of_mem c h')]

end Yaml

end Synopsis
