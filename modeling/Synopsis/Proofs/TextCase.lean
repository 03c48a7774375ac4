import Synopsis.Text.Lowercase

/-!
# Letters and marks in lower case

Lowering reads a text letter by letter and never loses one. What stands below the letters in ASCII stays what
it is, and nothing else is lowered to it, so such a mark is found in a lowered text only where it was before.
-/

namespace Synopsis

namespace Text

theorem of_lt_128 {P : Char → Bool} (h : ∀ n < 128, P (Char.ofNat n) = true) {c : Char} (hc : c.toNat < 128) :
    P c = true := by
  have hn := h c.toNat hc
  rwa [Char.ofNat_toNat] at hn

/-- A sigma and the dotted capital I are lowered by rules of their own, and all else letter by letter. -/
theorem lowerChar_cases (before : Text) (c : Char) (rest : Text) :
    (c = 'Σ' ∧ (lowerChar before c rest = ['ς'] ∨ lowerChar before c rest = ['σ'])) ∨
      (c = 'İ' ∧ lowerChar before c rest = ['i', '\u0307']) ∨
        (c ≠ 'Σ' ∧ c ≠ 'İ' ∧ lowerChar before c rest = [lowerLetter c]) := by
  unfold lowerChar
  by_cases hsigma : c = 'Σ'
  · rw [if_pos hsigma]
    by_cases hlast : (startsCased before && !startsCased rest) = true
    · exact .inl ⟨hsigma, .inl (if_pos hlast)⟩
    · exact .inl ⟨hsigma, .inr (if_neg hlast)⟩
  · by_cases hdotted : c = 'İ'
    · rw [if_neg hsigma, if_pos hdotted]
      exact .inr (.inl ⟨hdotted, rfl⟩)
    · rw [if_neg hsigma, if_neg hdotted]
      exact .inr (.inr ⟨hsigma, hdotted, rfl⟩)

theorem lowerChar_ne_nil (before : Text) (c : Char) (rest : Text) : lowerChar before c rest ≠ [] := by
  rcases lowerChar_cases before c rest with ⟨-, h | h⟩ | ⟨-, h⟩ | ⟨-, -, h⟩ <;> rw [h] <;> simp

theorem lowercaseFrom_eq_nil_iff {before t : Text} : lowercaseFrom before t = [] ↔ t = [] := by
  cases t with
  | nil => simp [lowercaseFrom]
  | cons c rest => simp [lowercaseFrom, lowerChar_ne_nil]

theorem lowerLetter_mem_lowercase {c : Char} {t : Text} (h : c ∈ t) (hsigma : c ≠ 'Σ') (hdotted : c ≠ 'İ') :
    lowerLetter c ∈ lowercase t := by
  have hfrom : ∀ before, lowerLetter c ∈ lowercaseFrom before t := by
    induction t with
    | nil => cases h
    | cons d rest ih =>
        intro before
        rw [lowercaseFrom, List.mem_append]
        rcases List.mem_cons.mp h with rfl | hrest
        · left
          simp [lowerChar, hsigma, hdotted]
        · exact .inr (ih hrest _)
  exact hfrom []

theorem exists_of_mem_lowercase {d : Char} {t : Text} (h : d ∈ lowercase t) :
    ∃ before c rest, c ∈ t ∧ d ∈ lowerChar before c rest := by
  have hfrom : ∀ before, d ∈ lowercaseFrom before t →
      ∃ before c rest, c ∈ t ∧ d ∈ lowerChar before c rest := by
    clear h
    induction t with
    | nil => exact fun _ h => absurd h List.not_mem_nil
    | cons c t ih =>
        intro before h
        rw [lowercaseFrom, List.mem_append] at h
        rcases h with hchar | hrest
        · exact ⟨before, c, t, List.mem_cons_self, hchar⟩
        · obtain ⟨before', c', rest, hc', hd⟩ := ih _ hrest
          exact ⟨before', c', rest, List.mem_cons_of_mem c hc', hd⟩
  exact hfrom [] h

/-- Lowered letters beyond ASCII stay above the marks. -/
theorem le_toNat_of_caseRun {n : Nat} {r : CaseRun} (hr : r ∈ caseRuns) (hcovers : r.covers n = true) :
    107 ≤ (n + r.shift).toNat := by
  have hall : (caseRuns.all fun r => decide (107 ≤ r.first + r.shift)) = true := by decide
  have hfirst := of_decide_eq_true (List.all_eq_true.mp hall r hr)
  simp only [CaseRun.covers, Bool.and_eq_true, decide_eq_true_eq] at hcovers
  omega

theorem isValidChar_of_caseRun {n : Nat} {r : CaseRun} (hr : r ∈ caseRuns) (hcovers : r.covers n = true) :
    (n + r.shift).toNat.isValidChar := by
  have hall : (caseRuns.all fun r => decide (r.last + r.shift < 0xD800) ||
      (decide (0xDFFF < r.first + r.shift) && decide (r.last + r.shift < 0x110000))) = true := by decide
  have hrange := List.all_eq_true.mp hall r hr
  simp only [CaseRun.covers, Bool.and_eq_true, decide_eq_true_eq, Bool.or_eq_true] at hcovers hrange
  unfold Nat.isValidChar
  omega

/-- Beyond ASCII, lowering leaves a character alone or takes it a run's distance further. -/
theorem lowerLetter_cases {c : Char} (hc : 128 ≤ c.toNat) :
    (lowerLetter c = c ∧ ∀ r ∈ caseRuns, r.covers c.toNat = false) ∨
      ∃ r ∈ caseRuns, r.covers c.toNat = true ∧ (lowerLetter c).toNat = (c.toNat + r.shift).toNat := by
  rw [lowerLetter, if_neg (by omega)]
  split
  · next r hfind =>
      have hr := List.mem_of_find?_eq_some hfind
      have hcovers : r.covers c.toNat = true := by simpa using List.find?_some hfind
      have hvalid := isValidChar_of_caseRun hr hcovers
      refine .inr ⟨r, hr, hcovers, ?_⟩
      rw [Char.ofNat, dif_pos hvalid]
      rfl
  · next hfind => exact .inl ⟨rfl, by simpa using hfind⟩

theorem eq_of_lowerLetter_eq {c d : Char} (hlt : d.toNat < 65) (h : lowerLetter c = d) : c = d := by
  by_cases hc : c.toNat < 128
  · have hall :=
      of_lt_128 (P := fun c => lowerLetter c == c || decide (65 ≤ (lowerLetter c).toNat)) (by decide) hc
    simp only [h, Bool.or_eq_true, beq_iff_eq, decide_eq_true_eq] at hall
    rcases hall with hsame | hle
    · exact hsame.symm
    · omega
  · rcases lowerLetter_cases (c := c) (by omega) with ⟨hsame, -⟩ | ⟨r, hr, hcovers, hshifted⟩
    · rw [← h, hsame]
    · have hle := le_toNat_of_caseRun hr hcovers
      rw [h] at hshifted
      omega

theorem lowerLetter_eq_self {d : Char} (hlt : d.toNat < 65) : lowerLetter d = d := by
  have hascii : d.toNat < 128 := by omega
  have hall := of_lt_128 (P := fun c => decide (65 ≤ c.toNat) || lowerLetter c == c) (by decide) hascii
  simp only [Bool.or_eq_true, beq_iff_eq, decide_eq_true_eq] at hall
  rcases hall with hle | hsame
  · omega
  · exact hsame

theorem eq_of_mem_lowerChar {before rest : Text} {c d : Char} (hlt : d.toNat < 65)
    (h : d ∈ lowerChar before c rest) : c = d := by
  rcases lowerChar_cases before c rest with ⟨-, hchar | hchar⟩ | ⟨-, hchar⟩ | ⟨-, -, hchar⟩
  · obtain rfl := List.mem_singleton.mp (hchar ▸ h)
    exact absurd hlt (by decide)
  · obtain rfl := List.mem_singleton.mp (hchar ▸ h)
    exact absurd hlt (by decide)
  · rw [hchar] at h
    simp only [List.mem_cons, List.not_mem_nil, or_false] at h
    rcases h with rfl | rfl
    · exact absurd hlt (by decide)
    · exact absurd hlt (by decide)
  · exact eq_of_lowerLetter_eq hlt (List.mem_singleton.mp (hchar ▸ h)).symm

/-- A text is lowered to a single mark only if it is that mark. -/
theorem lowercase_eq_mark_iff {t : Text} {d : Char} (hlt : d.toNat < 65) :
    lowercase t = [d] ↔ t = [d] := by
  constructor
  · intro h
    cases t with
    | nil => cases h
    | cons c rest =>
        rw [lowercase, lowercaseFrom, List.append_eq_singleton_iff] at h
        rcases h with ⟨hnil, -⟩ | ⟨hchar, hrest⟩
        · exact absurd hnil (lowerChar_ne_nil _ _ _)
        · obtain rfl := lowercaseFrom_eq_nil_iff.mp hrest
          have hmem : d ∈ lowerChar [] c [] := by simp [hchar]
          rw [eq_of_mem_lowerChar hlt hmem]
  · rintro rfl
    have hsigma : d ≠ 'Σ' := by rintro rfl; exact absurd hlt (by decide)
    have hdotted : d ≠ 'İ' := by rintro rfl; exact absurd hlt (by decide)
    simp [lowercase, lowercaseFrom, lowerChar, hsigma, hdotted, lowerLetter_eq_self hlt]

end Text

end Synopsis
