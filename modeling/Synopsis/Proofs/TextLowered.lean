import Synopsis.Proofs.TextFolding

/-!
# Lowered texts

No letter that has another one in lower case is left in a lowered text, so lowering or folding a second time
changes nothing. A blank of the lowered text was one before, and what stands on its two sides was lowered by
itself. Few ASCII letters are reached from beyond ASCII; where the lowered text has only others, the text
was ASCII.
-/

namespace Synopsis

namespace Text

section Settled

namespace CaseRun

/-- No letter that `r` gives is one that `q` lowers: the two ranges are apart, or `q` takes every other
letter and `r` gives the ones between. -/
def avoids (r q : CaseRun) : Bool :=
  r.image.2.blt q.first || q.last.blt r.image.1 ||
    (q.step == 2 && (r.step == 2 || r.first == r.last) && 0 < r.image.1 && (r.image.1 + q.first) % 2 == 1)

theorem not_covers_of_avoids {r q : CaseRun} (h : r.avoids q = true) {n : Nat} (hn : r.covers n = true) :
    q.covers (n + r.shift).toNat = false := by
  simp only [avoids, covers, Bool.or_eq_true, Bool.and_eq_true, decide_eq_true_eq, beq_iff_eq,
    Nat.blt_eq] at h hn
  simp only [image] at h
  obtain ⟨⟨hfirst, hlast⟩, hstep⟩ := hn
  rw [covers, Bool.eq_false_iff, Ne, Bool.and_eq_true, Bool.and_eq_true, decide_eq_true_eq, decide_eq_true_eq,
    beq_iff_eq]
  rintro ⟨⟨hqfirst, hqlast⟩, hqstep⟩
  rcases h with (hbelow | habove) | ⟨⟨⟨htwo, hletters⟩, hpos⟩, hodd⟩
  · omega
  · omega
  · rw [htwo] at hqstep
    rcases hletters with hevery | hsingle
    · rw [hevery] at hstep
      omega
    · omega

theorem not_covers_of_lt {r : CaseRun} (hr : r ∈ caseRuns) {n : Nat} (hn : n < 128) : r.covers n = false := by
  have hall : (caseRuns.all fun r => decide (128 ≤ r.first)) = true := by decide
  have hfirst := of_decide_eq_true (List.all_eq_true.mp hall r hr)
  have hlt : ¬ r.first ≤ n := by omega
  simp [covers, hlt]

end CaseRun

/-- The capital letters of ASCII, and the dotted capital I, which has no single letter in lower case. -/
def capitalRanges : List (Nat × Nat) :=
  [(0x41, 0x5A), (0x130, 0x130)]

/-- A character that is left as it is wherever it stands. -/
structure Settled (c : Char) : Prop where
  no_capital : inRanges capitalRanges c.toNat = false
  not_covered : ∀ r ∈ caseRuns, r.covers c.toNat = false

variable {c : Char}

theorem Settled.lowerLetter (h : Settled c) : Text.lowerLetter c = c := by
  by_cases hc : c.toNat < 128
  · have hall :=
      of_lt_128 (P := fun c => inRanges capitalRanges c.toNat || Text.lowerLetter c == c) (by decide) hc
    simpa [h.no_capital] using hall
  · rcases lowerLetter_cases (c := c) (by omega) with ⟨hsame, -⟩ | ⟨r, hr, hcovers, -⟩
    · exact hsame
    · rw [h.not_covered r hr] at hcovers
      cases hcovers

theorem settled_lowerLetter (hdotted : c ≠ 'İ') : Settled (lowerLetter c) := by
  by_cases hc : c.toNat < 128
  · have hall := of_lt_128 (P := fun c => !inRanges capitalRanges (lowerLetter c).toNat &&
      decide ((lowerLetter c).toNat < 128)) (by decide) hc
    rw [Bool.and_eq_true, Bool.not_eq_true', decide_eq_true_eq] at hall
    exact ⟨hall.1, fun r hr => CaseRun.not_covers_of_lt hr hall.2⟩
  · rcases lowerLetter_cases (c := c) (by omega) with ⟨hsame, hnot⟩ | ⟨r, hr, hcovers, hshifted⟩
    · have hne : c.toNat ≠ 0x130 := fun h => hdotted (Char.ext (UInt32.toNat_inj.mp h))
      rw [hsame]
      refine ⟨?_, hnot⟩
      simp only [inRanges, capitalRanges, List.any_cons, List.any_nil, Bool.or_false, Bool.or_eq_false_iff,
        Bool.and_eq_false_iff, decide_eq_false_iff_not]
      omega
    · have hapart : apart (caseRuns.map CaseRun.image) capitalRanges = true := by decide +kernel
      have havoids : (caseRuns.all fun r => caseRuns.all r.avoids) = true := by decide +kernel
      constructor
      · rw [hshifted]
        exact inRanges_eq_false_of_apart hapart (inRanges_image hr hcovers)
      · intro q hq
        rw [hshifted]
        exact CaseRun.not_covers_of_avoids (List.all_eq_true.mp (List.all_eq_true.mp havoids r hr) q hq) hcovers

theorem Settled.lowerChar (h : Settled c) (before rest : Text) : Text.lowerChar before c rest = [c] := by
  rcases lowerChar_cases before c rest with ⟨rfl, -⟩ | ⟨rfl, -⟩ | ⟨-, -, hchar⟩
  · exact absurd h.lowerLetter (by decide +kernel)
  · exact absurd h.no_capital (by decide)
  · rw [hchar, h.lowerLetter]

theorem settled_of_mem_lowerChar {before rest : Text} {d : Char} (h : d ∈ lowerChar before c rest) :
    Settled d := by
  rcases lowerChar_cases before c rest with ⟨-, hchar | hchar⟩ | ⟨-, hchar⟩ | ⟨-, hdotted, hchar⟩
  · obtain rfl := List.mem_singleton.mp (hchar ▸ h)
    exact ⟨by decide, by decide +kernel⟩
  · obtain rfl := List.mem_singleton.mp (hchar ▸ h)
    exact ⟨by decide, by decide +kernel⟩
  · rcases List.mem_pair.mp (hchar ▸ h) with rfl | rfl
    · exact ⟨by decide, by decide +kernel⟩
    · exact ⟨by decide, by decide +kernel⟩
  · obtain rfl := List.mem_singleton.mp (hchar ▸ h)
    exact settled_lowerLetter hdotted

theorem settled_of_mem_lowercase {t : Text} : ∀ c ∈ lowercase t, Settled c := by
  intro d hd
  obtain ⟨before, c, rest, -, hchar⟩ := exists_of_mem_lowercase hd
  exact settled_of_mem_lowerChar hchar

theorem lowercase_of_settled {t : Text} (h : ∀ c ∈ t, Settled c) : lowercase t = t :=
  (lowercase_eq_map fun c hc => (h c hc).lowerChar).trans (List.map_id t)

@[simp] theorem lowercase_lowercase (t : Text) : lowercase (lowercase t) = lowercase t :=
  lowercase_of_settled settled_of_mem_lowercase

@[simp] theorem folded_folded (t : Text) : folded (folded t) = folded t := by
  rw [folded, folded, trim_lowercase, trim_trim, lowercase_lowercase]

end Settled

section Sides

variable {b : Char} {s t u : Text}

theorem append_eq_append_cons_cases {r : Text} (h : r ++ t = s ++ b :: u) :
    (∃ w, s = r ++ w ∧ t = w ++ b :: u) ∨ ∃ w, r = s ++ b :: w ∧ u = w ++ t := by
  rcases List.append_eq_append_iff.mp h with ⟨w, hs, ht⟩ | ⟨w, hr, hw⟩
  · exact .inl ⟨w, hs, ht⟩
  · cases w with
    | nil => exact .inl ⟨[], by rw [hr, List.append_nil, List.append_nil], hw.symm⟩
    | cons d w =>
        obtain ⟨rfl, hu⟩ := List.cons.inj hw
        exact .inr ⟨w, hr, hu⟩

/-- A blank of a lowered text is one of the text, and the texts on its two sides are lowered by themselves. -/
theorem exists_of_lowercase_eq_append (hb : isBlank b = true) (h : lowercase t = s ++ b :: u) :
    ∃ s' u', t = s' ++ b :: u' ∧ lowercase s' = s ∧ lowercase u' = u := by
  have hbarrier := barrier_of_isBlank hb
  have hfrom : ∀ before s, lowercaseFrom before t = s ++ b :: u →
      ∃ s' u', t = s' ++ b :: u' ∧ lowercaseFrom before s' = s ∧ lowercase u' = u := by
    clear h
    induction t with
    | nil => exact fun before s h => absurd h.symm (by simp [lowercaseFrom])
    | cons c t ih =>
        intro before s h
        rw [lowercaseFrom] at h
        rcases append_eq_append_cons_cases h with ⟨w, rfl, hw⟩ | ⟨w, hchar, hu⟩
        · obtain ⟨s', u', rfl, hs', hu'⟩ := ih _ _ hw
          refine ⟨c :: s', u', rfl, ?_, hu'⟩
          rw [lowercaseFrom, hs', hbarrier.lowerChar_append]
        · -- Only a blank is lowered to one, and to nothing else.
          have hmem : b ∈ lowerChar before c t := by simp [hchar]
          have hc : isBlank c = true := by
            by_contra hc
            have hnot := isBlank_of_mem_lowerChar (by simpa using hc) hmem
            rw [hb] at hnot
            cases hnot
          rw [(barrier_of_isBlank hc).lowerChar] at hchar
          rcases List.append_eq_singleton_iff.mp hchar.symm with ⟨rfl, hcons⟩ | ⟨-, hnil⟩
          · obtain ⟨rfl, rfl⟩ := List.cons.inj hcons
            have hafter : lowercaseFrom (b :: before) t = lowercase t :=
              hbarrier.lowercaseFrom_append [] before t
            exact ⟨[], t, rfl, rfl, hafter.symm.trans hu.symm⟩
          · cases hnil
  exact hfrom [] s h

end Sides

section Proper

def isProper (d : Char) : Bool :=
  d.toNat < 128 && d != 'i' && !inRanges (caseRuns.map CaseRun.image) d.toNat

theorem lowerChar_of_isProper {before rest : Text} {c : Char}
    (h : ∀ d ∈ lowerChar before c rest, isProper d = true) :
    lowerChar before c rest = [c.toLower] := by
  rcases lowerChar_cases before c rest with ⟨-, hchar | hchar⟩ | ⟨-, hchar⟩ | ⟨-, -, hchar⟩
  · exact absurd (h 'ς' (by simp [hchar])) (by decide)
  · exact absurd (h 'σ' (by simp [hchar])) (by decide)
  · exact absurd (h 'i' (by simp [hchar])) (by decide)
  · have hproper := h (lowerLetter c) (by simp [hchar])
    simp only [isProper, Bool.and_eq_true, decide_eq_true_eq, Bool.not_eq_true'] at hproper
    obtain ⟨⟨hascii, -⟩, himage⟩ := hproper
    rw [hchar]
    by_cases hc : c.toNat < 128
    · rw [lowerLetter, if_pos hc]
    · rcases lowerLetter_cases (c := c) (by omega) with ⟨hsame, -⟩ | ⟨r, hr, hcovers, hshifted⟩
      · rw [hsame] at hascii
        exact absurd hascii hc
      · rw [hshifted, inRanges_image hr hcovers] at himage
        cases himage

/-- A text that is lowered to proper characters alone is lowered one by one. -/
theorem map_toLower_of_lowercase {t : Text} (h : ∀ d ∈ lowercase t, isProper d = true) :
    t.map Char.toLower = lowercase t := by
  have hfrom : ∀ before, (∀ d ∈ lowercaseFrom before t, isProper d = true) →
      t.map Char.toLower = lowercaseFrom before t := by
    clear h
    induction t with
    | nil => exact fun _ _ => rfl
    | cons c t ih =>
        intro before h
        rw [lowercaseFrom, List.forall_mem_append] at h
        rw [lowercaseFrom, List.map_cons, lowerChar_of_isProper h.1, ih _ h.2]
        rfl
  exact hfrom [] h

end Proper

end Text

end Synopsis
