import Synopsis.Proofs.TextCase
import Synopsis.Proofs.TextPieces

/-!
# Lower case in pieces

Whether a sigma ends a word depends on the characters around it, but never on those beyond a blank or a
comma: neither is a letter, and neither is passed over. So a text is lowered piece by piece, whether it is
cut at commas or trimmed, and a text that is folded as a whole tells how its pieces are folded.
-/

namespace Synopsis

namespace Text

section Barriers

/-- A character that stays what it is and hides the letters behind it from those before it. -/
structure Barrier (c : Char) : Prop where
  not_cased : isCased c = false
  not_ignorable : isCaseIgnorable c = false
  lowered : lowerLetter c = c

variable {c : Char}

theorem Barrier.ne_sigma (h : Barrier c) : c ≠ 'Σ' := by
  rintro rfl
  exact absurd h.not_cased (by decide +kernel)

theorem Barrier.ne_dotted (h : Barrier c) : c ≠ 'İ' := by
  rintro rfl
  exact absurd h.not_cased (by decide +kernel)

theorem Barrier.lowerChar (h : Barrier c) (before rest : Text) : Text.lowerChar before c rest = [c] := by
  rw [Text.lowerChar, if_neg h.ne_sigma, if_neg h.ne_dotted, h.lowered]

theorem Barrier.startsCased_append (h : Barrier c) (s t : Text) :
    startsCased (s ++ c :: t) = startsCased s := by
  induction s with
  | nil => simp [startsCased, h.not_ignorable, h.not_cased]
  | cons d s ih =>
      unfold startsCased at ih ⊢
      rw [List.cons_append]
      by_cases hd : isCaseIgnorable d = true
      · rw [List.dropWhile_cons_of_pos hd, List.dropWhile_cons_of_pos hd, ih]
      · rw [List.dropWhile_cons_of_neg hd, List.dropWhile_cons_of_neg hd]

theorem Barrier.lowerChar_append (h : Barrier c) (before : Text) (d : Char) (rest t : Text) :
    Text.lowerChar before d (rest ++ c :: t) = Text.lowerChar before d rest := by
  rw [Text.lowerChar, h.startsCased_append, ← Text.lowerChar]

/-- What stands before a barrier does not count behind it. -/
theorem Barrier.lowercaseFrom_append (h : Barrier c) (before more t : Text) :
    lowercaseFrom (before ++ c :: more) t = lowercaseFrom before t := by
  induction t generalizing before with
  | nil => rfl
  | cons d rest ih =>
      have hchar : Text.lowerChar (before ++ c :: more) d rest = Text.lowerChar before d rest := by
        rw [Text.lowerChar, h.startsCased_append, ← Text.lowerChar]
      rw [lowercaseFrom, lowercaseFrom, hchar, ← List.cons_append, ih]

theorem Barrier.lowercase_append (h : Barrier c) (s t : Text) :
    lowercase (s ++ c :: t) = lowercase s ++ c :: lowercase t := by
  have hfrom : ∀ before, lowercaseFrom before (s ++ c :: t) = lowercaseFrom before s ++ c :: lowercase t := by
    induction s with
    | nil =>
        intro before
        have hafter : lowercaseFrom (c :: before) t = lowercase t := h.lowercaseFrom_append [] before t
        rw [List.nil_append, lowercaseFrom, lowercaseFrom, h.lowerChar, hafter]
        rfl
    | cons d s ih =>
        intro before
        rw [List.cons_append, lowercaseFrom, lowercaseFrom, h.lowerChar_append, ih, List.append_assoc]
  exact hfrom []

theorem Barrier.lowercase_cons (h : Barrier c) (t : Text) : lowercase (c :: t) = c :: lowercase t :=
  h.lowercase_append [] t

theorem Barrier.lowercase_intercalate (h : Barrier c) (ts : List Text) :
    lowercase ([c].intercalate ts) = [c].intercalate (ts.map lowercase) := by
  induction ts with
  | nil => rfl
  | cons t ts ih =>
      cases ts with
      | nil => simp
      | cons u us =>
          rw [List.map_cons] at ih
          rw [List.map_cons, List.map_cons, List.intercalate_cons_cons, List.intercalate_cons_cons, ← ih,
            List.append_assoc, List.append_assoc]
          exact h.lowercase_append t _

end Barriers

section Tables

def apart (a b : List (Nat × Nat)) : Bool :=
  a.all fun r => b.all fun s => r.2 < s.1 || s.2 < r.1

theorem inRanges_eq_false_of_apart {a b : List (Nat × Nat)} (h : apart a b = true) {n : Nat}
    (hn : inRanges a n = true) : inRanges b n = false := by
  obtain ⟨r, hr, hrn⟩ := List.any_eq_true.mp hn
  rw [inRanges, List.any_eq_false]
  intro s hs
  have hrs := List.all_eq_true.mp (List.all_eq_true.mp h r hr) s hs
  simp only [Bool.or_eq_true, Bool.and_eq_true, decide_eq_true_eq] at hrs hrn ⊢
  omega

def CaseRun.source (r : CaseRun) : Nat × Nat :=
  (r.first, r.last)

def CaseRun.image (r : CaseRun) : Nat × Nat :=
  ((r.first + r.shift).toNat, (r.last + r.shift).toNat)

theorem inRanges_source {r : CaseRun} (hr : r ∈ caseRuns) {n : Nat} (h : r.covers n = true) :
    inRanges (caseRuns.map CaseRun.source) n = true := by
  refine List.any_eq_true.mpr ⟨r.source, List.mem_map_of_mem hr, ?_⟩
  simp only [CaseRun.covers, Bool.and_eq_true, decide_eq_true_eq] at h
  rw [Bool.and_eq_true, decide_eq_true_eq, decide_eq_true_eq]
  exact h.1

theorem inRanges_image {r : CaseRun} (hr : r ∈ caseRuns) {n : Nat} (h : r.covers n = true) :
    inRanges (caseRuns.map CaseRun.image) (n + r.shift).toNat = true := by
  refine List.any_eq_true.mpr ⟨r.image, List.mem_map_of_mem hr, ?_⟩
  simp only [CaseRun.covers, Bool.and_eq_true, decide_eq_true_eq] at h
  rw [Bool.and_eq_true, decide_eq_true_eq, decide_eq_true_eq, CaseRun.image]
  dsimp only
  omega

end Tables

section Blanks

theorem barrier_comma : Barrier ',' :=
  ⟨by decide +kernel, by decide +kernel, by decide⟩

theorem barrier_of_isBlank {c : Char} (h : isBlank c = true) : Barrier c where
  not_cased := inRanges_eq_false_of_apart (by decide +kernel) h
  not_ignorable := inRanges_eq_false_of_apart (by decide +kernel) h
  lowered := by
    by_cases hc : c.toNat < 128
    · have hall := of_lt_128 (P := fun c => !isBlank c || lowerLetter c == c) (by decide) hc
      simpa [h] using hall
    · rcases lowerLetter_cases (c := c) (by omega) with ⟨hsame, -⟩ | ⟨r, hr, hcovers, -⟩
      · exact hsame
      · have hapart : apart blankRanges (caseRuns.map CaseRun.source) = true := by decide +kernel
        have hsource := inRanges_source hr hcovers
        rw [inRanges_eq_false_of_apart hapart h] at hsource
        cases hsource

theorem isBlank_lowerLetter {c : Char} (h : isBlank c = false) : isBlank (lowerLetter c) = false := by
  by_cases hc : c.toNat < 128
  · have hall := of_lt_128 (P := fun c => isBlank c || !isBlank (lowerLetter c)) (by decide) hc
    simpa [h] using hall
  · rcases lowerLetter_cases (c := c) (by omega) with ⟨hsame, -⟩ | ⟨r, hr, hcovers, hshifted⟩
    · rwa [hsame]
    · have hapart : apart (caseRuns.map CaseRun.image) blankRanges = true := by decide +kernel
      rw [isBlank, hshifted]
      exact inRanges_eq_false_of_apart hapart (inRanges_image hr hcovers)

theorem isBlank_of_mem_lowerChar {before rest : Text} {c d : Char} (hc : isBlank c = false)
    (hd : d ∈ lowerChar before c rest) : isBlank d = false := by
  rcases lowerChar_cases before c rest with ⟨-, hchar | hchar⟩ | ⟨-, hchar⟩ | ⟨-, -, hchar⟩
  · obtain rfl := List.mem_singleton.mp (hchar ▸ hd)
    decide
  · obtain rfl := List.mem_singleton.mp (hchar ▸ hd)
    decide
  · rcases List.mem_pair.mp (hchar ▸ hd) with rfl | rfl
    · decide
    · decide
  · obtain rfl := List.mem_singleton.mp (hchar ▸ hd)
    exact isBlank_lowerLetter hc

theorem no_blank_lowercase {t : Text} (h : ∀ c ∈ t, isBlank c = false) :
    ∀ c ∈ lowercase t, isBlank c = false := by
  intro d hd
  obtain ⟨before, c, rest, hc, hchar⟩ := exists_of_mem_lowercase hd
  exact isBlank_of_mem_lowerChar (h c hc) hchar

theorem trimStart_lowercase (t : Text) : trimStart (lowercase t) = lowercase (trimStart t) := by
  induction t with
  | nil => rfl
  | cons c t ih =>
      by_cases hc : isBlank c = true
      · rw [(barrier_of_isBlank hc).lowercase_cons, trimStart_cons_of_blank hc, trimStart_cons_of_blank hc, ih]
      · have hblank : isBlank c = false := by simpa using hc
        rw [trimStart_of_head hblank, lowercase, lowercaseFrom]
        obtain ⟨d, rest, hchar⟩ := List.exists_cons_of_ne_nil (lowerChar_ne_nil [] c t)
        have hd : isBlank d = false := isBlank_of_mem_lowerChar hblank (hchar ▸ List.mem_cons_self)
        rw [hchar, List.cons_append, trimStart_of_head hd]

/-- What the last character is lowered to ends the lowered text. -/
theorem exists_lowercase_concat (t : Text) (c : Char) :
    ∃ s before, lowercase (t ++ [c]) = s ++ lowerChar before c [] := by
  have hfrom : ∀ before, ∃ s after, lowercaseFrom before (t ++ [c]) = s ++ lowerChar after c [] := by
    induction t with
    | nil => exact fun before => ⟨[], before, by simp [lowercaseFrom]⟩
    | cons d t ih =>
        intro before
        obtain ⟨s, after, h⟩ := ih (d :: before)
        exact ⟨lowerChar before d (t ++ [c]) ++ s, after,
          by rw [List.cons_append, lowercaseFrom, h, List.append_assoc]⟩
  exact hfrom []

theorem trimEnd_lowercase (t : Text) : trimEnd (lowercase t) = lowercase (trimEnd t) := by
  induction t using List.reverseRecOn with
  | nil => rfl
  | append_singleton t c ih =>
      by_cases hc : isBlank c = true
      · rw [(barrier_of_isBlank hc).lowercase_append, lowercase_nil, trimEnd_concat_of_blank hc,
          trimEnd_concat_of_blank hc, ih]
      · have hblank : isBlank c = false := by simpa using hc
        rw [trimEnd_of_last hblank]
        obtain ⟨s, before, h⟩ := exists_lowercase_concat t c
        have hne := lowerChar_ne_nil before c []
        have hlast := isBlank_of_mem_lowerChar hblank (List.getLast_mem hne)
        rw [h, ← List.dropLast_concat_getLast hne, ← List.append_assoc, trimEnd_of_last hlast]

theorem trim_lowercase (t : Text) : trim (lowercase t) = lowercase (trim t) := by
  rw [trim, trimStart_lowercase, trimEnd_lowercase, ← trim]

end Blanks

section Ascii

theorem toNat_lt_of_toLower {c d : Char} (hd : d.toNat < 128) (h : c.toLower = d) : c.toNat < 128 := by
  unfold Char.toLower at h
  split at h
  · next hupper =>
      have hle := UInt32.le_iff_toNat_le.mp hupper.2
      exact lt_of_le_of_lt hle (by decide)
  · rwa [h]

/-- A text in which every character is lowered alike wherever it stands is lowered one by one. -/
theorem lowercase_eq_map {f : Char → Char} {t : Text}
    (h : ∀ c ∈ t, ∀ before rest, lowerChar before c rest = [f c]) :
    lowercase t = t.map f := by
  have hfrom : ∀ before, lowercaseFrom before t = t.map f := by
    induction t with
    | nil => exact fun _ => rfl
    | cons c t ih =>
        obtain ⟨hc, ht⟩ := List.forall_mem_cons.mp h
        intro before
        rw [lowercaseFrom, hc, ih ht]
        rfl
  exact hfrom []

theorem lowercase_of_ascii {t : Text} (h : ∀ c ∈ t, c.toNat < 128) : lowercase t = t.map Char.toLower := by
  apply lowercase_eq_map
  intro c hc before rest
  have hlt := h c hc
  have hsigma : c ≠ 'Σ' := by rintro rfl; exact absurd hlt (by decide)
  have hdotted : c ≠ 'İ' := by rintro rfl; exact absurd hlt (by decide)
  rw [lowerChar, if_neg hsigma, if_neg hdotted, lowerLetter, if_pos hlt]

end Ascii

section Marks

variable {d : Char}

theorem mem_lowercase_iff (hlt : d.toNat < 65) {t : Text} : d ∈ lowercase t ↔ d ∈ t := by
  constructor
  · intro h
    obtain ⟨before, c, rest, hc, hchar⟩ := exists_of_mem_lowercase h
    rwa [← eq_of_mem_lowerChar hlt hchar]
  · intro h
    have hsigma : d ≠ 'Σ' := by rintro rfl; exact absurd hlt (by decide)
    have hdotted : d ≠ 'İ' := by rintro rfl; exact absurd hlt (by decide)
    have hmem := lowerLetter_mem_lowercase h hsigma hdotted
    rwa [lowerLetter_eq_self hlt] at hmem

theorem mem_folded_iff (hlt : d.toNat < 65) (hblank : isBlank d = false) {t : Text} :
    d ∈ folded t ↔ d ∈ t := by
  rw [folded, mem_lowercase_iff hlt, mem_trim_iff hblank]

theorem cutAt_comma_lowercase (t : Text) : cutAt ',' (lowercase t) = (cutAt ',' t).map lowercase := by
  have hpieces : ∀ p ∈ (cutAt ',' t).map lowercase, ',' ∉ p := by
    intro p hp
    obtain ⟨q, hq, rfl⟩ := List.mem_map.mp hp
    rw [mem_lowercase_iff (by decide)]
    exact sep_not_mem_piece hq
  have hne : (cutAt ',' t).map lowercase ≠ [] := by simp [cutAt_ne_nil]
  rw [← cutAt_intercalate hne hpieces, ← barrier_comma.lowercase_intercalate, intercalate_cutAt]

/-- The folded pieces between the commas of a text are those of the folded text, trimmed. -/
theorem map_folded_cutAt_comma (t : Text) : (cutAt ',' t).map folded = (cutAt ',' (folded t)).map trim := by
  rw [folded, ← trim_lowercase, map_trim_cutAt_trim (by decide), cutAt_comma_lowercase, List.map_map]
  apply List.map_congr_left
  intro p _
  exact (trim_lowercase p).symm

end Marks

end Text

end Synopsis
