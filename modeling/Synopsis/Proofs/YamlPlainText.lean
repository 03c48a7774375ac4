import Synopsis.Proofs.YamlPlaces

/-!
# Plain text written and read

A plain text that is written over one or more lines reads back as itself: a line is broken at a single space
only, which is what the break is read as, and no word of the text could be taken for a mark. Reading goes on up
to the next line that is not indented.
-/

namespace Synopsis

namespace Yaml

/-- The gap before what is left of a text, by whether a space has just been written. -/
inductive PlainGap : (afterSpace : Bool) → Gap → Text → Prop
  | word (t : Text) : PlainGap false .none t
  | spaces (u : Text) {t : Text} (h : t ≠ []) : PlainGap true (.spaces u) t
  | folded {t : Text} (h : t.head?.getD ' ' ≠ ' ') : PlainGap false (.lines (some '\n') []) t

theorem atWordEnd_cons {c : Char} (h : c = ' ' ∨ isVisible c = true) (t : Text) :
    atWordEnd (c :: t) = (c == ' ') := by
  rcases h with rfl | h
  · rfl
  · rw [atWordEnd, isBlankOrBreak_of_isVisible h, beq_false_of_ne (ne_of_isVisible h (by decide))]

theorem endsWord_plainFrom {t : Text} (h : ∀ c ∈ t, c = ' ' ∨ isVisible c = true) (afterSpace : Bool)
    (column : Nat) (rest : Text) (hword : atWordEnd t = false) :
    endsWord ((plainFrom afterSpace column t ++ '\n' :: rest).head?.getD endMark) = false := by
  cases t with
  | nil => cases hword
  | cons c t =>
      rw [atWordEnd_cons (h c List.mem_cons_self)] at hword
      have hvisible : isVisible c = true := (h c List.mem_cons_self).resolve_left (by simpa using hword)
      rw [plainFrom, hword]
      exact endsWord_of_isVisible hvisible

theorem plain_visible {c : Char} (hc : isVisible c = true) {gap : Gap} {indent : Int}
    {offset line column : Nat} {t : Text} (hcolon : (c == ':' && endsWord (t.head?.getD endMark)) = false)
    (hgap : (gap != .none && (c == '#' || decide ((column : Int) < indent))) = false) (acc : Text) :
    plain false indent gap acc (placeFrom offset line column (c :: t)) =
      plain false indent .none (extend acc gap c) (placeFrom (offset + 1) line (column + 1) t) := by
  have hstop : stopsPlain false c (t.head?.getD endMark) = false := by
    simp only [stopsPlain, endsWord_of_isVisible hc, Bool.false_and, Bool.or_false, Bool.false_or]
    exact hcolon
  rw [placeFrom_visible hc, plain, if_neg (ne_of_isVisible hc (by decide)),
    if_neg (by simp [isBreak_of_isVisible hc]), peek_placeFrom, hstop, Bool.not_false, Bool.true_and, hgap]
  rfl

theorem plain_space (indent : Int) (gap : Gap) (acc : Text) (offset line column : Nat) (t : Text) :
    plain false indent gap acc (placeFrom offset line column (' ' :: t)) =
      plain false indent (gap.addSpace ' ') acc (placeFrom (offset + 1) line (column + 1) t) := by
  rw [placeFrom_space, plain]
  rfl

/-- Reading ends behind the line where the next one is not indented. -/
theorem plain_feed {rest : Text} (hrest : BeginsLine rest) (acc : Text) (offset line column : Nat) :
    plain false 1 .none acc (placeFrom offset line column ('\n' :: rest)) =
      (⟨acc.reverse, placeFrom (offset + 1) (line + 1) 0 rest⟩, true) := by
  rw [placeFrom_feed, plain, if_neg (show ¬ '\n' = ' ' by decide), if_pos (show isBreak '\n' = true by decide),
    hrest.isDocumentMark]
  cases rest with
  | nil => rfl
  | cons c rest =>
      obtain ⟨hc, -, -, -⟩ := hrest c rfl
      rw [placeFrom_visible hc]
      simp only [Bool.false_eq_true, if_false, Gap.addBreak]
      rw [plain, if_neg (ne_of_isVisible hc (by decide)), if_neg (by simp [isBreak_of_isVisible hc]),
        if_pos (by simp)]
      rfl

theorem plain_indentText (acc : Text) (offset line column : Nat) (t : Text) :
    plain false 1 .none acc (placeFrom offset line column (indentText ++ t)) =
      plain false 1 (.lines (some '\n') []) acc (placeFrom (offset + 3) (line + 1) 2 t) := by
  have hmark := isDocumentMark_cons (show ' ' ≠ '-' by decide) (by decide) (offset + 1) (line + 1) 0 (' ' :: t)
  rw [show indentText ++ t = '\n' :: ' ' :: ' ' :: t from rfl, placeFrom_feed, plain,
    if_neg (show ¬ '\n' = ' ' by decide), if_pos (show isBreak '\n' = true by decide), hmark]
  simp only [Bool.false_eq_true, if_false, Gap.addBreak, plain_space, Gap.addSpace]
  rfl

theorem hasInnerMark_cons {afterBlank : Bool} {c : Char} {t : Text}
    (h : hasInnerMark afterBlank (c :: t) = false) :
    (c == ':' && atWordEnd t) = false ∧ (c == '#' && afterBlank) = false ∧
      hasInnerMark (isBlankOrBreak c) t = false := by
  simpa only [hasInnerMark, Bool.or_eq_false_iff, and_assoc] using h

theorem reverse_extend (acc : Text) (gap : Gap) (c : Char) :
    (extend acc gap c).reverse = acc.reverse ++ gap.text ++ [c] := by
  simp [extend]

theorem getLast?_tail {c : Char} {t : Text} (h : (c :: t).getLast? ≠ some ' ') : t.getLast? ≠ some ' ' := by
  cases t with
  | nil => simp
  | cons d t => simpa using h

/-- What is written from any place behind the first column on is read as a text, up to the next line. -/
def ReadsPlain (gap : Gap) (acc written t rest : Text) : Prop :=
  ∀ offset line place, 1 ≤ place → ∃ offset' line', line < line' ∧
    plain false 1 gap acc (placeFrom offset line place (written ++ '\n' :: rest)) =
      (⟨t, placeFrom offset' line' 0 rest⟩, true)

namespace ReadsPlain

variable {gap : Gap} {acc w t rest : Text}

theorem feed (hrest : BeginsLine rest) (acc : Text) : ReadsPlain .none acc [] acc.reverse rest :=
  fun offset line place _ => ⟨offset + 1, line + 1, Nat.lt_succ_self line,
    plain_feed hrest acc offset line place⟩

theorem word {c : Char} (hc : isVisible c = true)
    (hcolon : (c == ':' && endsWord ((w ++ '\n' :: rest).head?.getD endMark)) = false)
    (hnumber : (c == '#' && gap != .none) = false) (h : ReadsPlain .none (extend acc gap c) w t rest) :
    ReadsPlain gap acc (c :: w) t rest := by
  intro offset line place hplace
  obtain ⟨offset', line', hline, hread⟩ := h (offset + 1) line (place + 1) (Nat.le_succ_of_le hplace)
  refine ⟨offset', line', hline, ?_⟩
  have hcolumn : ¬ (place : Int) < 1 := by omega
  rw [List.cons_append, plain_visible hc hcolon (by simpa [hcolumn, Bool.and_comm] using hnumber), hread]

theorem space (h : ReadsPlain (gap.addSpace ' ') acc w t rest) : ReadsPlain gap acc (' ' :: w) t rest := by
  intro offset line place hplace
  obtain ⟨offset', line', hline, hread⟩ := h (offset + 1) line (place + 1) (Nat.le_succ_of_le hplace)
  exact ⟨offset', line', hline, by rw [List.cons_append, plain_space, hread]⟩

theorem indented (h : ReadsPlain (.lines (some '\n') []) acc w t rest) :
    ReadsPlain .none acc (indentText ++ w) t rest := by
  intro offset line place hplace
  obtain ⟨offset', line', hline, hread⟩ := h (offset + 3) (line + 1) 2 (by omega)
  exact ⟨offset', line', by omega, by rw [List.append_assoc, plain_indentText, hread]⟩

end ReadsPlain

/-- From any state that writing and reading reach together before it, a text is read back up to the next
line. -/
def PlainReads (t rest : Text) : Prop :=
  ∀ ⦃afterSpace : Bool⦄ ⦃gap : Gap⦄, PlainGap afterSpace gap t → t.getLast? ≠ some ' ' →
    hasInnerMark (gap != .none) t = false → ∀ (acc : Text) (column : Nat),
      ReadsPlain gap acc (plainFrom afterSpace column t) (acc.reverse ++ gap.text ++ t) rest

namespace PlainReads

variable {t rest : Text}

theorem nil (hrest : BeginsLine rest) : PlainReads [] rest := by
  intro afterSpace gap hgap _ _ acc column
  cases hgap with
  | word => simpa [Gap.text, plainFrom] using ReadsPlain.feed hrest acc
  | spaces u h => exact absurd rfl h
  | folded h => exact absurd rfl h

theorem space (h : PlainReads t rest) : PlainReads (' ' :: t) rest := by
  intro afterSpace gap hgap hlast hmark acc column
  have ht : t ≠ [] := by
    rintro rfl
    exact hlast rfl
  have hmark' := (hasInnerMark_cons hmark).2.2
  have hlast' := getLast?_tail hlast
  rw [plainFrom]
  by_cases hfold : (' ' == ' ' && !afterSpace && bestWidth < column && t.head?.any (· != ' ')) = true
  · rw [if_pos hfold]
    simp only [Bool.and_eq_true, Bool.not_eq_true'] at hfold
    obtain ⟨⟨⟨-, hafter⟩, -⟩, hhead⟩ := hfold
    have hne : t.head?.getD ' ' ≠ ' ' := by
      cases t with
      | nil => cases hhead
      | cons d t => simpa using hhead
    cases hgap with
    | spaces u => cases hafter
    | folded h => exact absurd rfl h
    | word => exact .indented (by simpa [Gap.text] using h (.folded hne) hlast' hmark' acc indentColumn)
  · rw [if_neg hfold]
    refine .space ?_
    cases hgap with
    | folded h => exact absurd rfl h
    | word => simpa [Gap.text, Gap.addSpace] using h (.spaces [' '] ht) hlast' hmark' acc (column + 1)
    | spaces u =>
      simpa [Gap.text, Gap.addSpace] using h (.spaces (u ++ [' ']) ht) hlast' hmark' acc (column + 1)

theorem word {c : Char} (hc : isVisible c = true) (hascii : ∀ d ∈ t, d = ' ' ∨ isVisible d = true)
    (h : PlainReads t rest) : PlainReads (c :: t) rest := by
  intro afterSpace gap hgap hlast hmark acc column
  obtain ⟨hcolon, hnumber, hmark'⟩ := hasInnerMark_cons hmark
  have hspace := ne_of_isVisible (d := ' ') hc (by decide)
  have hnext :
      (c == ':' && endsWord ((plainFrom false (column + 1) t ++ '\n' :: rest).head?.getD endMark)) = false := by
    by_cases hword : atWordEnd t = true
    · rw [hword, Bool.and_true] at hcolon
      rw [hcolon, Bool.false_and]
    · rw [endsWord_plainFrom hascii _ _ _ (by simpa using hword), Bool.and_false]
  rw [isBlankOrBreak_of_isVisible hc] at hmark'
  have hread := h (.word t) (getLast?_tail hlast) hmark' (extend acc gap c) (column + 1)
  rw [plainFrom, beq_false_of_ne hspace, Bool.false_and, Bool.false_and, Bool.false_and, if_neg (by decide)]
  refine .word hc hnext hnumber ?_
  simpa [reverse_extend, Gap.text] using hread

end PlainReads

theorem plainReads_of_ascii {t rest : Text} (hascii : ∀ c ∈ t, c = ' ' ∨ isVisible c = true)
    (hrest : BeginsLine rest) :
    PlainReads t rest := by
  induction t with
  | nil => exact .nil hrest
  | cons c t ih =>
      obtain ⟨hc, ht⟩ := List.forall_mem_cons.mp hascii
      rcases hc with rfl | hvisible
      · exact .space (ih ht)
      · exact .word hvisible ht (ih ht)

/-- The form of a text that may be written plain, whatever it then reads as. -/
structure IsPlain (t : Text) : Prop where
  ne_nil : t ≠ []
  ascii : ∀ c ∈ t, c = ' ' ∨ isVisible c = true
  head : t.head? ≠ some ' '
  last : t.getLast? ≠ some ' '
  leading : hasLeadingMark t = false
  inner : hasInnerMark (t.head?.any isBlankOrBreak) t.tail = false

theorem ofPlain_of_admitsPlain {t : Text} (h : admitsPlain t = true) : Tag.ofPlain t = .text := by
  simp only [admitsPlain, Bool.and_eq_true, beq_iff_eq] at h
  exact h.1.1.1.1

theorem isPlain_of_admitsPlain {t : Text} (h : admitsPlain t = true) : IsPlain t := by
  simp only [admitsPlain, Bool.and_eq_true, Bool.not_eq_true', beq_iff_eq, edgeIsBlank,
    Bool.or_eq_false_iff, hasMarks, List.all_eq_true, List.any_eq_false] at h
  obtain ⟨⟨⟨⟨htag, hascii⟩, hhead, hlast⟩, hbreak⟩, ⟨-, hleading⟩, hinner⟩ := h
  refine ⟨?_, ?_, ?_, ?_, hleading, hinner⟩
  · rintro rfl
    exact absurd htag (by decide)
  · intro c hc
    rcases isPlainAscii_cases (hascii c hc) with rfl | hspace | hvisible
    · exact absurd rfl (hbreak _ hc)
    · exact .inl hspace
    · exact .inr hvisible
  · intro hspace
    rw [hspace] at hhead
    cases hhead
  · intro hspace
    rw [hspace] at hlast
    cases hlast

/-- Nowhere in a plain text does a mark stand, its first character included. -/
theorem IsPlain.hasInnerMark {t : Text} (h : IsPlain t) : hasInnerMark false t = false := by
  cases t with
  | nil => rfl
  | cons c t =>
      have hleading := h.leading
      have hinner : Yaml.hasInnerMark (isBlankOrBreak c) t = false := h.inner
      simp only [hasLeadingMark, Bool.or_eq_false_iff, Bool.and_eq_false_iff] at hleading
      have hcolon : (c == ':' && atWordEnd t) = false := by
        rcases hleading.2 with hmark | hword
        · have hne : c ≠ ':' := by
            rintro rfl
            exact absurd hmark (by decide)
          rw [beq_false_of_ne hne, Bool.false_and]
        · rw [hword, Bool.and_false]
      rw [Yaml.hasInnerMark, hcolon, Bool.and_false, hinner]
      rfl

/-- A plain text is read back from a line that it begins behind the first column. -/
theorem IsPlain.readsPlain {t rest : Text} (h : IsPlain t) (hrest : BeginsLine rest) (column : Nat) :
    ReadsPlain .none [] (plainFrom false column t) t rest :=
  plainReads_of_ascii h.ascii hrest (.word t) h.last h.hasInnerMark [] column

theorem plain_word {w : Text} (hw : ∀ c ∈ w, isVisible c = true ∧ c ≠ ':') (indent : Int) (acc : Text)
    (offset line place : Nat) (t : Text) :
    plain false indent .none acc (placeFrom offset line place (w ++ t)) =
      plain false indent .none (w.reverse ++ acc)
        (placeFrom (offset + w.length) line (place + w.length) t) := by
  induction w generalizing acc offset place with
  | nil => rfl
  | cons c w ih =>
      obtain ⟨hc, hcolon⟩ := hw c List.mem_cons_self
      rw [List.cons_append, plain_visible hc (by simp [hcolon]) rfl,
        ih fun d hd => hw d (List.mem_cons_of_mem c hd)]
      simp [extend, Gap.text, Nat.add_assoc, Nat.add_comm 1]

theorem plain_colon {t : Text} (ht : endsWord (t.head?.getD endMark) = true) (indent : Int) (acc : Text)
    (offset line place : Nat) :
    plain false indent .none acc (placeFrom offset line place (':' :: t)) =
      (⟨acc.reverse, placeFrom offset line place (':' :: t)⟩, false) := by
  have hcolon : isVisible ':' = true := by decide
  rw [placeFrom_visible hcolon, plain, if_neg (show ¬ ':' = ' ' by decide),
    if_neg (show ¬ isBreak ':' = true by decide), if_pos (by simp [stopsPlain, peek_placeFrom, ht])]
  rfl

end Yaml

end Synopsis
