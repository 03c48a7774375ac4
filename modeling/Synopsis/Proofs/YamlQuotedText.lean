import Synopsis.Proofs.YamlPlaces

/-!
# Text in single quotes written and read

A text in single quotes reads back as itself: a line break is written once more than it is read, a quote is
written twice, and a single space may become a line break. Reading ends at the quote behind the text.
-/

namespace Synopsis

namespace Yaml

theorem addBreak_none : Gap.addBreak '\n' .none = .lines (some '\n') [] := rfl

theorem addBreak_replicate (n : Nat) : Gap.addBreak '\n' (.lines (some '\n') (List.replicate n '\n')) =
    .lines (some '\n') (List.replicate (n + 1) '\n') := by
  rw [List.replicate_succ']
  rfl

/-- What is written from any place on, and the closing quote behind it, is read as a text; a line ends there. -/
def ReadsSingle (gap : Gap) (acc written t rest : Text) : Prop :=
  ∀ offset line place, ∃ offset' line' place', line ≤ line' ∧
    singleQuoted gap acc (placeFrom offset line place (written ++ '\'' :: '\n' :: rest)) =
      some ⟨t, placeFrom offset' line' place' ('\n' :: rest)⟩

namespace ReadsSingle

variable {gap : Gap} {acc w t rest : Text}

theorem close (gap : Gap) (acc rest : Text) : ReadsSingle gap acc [] (acc.reverse ++ gap.text) rest := by
  have hc : isVisible '\'' = true := by decide
  intro offset line place
  refine ⟨offset + 1, line, place + 1, Nat.le_refl line, ?_⟩
  rw [List.nil_append, placeFrom_visible hc, singleQuoted.eq_def, placeFrom_feed]
  rfl

theorem word {c : Char} (hc : isVisible c = true) (hquote : c ≠ '\'')
    (h : ReadsSingle .none (extend acc gap c) w t rest) :
    ReadsSingle gap acc (c :: w) t rest := by
  have hend := ne_of_isVisible (d := endMark) hc (by decide)
  have hspace := ne_of_isVisible (d := ' ') hc (by decide)
  have htab := ne_of_isVisible (d := '\t') hc (by decide)
  intro offset line place
  obtain ⟨offset', line', place', hline, hread⟩ := h (offset + 1) line (place + 1)
  refine ⟨offset', line', place', hline, ?_⟩
  rw [List.cons_append, placeFrom_visible hc, singleQuoted.eq_def]
  simp [hend, hspace, htab, isBreak_of_isVisible hc, hquote, hread]

theorem doubled (h : ReadsSingle .none (extend acc gap '\'') w t rest) :
    ReadsSingle gap acc ('\'' :: '\'' :: w) t rest := by
  have hc : isVisible '\'' = true := by decide
  intro offset line place
  obtain ⟨offset', line', place', hline, hread⟩ := h (offset + 2) line (place + 2)
  refine ⟨offset', line', place', hline, ?_⟩
  rw [List.cons_append, List.cons_append, placeFrom_visible hc, placeFrom_visible hc, singleQuoted.eq_def]
  exact hread

theorem space (h : ReadsSingle (gap.addSpace ' ') acc w t rest) : ReadsSingle gap acc (' ' :: w) t rest := by
  intro offset line place
  obtain ⟨offset', line', place', hline, hread⟩ := h (offset + 1) line (place + 1)
  refine ⟨offset', line', place', hline, ?_⟩
  rw [List.cons_append, placeFrom_space, singleQuoted.eq_def]
  exact hread

/-- No line goes on in its first column, where it could be a mark. -/
theorem feed {c : Char} (hc : c = ' ' ∨ c = '\n') (h : ReadsSingle (gap.addBreak '\n') acc (c :: w) t rest) :
    ReadsSingle gap acc ('\n' :: c :: w) t rest := by
  have hdash : c ≠ '-' := by rcases hc with rfl | rfl <;> decide
  have hdot : c ≠ '.' := by rcases hc with rfl | rfl <;> decide
  intro offset line place
  obtain ⟨offset', line', place', hline, hread⟩ := h (offset + 1) (line + 1) 0
  refine ⟨offset', line', place', Nat.le_of_succ_le hline, ?_⟩
  have hmark := isDocumentMark_cons hdash hdot (offset + 1) (line + 1) 0 (w ++ '\'' :: '\n' :: rest)
  rw [List.cons_append, List.cons_append, placeFrom_feed, singleQuoted.eq_def]
  simp only [hmark]
  exact hread

theorem indented (h : ReadsSingle (gap.addBreak '\n') acc w t rest) :
    ReadsSingle gap acc ('\n' :: ' ' :: ' ' :: w) t rest := by
  have hspaces : ((gap.addBreak '\n').addSpace ' ').addSpace ' ' = gap.addBreak '\n' := by cases gap <;> rfl
  refine feed (.inl rfl) (space (space ?_))
  rw [hspaces]
  exact h

theorem broken (column : Nat) (u : Text)
    (h : ReadsSingle (gap.addBreak '\n') acc (singleFrom '\n' column u) t rest) :
    ReadsSingle gap acc
      ('\n' :: ((if u.head? = some '\n' then [] else [' ', ' ']) ++ singleFrom '\n' column u)) t rest := by
  by_cases hu : u.head? = some '\n'
  · obtain ⟨u', rfl⟩ := List.head?_eq_some_iff.mp hu
    rw [if_pos hu, List.nil_append]
    exact feed (.inr rfl) h
  · rw [if_neg hu]
    exact indented h

end ReadsSingle

/-- The gap before what is left of a text in single quotes, by the character that was written last. -/
inductive SingleGap : (previous : Char) → Gap → Text → Prop
  | word {previous : Char} (t : Text) (hspace : previous ≠ ' ') (hfeed : previous ≠ '\n') :
      SingleGap previous .none t
  | spaces (u t : Text) : SingleGap ' ' (.spaces u) t
  | folded {t : Text} (h : t.head? ≠ some '\n') : SingleGap '\n' (.lines (some '\n') []) t
  | broken (n : Nat) (t : Text) : SingleGap '\n' (.lines (some '\n') (List.replicate (n + 1) '\n')) t

theorem hasPair_cons {first second : Char → Bool} {c : Char} {t : Text}
    (h : hasPair first second (c :: t) = false) :
    (∀ d ∈ t.head?, (first c && second d) = false) ∧ hasPair first second t = false := by
  cases t with
  | nil => exact ⟨fun d hd => (by cases hd), rfl⟩
  | cons d t =>
      simp only [hasPair, Bool.or_eq_false_iff] at h
      refine ⟨fun e he => ?_, h.2⟩
      cases he
      exact h.1

theorem hasPair_cons_of_not {first second : Char → Bool} {c : Char} (hc : first c = false) (t : Text) :
    hasPair first second (c :: t) = hasPair first second t := by
  cases t with
  | nil => rfl
  | cons d t => rw [hasPair, hc, Bool.false_and, Bool.false_or]

theorem hasPair_cons_of_head {first second : Char → Bool} {c : Char} {t : Text}
    (ht : ∀ d ∈ t.head?, second d = false) :
    hasPair first second (c :: t) = hasPair first second t := by
  cases t with
  | nil => rfl
  | cons d t => rw [hasPair, ht d rfl, Bool.and_false, Bool.false_or]

/-- No space stands next to a line break. -/
structure IsUnmixed (t : Text) : Prop where
  spaceFeed : hasPair isSpace isLineBreak t = false
  feedSpace : hasPair isLineBreak isSpace t = false

theorem IsUnmixed.tail {c : Char} {t : Text} (h : IsUnmixed (c :: t)) : IsUnmixed t :=
  ⟨(hasPair_cons h.spaceFeed).2, (hasPair_cons h.feedSpace).2⟩

theorem SingleGap.addSpace {previous : Char} {gap : Gap} {t : Text} (h : SingleGap previous gap (' ' :: t))
    (hmixed : IsUnmixed (previous :: ' ' :: t)) : gap.addSpace ' ' = .spaces (gap.text ++ [' ']) := by
  have hfeed := (hasPair_cons hmixed.feedSpace).1 ' ' rfl
  cases h with
  | word => rfl
  | spaces u => rfl
  | folded => cases hfeed
  | broken n => cases hfeed

/-- A space that may become a line break follows a word. -/
theorem SingleGap.eq_none_of_space {previous : Char} {gap : Gap} {t : Text}
    (h : SingleGap previous gap (' ' :: t))
    (hmixed : IsUnmixed (previous :: ' ' :: t)) (hprevious : previous ≠ ' ') : gap = .none := by
  have hfeed := (hasPair_cons hmixed.feedSpace).1 ' ' rfl
  cases h with
  | word => rfl
  | spaces u => exact absurd rfl hprevious
  | folded => cases hfeed
  | broken n => cases hfeed

/-- From any state that writing and reading reach together before it, a text is read back up to the closing
quote. -/
def SingleReads (t rest : Text) : Prop :=
  ∀ ⦃previous : Char⦄ ⦃gap : Gap⦄, SingleGap previous gap t → IsUnmixed (previous :: t) →
    ∀ (acc : Text) (column : Nat),
    ReadsSingle gap acc (singleFrom previous column t) (acc.reverse ++ gap.text ++ t) rest

namespace SingleReads

variable {t rest : Text}

theorem nil (rest : Text) : SingleReads [] rest := by
  intro previous gap _ _ acc column
  rw [List.append_nil]
  exact .close gap acc rest

/-- A line break of the text is written twice behind a word, and once behind another line break. -/
theorem feed (h : SingleReads t rest) : SingleReads ('\n' :: t) rest := by
  intro previous gap hgap hmixed acc column
  rw [singleFrom, if_pos (by decide), List.append_assoc]
  cases hgap with
  | spaces u => cases (hasPair_cons hmixed.spaceFeed).1 '\n' rfl
  | folded h => exact absurd rfl h
  | broken n =>
      have hread := h (.broken (n + 1) t) hmixed.tail acc indentColumn
      refine .broken indentColumn t ?_
      rw [addBreak_replicate]
      simpa [Gap.text, List.replicate_succ'] using hread
  | word t hspace hfeed =>
      have hread := h (.broken 0 t) hmixed.tail acc indentColumn
      rw [if_neg (by simpa using hfeed)]
      refine .feed (.inr rfl) (.broken indentColumn t ?_)
      change ReadsSingle (.lines (some '\n') (List.replicate (0 + 1) '\n')) _ _ _ _
      simpa [Gap.text] using hread

theorem space (h : SingleReads t rest) : SingleReads (' ' :: t) rest := by
  intro previous gap hgap hmixed acc column
  rw [singleFrom, if_neg (by decide), if_neg (by decide)]
  split
  next hfold =>
    simp only [Bool.and_eq_true, bne_iff_ne, ne_eq] at hfold
    obtain ⟨⟨⟨-, hprevious⟩, -⟩, hhead⟩ := hfold
    have hnext : ∀ d ∈ t.head?, isSpace d = false := by
      intro d hd
      rw [Option.mem_def.mp hd] at hhead
      simpa [isSpace] using hhead
    have hbreak : t.head? ≠ some '\n' := by
      intro h
      cases (hasPair_cons hmixed.tail.spaceFeed).1 '\n' h
    have hfolded : IsUnmixed ('\n' :: t) :=
      ⟨(hasPair_cons_of_not (by decide) t).trans hmixed.tail.tail.spaceFeed,
        (hasPair_cons_of_head hnext).trans hmixed.tail.tail.feedSpace⟩
    obtain rfl := hgap.eq_none_of_space hmixed hprevious
    have hread := h (.folded hbreak) hfolded acc indentColumn
    refine .indented ?_
    rw [addBreak_none]
    simpa [Gap.text] using hread
  next =>
    have hread := h (.spaces (gap.text ++ [' ']) t) hmixed.tail acc (column + 1)
    refine .space ?_
    rw [hgap.addSpace hmixed]
    simpa [Gap.text] using hread

theorem word {c : Char} (hc : isVisible c = true) (h : SingleReads t rest) : SingleReads (c :: t) rest := by
  intro previous gap hgap hmixed acc column
  have hfeed := ne_of_isVisible (d := '\n') hc (by decide)
  have hspace := ne_of_isVisible (d := ' ') hc (by decide)
  have hread := fun column => h (.word t hspace hfeed) hmixed.tail (extend acc gap c) column
  have htext : (extend acc gap c).reverse ++ Gap.text .none ++ t = acc.reverse ++ gap.text ++ c :: t := by
    simp [extend, Gap.text]
  rw [htext] at hread
  rw [singleFrom, if_neg (by simpa using hfeed)]
  by_cases hquote : c = '\''
  · subst hquote
    rw [if_pos (by decide)]
    exact .doubled (hread (column + 2))
  · rw [if_neg (by simpa using hquote), if_neg (by simp [hspace])]
    exact .word hc hquote (hread (column + 1))

end SingleReads

theorem singleReads_of_ascii {t : Text} (hascii : ∀ c ∈ t, isPlainAscii c = true) (rest : Text) :
    SingleReads t rest := by
  induction t with
  | nil => exact .nil rest
  | cons c t ih =>
      obtain ⟨hc, ht⟩ := List.forall_mem_cons.mp hascii
      rcases isPlainAscii_cases hc with rfl | rfl | hvisible
      · exact .feed (ih ht)
      · exact .space (ih ht)
      · exact .word hvisible (ih ht)

/-- A text that may stand in single quotes is read back from between them. -/
theorem readsSingle_of_admits {t : Text} (h : admitsSingleQuotes t = true) (rest : Text) (column : Nat) :
    ReadsSingle .none [] (singleFrom '\'' column t) t rest := by
  simp only [admitsSingleQuotes, Bool.and_eq_true, Bool.not_eq_true', List.all_eq_true] at h
  obtain ⟨⟨hascii, hspace⟩, hfeed⟩ := h
  have hunmixed : IsUnmixed ('\'' :: t) :=
    ⟨(hasPair_cons_of_not (by decide) t).trans hspace, (hasPair_cons_of_not (by decide) t).trans hfeed⟩
  exact singleReads_of_ascii hascii rest (.word t (by decide) (by decide)) hunmixed [] column

end Yaml

end Synopsis
