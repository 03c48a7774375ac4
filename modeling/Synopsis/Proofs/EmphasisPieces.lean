import Synopsis.Emphasis
import Synopsis.Proofs.TextPieces

/-!
# Emphasis goes word by word

A walk over the pieces of a text never tests its first piece, so text without asterisks passes through
unchanged, whatever follows it. An emphasised word loses its two asterisks in exactly one of the three
walks when a space, or nothing, stands behind it: the piece behind it is then no word, and the walk goes
on there as if it began anew.
-/

namespace Synopsis

namespace Emphasis

open Text

/-- A text that holds no asterisk, no escape and no stand-in. -/
def Plain (t : Text) : Prop :=
  '*' ∉ t ∧ '\\' ∉ t ∧ standIn ∉ t

instance (t : Text) : Decidable (Plain t) :=
  inferInstanceAs (Decidable (_ ∧ _))

/-- Nothing, or a text that begins with a space. -/
def Stops (t : Text) : Prop :=
  ∀ c ∈ t.head?, c = ' '

theorem stops_nil : Stops [] := by
  intro c hc
  cases hc

theorem stops_cons (t : Text) : Stops (' ' :: t) := by
  intro c hc
  cases hc
  rfl

theorem stops_cases {t : Text} (h : Stops t) : t = [] ∨ ∃ rest, t = ' ' :: rest := by
  cases t with
  | nil => exact .inl rfl
  | cons c rest =>
      rw [h c rfl]
      exact .inr ⟨rest, rfl⟩

theorem ne_of_isBlank {c d : Char} (hc : isBlank c = true) (hd : isBlank d = false) : c ≠ d := by
  rintro rfl
  rw [hc] at hd
  cases hd

theorem not_isWordChar_of_isBlank {c : Char} (hc : isBlank c = true) : isWordChar c = false := by
  simp [isWordChar, hc]

theorem isWordAfter_nil_iff {t : Text} :
    isWordAfter [] t = true ↔ t ≠ [] ∧ ∀ c ∈ t, isWordChar c = true := by
  simp [isWordAfter, after?]

theorem isWordAfter_cons_of_isBlank {lead : Text} (hlead : lead.any isBlank = false) {c : Char}
    (hc : isBlank c = true) (t : Text) : isWordAfter lead (c :: t) = false := by
  cases lead with
  | nil => simp [isWordAfter, after?, not_isWordChar_of_isBlank hc]
  | cons d lead =>
      have hd : isBlank d = false := (Bool.or_eq_false_iff.mp hlead).1
      have hne : d ≠ c := (ne_of_isBlank hc hd).symm
      simp [isWordAfter, after?, hne]

theorem joinFirst_eq_appendFirst (before word : Text) (pieces : List Text) :
    joinFirst before word pieces = appendFirst (before ++ word) pieces := by
  cases pieces <;> rfl

theorem unwrap_appendFirst (isWord : Text → Bool) (s : Text) (pieces : List Text) :
    unwrap isWord (appendFirst s pieces) = appendFirst s (unwrap isWord pieces) := by
  match pieces with
  | [] => rfl
  | [before] => rfl
  | [before, word] => rfl
  | before :: word :: next :: rest =>
      simp only [appendFirst, unwrap]
      split
      · rw [joinFirst_eq_appendFirst, joinFirst_eq_appendFirst, List.append_assoc, appendFirst_append]
        rfl
      · rfl

theorem unwrap_ne_nil (isWord : Text → Bool) {pieces : List Text} (h : pieces ≠ []) :
    unwrap isWord pieces ≠ [] := by
  cases pieces with
  | nil => exact absurd rfl h
  | cons t ts =>
      have hfirst : t :: ts = appendFirst t ([] :: ts) := by simp [appendFirst]
      rw [hfirst, unwrap_appendFirst]
      exact appendFirst_ne_nil t _

/-- The pieces of a text that stops. -/
def StoppedPieces (pieces : List Text) : Prop :=
  pieces = [[]] ∨ ∃ c rest, isBlank c = true ∧ pieces = appendFirst [c] rest

theorem stoppedPieces_unwrap (isWord : Text → Bool) {pieces : List Text} (h : StoppedPieces pieces) :
    StoppedPieces (unwrap isWord pieces) := by
  rcases h with rfl | ⟨c, rest, hc, rfl⟩
  · exact .inl rfl
  · exact .inr ⟨c, unwrap isWord rest, hc, unwrap_appendFirst isWord [c] rest⟩

/-- A walk takes an emphasised word or leaves it, and goes on behind it either way. -/
theorem unwrap_word {lead : Text} (hlead : lead.any isBlank = false) (word : Text) {pieces : List Text}
    (h : StoppedPieces pieces) :
    unwrap (isWordAfter lead) ([] :: word :: pieces) =
      if isWordAfter lead word then appendFirst word (unwrap (isWordAfter lead) pieces)
      else [] :: word :: unwrap (isWordAfter lead) pieces := by
  obtain ⟨next, rest, rfl, hnext⟩ : ∃ next rest, pieces = next :: rest ∧
      (rest ≠ [] → isWordAfter lead next = false) := by
    rcases h with rfl | ⟨c, rest, hc, rfl⟩
    · exact ⟨[], [], rfl, fun hrest => absurd rfl hrest⟩
    · cases rest with
      | nil => exact ⟨[c], [], rfl, fun _ => isWordAfter_cons_of_isBlank hlead hc []⟩
      | cons t ts => exact ⟨c :: t, ts, rfl, fun _ => isWordAfter_cons_of_isBlank hlead hc t⟩
  rw [unwrap, joinFirst_eq_appendFirst, List.nil_append]
  split
  · rfl
  · cases rest with
    | nil => rfl
    | cons t ts => simp [unwrap, hnext]

theorem stripPieces_appendFirst (s : Text) (pieces : List Text) :
    stripPieces (appendFirst s pieces) = appendFirst s (stripPieces pieces) := by
  simp only [stripPieces, unwrap_appendFirst]

theorem stripPieces_ne_nil {pieces : List Text} (h : pieces ≠ []) : stripPieces pieces ≠ [] :=
  unwrap_ne_nil _ (unwrap_ne_nil _ (unwrap_ne_nil _ h))

/-- One of the three walks takes the asterisks of a word: the first one if the word is a spread, else the
last one. -/
theorem stripPieces_word {word : Text} (hne : word ≠ []) (hword : ∀ c ∈ word, isWordChar c = true)
    {pieces : List Text} (h : StoppedPieces pieces) :
    stripPieces ([] :: word :: pieces) = appendFirst word (stripPieces pieces) := by
  have hspread := stoppedPieces_unwrap (isWordAfter ['.', '.', '.']) h
  have hsemicolon := stoppedPieces_unwrap (isWordAfter [';', '.', '.', '.']) hspread
  have hnot : isWordAfter [';', '.', '.', '.'] word = false := by
    cases word with
    | nil => exact absurd rfl hne
    | cons c rest =>
        have hc : ';' ≠ c := by
          rintro rfl
          exact absurd (hword ';' List.mem_cons_self) (by decide)
        simp [isWordAfter, after?, hc]
  unfold stripPieces
  rw [unwrap_word (by decide) word h]
  by_cases hlead : isWordAfter ['.', '.', '.'] word = true
  · rw [if_pos hlead, unwrap_appendFirst, unwrap_appendFirst]
  · rw [if_neg hlead, unwrap_word (by decide) word hspread, if_neg (by simp [hnot]),
      unwrap_word (by decide) word hsemicolon, if_pos (isWordAfter_nil_iff.mpr ⟨hne, hword⟩)]

theorem hideEscapes_cons {c : Char} (hc : c ≠ '\\') (t : Text) : hideEscapes (c :: t) = c :: hideEscapes t := by
  rw [hideEscapes]
  rintro rest rfl
  exact absurd rfl hc

theorem hideEscapes_append {s : Text} (hs : '\\' ∉ s) (t : Text) :
    hideEscapes (s ++ t) = s ++ hideEscapes t := by
  induction s with
  | nil => rfl
  | cons c s ih =>
      obtain ⟨hc, hrest⟩ := not_or.mp (mt List.mem_cons.mpr hs)
      rw [List.cons_append, hideEscapes_cons (Ne.symm hc), ih hrest]
      rfl

theorem showEscapes_append (s t : Text) : showEscapes (s ++ t) = showEscapes s ++ showEscapes t := by
  simp [showEscapes]

theorem showEscapes_eq_self {s : Text} (hs : standIn ∉ s) : showEscapes s = s := by
  induction s with
  | nil => rfl
  | cons c s ih =>
      obtain ⟨hc, hrest⟩ := not_or.mp (mt List.mem_cons.mpr hs)
      have hih := ih hrest
      unfold showEscapes at hih ⊢
      rw [List.flatMap_cons, hih, if_neg (Ne.symm hc)]
      rfl

theorem stoppedPieces_of_stops {t : Text} (h : Stops t) : StoppedPieces (cutAt '*' (hideEscapes t)) := by
  rcases stops_cases h with rfl | ⟨rest, rfl⟩
  · exact .inl rfl
  · right
    rw [hideEscapes_cons (by decide), cutAt_cons_of_ne (by decide), consFirst_eq_appendFirst]
    exact ⟨' ', _, by decide, rfl⟩

/-- Text without asterisks passes through. -/
theorem strip_append {s : Text} (hs : Plain s) (t : Text) : strip (s ++ t) = s ++ strip t := by
  obtain ⟨hasterisk, hescape, hstandIn⟩ := hs
  unfold strip
  rw [hideEscapes_append hescape, cutAt_append_of_not_mem hasterisk, stripPieces_appendFirst,
    intercalate_appendFirst _ _ _ (stripPieces_ne_nil (cutAt_ne_nil '*' _)), showEscapes_append,
    showEscapes_eq_self hstandIn]

theorem strip_cons {c : Char} (hc : Plain [c]) (t : Text) : strip (c :: t) = c :: strip t :=
  strip_append hc t

theorem strip_of_plain {s : Text} (hs : Plain s) : strip s = s := by
  have h := strip_append hs []
  rwa [strip_nil, List.append_nil] at h

/-- An emphasised word with a space or nothing behind it loses its asterisks. -/
theorem strip_emphasised {word : Text} (hne : word ≠ []) (hword : ∀ c ∈ word, isWordChar c = true)
    (hplain : Plain word) {t : Text} (ht : Stops t) :
    strip ('*' :: (word ++ '*' :: t)) = word ++ strip t := by
  obtain ⟨hasterisk, hescape, hstandIn⟩ := hplain
  have hhide : hideEscapes ('*' :: (word ++ '*' :: t)) = '*' :: (word ++ '*' :: hideEscapes t) := by
    rw [hideEscapes_cons (by decide), hideEscapes_append hescape, hideEscapes_cons (by decide)]
  have hcut : cutAt '*' ('*' :: (word ++ '*' :: hideEscapes t)) =
      [] :: word :: cutAt '*' (hideEscapes t) := by
    rw [cutAt_cons_self, cutAt_append_of_not_mem hasterisk, cutAt_cons_self]
    simp [appendFirst]
  unfold strip
  rw [hhide, hcut, stripPieces_word hne hword (stoppedPieces_of_stops ht),
    intercalate_appendFirst _ _ _ (stripPieces_ne_nil (cutAt_ne_nil '*' _)), showEscapes_append,
    showEscapes_eq_self hstandIn]

theorem stops_strip {t : Text} (h : Stops t) : Stops (strip t) := by
  rcases stops_cases h with rfl | ⟨rest, rfl⟩
  · exact stops_nil
  · rw [strip_cons (by decide)]
    exact stops_cons _

end Emphasis

end Synopsis
