import Mathlib.Data.List.DropRight
import Synopsis.Text.Basic

/-!
# Trimming

Trimming takes a prefix and a suffix of blanks away, so what is left is a part of the text, and a
character that is no blank shields everything between it and the other end. A text without blanks at its
ends is tight; trimming gives it back from between spaces, and tight texts joined by anything are tight.
-/

namespace Synopsis

namespace Text

theorem trimEnd_eq_rdropWhile (t : Text) : trimEnd t = t.rdropWhile isBlank := rfl

theorem isSuffix_trimStart (t : Text) : trimStart t <:+ t := List.dropWhile_suffix _

theorem isPrefix_trimEnd (t : Text) : trimEnd t <+: t := List.rdropWhile_prefix _ _

theorem isInfix_trim (t : Text) : trim t <:+: t :=
  (isPrefix_trimEnd _).isInfix.trans (isSuffix_trimStart t).isInfix

theorem trimStart_append_cons {c : Char} (hc : isBlank c = false) (s t : Text) :
    trimStart (s ++ c :: t) = trimStart s ++ c :: t := by
  unfold trimStart
  rw [List.dropWhile_append]
  by_cases hs : (s.dropWhile isBlank).isEmpty
  · rw [if_pos hs, List.isEmpty_iff.mp hs, List.nil_append, List.dropWhile_cons_of_neg (by simp [hc])]
  · rw [if_neg hs]

theorem trimEnd_append_cons {c : Char} (hc : isBlank c = false) (s t : Text) :
    trimEnd (s ++ c :: t) = s ++ c :: trimEnd t := by
  have hrev : (s ++ c :: t).reverse = t.reverse ++ c :: s.reverse := by simp
  have hdrop := trimStart_append_cons hc t.reverse s.reverse
  unfold trimStart at hdrop
  unfold trimEnd
  rw [hrev, hdrop]
  simp

/-- A character that is no blank parts the two ends of a text. -/
theorem trim_append_cons {c : Char} (hc : isBlank c = false) (s t : Text) :
    trim (s ++ c :: t) = trimStart s ++ c :: trimEnd t := by
  unfold trim
  rw [trimStart_append_cons hc, trimEnd_append_cons hc]

theorem trimStart_cons_of_blank {c : Char} (hc : isBlank c = true) (t : Text) :
    trimStart (c :: t) = trimStart t := by
  simp [trimStart, hc]

theorem trim_cons_of_blank {c : Char} (hc : isBlank c = true) (t : Text) : trim (c :: t) = trim t := by
  rw [trim, trimStart_cons_of_blank hc, ← trim]

theorem trimEnd_concat_of_blank {c : Char} (hc : isBlank c = true) (t : Text) :
    trimEnd (t ++ [c]) = trimEnd t := by
  simp [trimEnd, hc]

theorem trimStart_of_head {c : Char} {t : Text} (hc : isBlank c = false) : trimStart (c :: t) = c :: t := by
  simp [trimStart, hc]

theorem trimEnd_of_last {c : Char} {t : Text} (hc : isBlank c = false) : trimEnd (t ++ [c]) = t ++ [c] := by
  simp [trimEnd, hc]

/-- Every text is blank or has a first character that is none. -/
theorem trimStart_cases (t : Text) :
    trimStart t = [] ∨ ∃ c rest, isBlank c = false ∧ trimStart t = c :: rest := by
  cases h : trimStart t with
  | nil => exact .inl rfl
  | cons c rest =>
      have hc := List.head?_dropWhile_not isBlank t
      unfold trimStart at h
      rw [h] at hc
      exact .inr ⟨c, rest, by simpa using hc, rfl⟩

theorem trimEnd_trimEnd (t : Text) : trimEnd (trimEnd t) = trimEnd t := List.rdropWhile_idempotent _ _

theorem trimStart_trimEnd_of_head {c : Char} {t : Text} (hc : isBlank c = false) :
    trimStart (trimEnd (c :: t)) = trimEnd (c :: t) := by
  have h := trimEnd_append_cons hc [] t
  rw [List.nil_append, List.nil_append] at h
  rw [h, trimStart_of_head hc]

/-- Trimming takes blanks alone away. -/
theorem mem_trim_iff {c : Char} (hc : isBlank c = false) {t : Text} : c ∈ trim t ↔ c ∈ t := by
  constructor
  · exact fun h => (isInfix_trim t).subset h
  · intro h
    obtain ⟨s, rest, rfl⟩ := List.append_of_mem h
    rw [trim_append_cons hc]
    simp

theorem trim_trimEnd (t : Text) : trim (trimEnd t) = trim t := by
  by_cases h : ∃ c ∈ t, isBlank c = false
  · obtain ⟨c, hc, hblank⟩ := h
    obtain ⟨s, rest, rfl⟩ := List.append_of_mem hc
    rw [trimEnd_append_cons hblank, trim_append_cons hblank, trim_append_cons hblank, trimEnd_trimEnd]
  · have hall : ∀ c ∈ t, isBlank c = true := by simpa using h
    have hstart : trimStart t = [] := List.dropWhile_eq_nil_iff.mpr hall
    have hend : trimEnd t = [] := List.rdropWhile_eq_nil_iff.mpr hall
    rw [hend, trim, trim, hstart]
    rfl

@[simp] theorem trim_trim (t : Text) : trim (trim t) = trim t := by
  unfold trim
  rcases trimStart_cases t with h | ⟨c, rest, hc, h⟩
  · rw [h]
    rfl
  · rw [h, trimStart_trimEnd_of_head hc, trimEnd_trimEnd]

theorem trim_eq_self_of_forall {t : Text} (h : ∀ c ∈ t, isBlank c = false) : trim t = t := by
  have hstart : trimStart t = t := by
    cases t with
    | nil => rfl
    | cons c rest => exact trimStart_of_head (h c (by simp))
  unfold trim
  rw [hstart, trimEnd_eq_rdropWhile, List.rdropWhile_eq_self_iff]
  intro hne
  simp [h _ (List.getLast_mem hne)]

/-- A text that is not empty and has no blank at either end. -/
structure Tight (t : Text) : Prop where
  starts : ∃ c s, isBlank c = false ∧ t = c :: s
  ends : ∃ s c, isBlank c = false ∧ t = s ++ [c]

theorem Tight.trim_spaced {t : Text} (h : Tight t) : Text.trim (' ' :: (t ++ [' '])) = t := by
  obtain ⟨c, s, hc, rfl⟩ := h.starts
  obtain ⟨s', c', hc', hend⟩ := h.ends
  rw [trim_cons_of_blank (by decide), Text.trim, List.cons_append, trimStart_of_head hc, ← List.cons_append,
    trimEnd_concat_of_blank (by decide), hend, trimEnd_of_last hc']

theorem Tight.trimEnd_cons {t : Text} (h : Tight t) (c : Char) : trimEnd (c :: t) = c :: t := by
  obtain ⟨s, d, hd, rfl⟩ := h.ends
  rw [← List.cons_append, trimEnd_of_last hd]

theorem tight_append {s t : Text} (hs : Tight s) (ht : Tight t) (middle : Text) :
    Tight (s ++ (middle ++ t)) := by
  obtain ⟨c, s', hc, rfl⟩ := hs.starts
  obtain ⟨t', c', hc', rfl⟩ := ht.ends
  exact ⟨⟨c, s' ++ (middle ++ (t' ++ [c'])), hc, rfl⟩, ⟨c :: s' ++ (middle ++ t'), c', hc', by simp⟩⟩

theorem tight_of_forall {t : Text} (hne : t ≠ []) (h : ∀ c ∈ t, isBlank c = false) : Tight t := by
  refine ⟨?_, ?_⟩
  · cases t with
    | nil => exact absurd rfl hne
    | cons c s => exact ⟨c, s, h c List.mem_cons_self, rfl⟩
  · exact ⟨t.dropLast, t.getLast hne, h _ (List.getLast_mem hne), (List.dropLast_concat_getLast hne).symm⟩

theorem tight_singleton {c : Char} (hc : isBlank c = false) : Tight [c] :=
  ⟨⟨c, [], hc, rfl⟩, ⟨[], c, hc, rfl⟩⟩

theorem tight_intercalate (sep : Text) {ts : List Text} (hne : ts ≠ []) (h : ∀ t ∈ ts, Tight t) :
    Tight (sep.intercalate ts) := by
  induction ts with
  | nil => exact absurd rfl hne
  | cons t ts ih =>
      have ht := h t List.mem_cons_self
      cases ts with
      | nil => simpa using ht
      | cons u us =>
          have hrest := ih (by simp) fun v hv => h v (List.mem_cons_of_mem t hv)
          rw [List.intercalate_cons_cons, List.append_assoc]
          exact tight_append ht hrest sep

end Text

end Synopsis
