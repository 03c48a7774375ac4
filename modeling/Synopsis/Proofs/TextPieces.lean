import Synopsis.Proofs.TextTrim

/-!
# Texts in pieces

Cutting a text at a character and putting the character between the pieces again are inverse, and what
stands before the first cut belongs to the first piece. The words of a text are what its blanks leave between
them, so trimming takes none away.
-/

namespace Synopsis

namespace Text

section First

variable {c : Char} {ts : List Text}

theorem consFirst_append (hts : ts ≠ []) (us : List Text) : consFirst c (ts ++ us) = consFirst c ts ++ us := by
  cases ts with
  | nil => exact absurd rfl hts
  | cons t ts => rfl

theorem consFirst_ne_nil : consFirst c ts ≠ [] := by
  cases ts <;> simp [consFirst]

theorem exists_of_consFirst_eq_cons {p : Text} {ps : List Text} (hts : ts ≠ []) (h : consFirst c ts = p :: ps) :
    ∃ q, ts = q :: ps ∧ p = c :: q := by
  cases ts with
  | nil => exact absurd rfl hts
  | cons q qs =>
      obtain ⟨rfl, rfl⟩ := List.cons.inj h
      exact ⟨q, rfl, rfl⟩

/-- Only the first of several texts changes. -/
theorem mem_consFirst_cases {p : Text} (hts : ts ≠ []) (h : p ∈ consFirst c ts) :
    (∃ q qs, ts = q :: qs ∧ p = c :: q) ∨ p ∈ ts := by
  cases ts with
  | nil => exact absurd rfl hts
  | cons q qs =>
      rcases List.mem_cons.mp h with rfl | hqs
      · exact .inl ⟨q, qs, rfl, rfl⟩
      · exact .inr (List.mem_cons_of_mem q hqs)

end First

/-- Puts `s` before the first of several texts. -/
def appendFirst (s : Text) : List Text → List Text
  | [] => [s]
  | t :: ts => (s ++ t) :: ts

theorem consFirst_eq_appendFirst (c : Char) (ts : List Text) : consFirst c ts = appendFirst [c] ts := by
  cases ts <;> rfl

theorem appendFirst_ne_nil (s : Text) (ts : List Text) : appendFirst s ts ≠ [] := by
  cases ts <;> simp [appendFirst]

theorem appendFirst_append (s t : Text) (ts : List Text) :
    appendFirst (s ++ t) ts = appendFirst s (appendFirst t ts) := by
  cases ts <;> simp [appendFirst]

theorem intercalate_appendFirst (sep s : Text) (ts : List Text) (hts : ts ≠ []) :
    sep.intercalate (appendFirst s ts) = s ++ sep.intercalate ts := by
  cases ts with
  | nil => exact absurd rfl hts
  | cons t ts =>
      cases ts with
      | nil => simp [appendFirst]
      | cons u us => simp [appendFirst, List.intercalate_cons_cons]

theorem cutAt_append_of_not_mem {sep : Char} {s : Text} (h : sep ∉ s) (t : Text) :
    cutAt sep (s ++ t) = appendFirst s (cutAt sep t) := by
  induction s with
  | nil =>
      obtain ⟨u, us, hcut⟩ := List.exists_cons_of_ne_nil (cutAt_ne_nil sep t)
      simp [appendFirst, hcut]
  | cons c s ih =>
      obtain ⟨hc, hs⟩ := not_or.mp (mt List.mem_cons.mpr h)
      rw [List.cons_append, cutAt_cons_of_ne (Ne.symm hc), ih hs, consFirst_eq_appendFirst,
        ← appendFirst_append]
      rfl

theorem cutAt_of_not_mem {sep : Char} {t : Text} (h : sep ∉ t) : cutAt sep t = [t] := by
  have hcut := cutAt_append_of_not_mem h []
  rwa [List.append_nil, cutAt_nil, appendFirst, List.append_nil] at hcut

theorem cutAt_append_cons {sep : Char} {s : Text} (h : sep ∉ s) (t : Text) :
    cutAt sep (s ++ sep :: t) = s :: cutAt sep t := by
  rw [cutAt_append_of_not_mem h, cutAt_cons_self, appendFirst, List.append_nil]

theorem cutAt_eq_splitOn (sep : Char) (t : Text) : cutAt sep t = t.splitOn sep := by
  induction t with
  | nil => simp [List.splitOn_nil]
  | cons c t ih =>
      rw [List.splitOn_cons_eq_if_modifyHead, ← ih]
      by_cases hc : c = sep
      · rw [hc, cutAt_cons_self, if_pos (by simp)]
      · obtain ⟨u, us, hcut⟩ := List.exists_cons_of_ne_nil (cutAt_ne_nil sep t)
        rw [cutAt_cons_of_ne hc, if_neg (by simpa using hc), hcut]
        rfl

theorem intercalate_cutAt (sep : Char) (t : Text) : [sep].intercalate (cutAt sep t) = t := by
  rw [cutAt_eq_splitOn, List.intercalate_splitOn]

theorem sep_not_mem_piece {sep : Char} {t piece : Text} (h : piece ∈ cutAt sep t) : sep ∉ piece := by
  induction t generalizing piece with
  | nil =>
      rw [cutAt_nil, List.mem_singleton] at h
      rw [h]
      exact List.not_mem_nil
  | cons c t ih =>
      by_cases hc : c = sep
      · rw [hc, cutAt_cons_self] at h
        rcases List.mem_cons.mp h with rfl | hrest
        · exact List.not_mem_nil
        · exact ih hrest
      · rw [cutAt_cons_of_ne hc] at h
        rcases mem_consFirst_cases (cutAt_ne_nil sep t) h with ⟨u, us, hcut, rfl⟩ | hrest
        · rw [List.mem_cons, not_or]
          exact ⟨Ne.symm hc, ih (hcut ▸ List.mem_cons_self)⟩
        · exact ih hrest

theorem cutAt_intercalate {sep : Char} {ts : List Text} (hne : ts ≠ []) (h : ∀ t ∈ ts, sep ∉ t) :
    cutAt sep ([sep].intercalate ts) = ts := by
  rw [cutAt_eq_splitOn, List.splitOn_intercalate sep h hne]

/-- What reads the two sides of a separator by themselves reads several texts with separators between them
one by one. -/
theorem intercalate_eq_flatMap {α : Type} {f : Text → List α} {sep : Text} (hnil : f [] = [])
    (happend : ∀ s t, f (s ++ (sep ++ t)) = f s ++ f t) (ts : List Text) :
    f (sep.intercalate ts) = ts.flatMap f := by
  induction ts with
  | nil => exact hnil
  | cons t ts ih =>
      cases ts with
      | nil => simp
      | cons u us =>
          rw [List.intercalate_cons_cons, List.append_assoc, happend, ih]
          rfl

theorem mem_of_mem_intercalate {sep c : Char} {ts : List Text} (h : c ∈ [sep].intercalate ts) :
    c = sep ∨ ∃ t ∈ ts, c ∈ t := by
  induction ts with
  | nil => cases h
  | cons t ts ih =>
      cases ts with
      | nil => exact .inr ⟨t, by simp, by simpa using h⟩
      | cons u us =>
          rw [List.intercalate_cons_cons, List.mem_append, List.mem_append] at h
          rcases h with (ht | hsep) | hrest
          · exact .inr ⟨t, by simp, ht⟩
          · exact .inl (List.mem_singleton.mp hsep)
          · rcases ih hrest with hsep | ⟨v, hv, hc⟩
            · exact .inl hsep
            · exact .inr ⟨v, List.mem_cons_of_mem t hv, hc⟩

theorem mem_piece_of_mem {sep c : Char} {t : Text} (h : c ∈ t) :
    c = sep ∨ ∃ piece ∈ cutAt sep t, c ∈ piece := by
  rw [← intercalate_cutAt sep t] at h
  exact mem_of_mem_intercalate h

theorem mem_of_mem_piece {sep c : Char} {t piece : Text} (h : piece ∈ cutAt sep t) (hc : c ∈ piece) :
    c ∈ t := by
  induction t generalizing piece with
  | nil =>
      rw [cutAt_nil, List.mem_singleton] at h
      rwa [h] at hc
  | cons d t ih =>
      by_cases hd : d = sep
      · rw [hd, cutAt_cons_self] at h
        rcases List.mem_cons.mp h with rfl | hrest
        · cases hc
        · exact List.mem_cons_of_mem d (ih hrest hc)
      · rw [cutAt_cons_of_ne hd] at h
        rcases mem_consFirst_cases (cutAt_ne_nil sep t) h with ⟨u, us, hcut, rfl⟩ | hrest
        · rcases List.mem_cons.mp hc with rfl | hu
          · exact List.mem_cons_self
          · exact List.mem_cons_of_mem d (ih (hcut ▸ List.mem_cons_self) hu)
        · exact List.mem_cons_of_mem d (ih hrest hc)

theorem map_trim_cutAt_trimEnd {sep : Char} (hsep : isBlank sep = false) (t : Text) :
    (cutAt sep (trimEnd t)).map trim = (cutAt sep t).map trim := by
  have hpieces : ∀ ts : List Text, ts ≠ [] → (∀ p ∈ ts, sep ∉ p) →
      (cutAt sep (trimEnd ([sep].intercalate ts))).map trim = ts.map trim := by
    intro ts
    induction ts with
    | nil => exact fun hne => absurd rfl hne
    | cons p ts ih =>
        intro _ hp
        have hsep_p := hp p List.mem_cons_self
        cases ts with
        | nil =>
            have hend : sep ∉ trimEnd p := fun h => hsep_p ((isPrefix_trimEnd p).subset h)
            rw [List.intercalate_singleton, cutAt_of_not_mem hend, List.map_singleton, List.map_singleton,
              trim_trimEnd]
        | cons q ts =>
            have hrest := ih (List.cons_ne_nil q ts) fun r hr => hp r (List.mem_cons_of_mem p hr)
            rw [List.intercalate_cons_cons, List.append_assoc, List.singleton_append, trimEnd_append_cons hsep,
              cutAt_append_cons hsep_p, List.map_cons, hrest]
            rfl
  have h := hpieces (cutAt sep t) (cutAt_ne_nil sep t) fun p hp => sep_not_mem_piece hp
  rwa [intercalate_cutAt] at h

/-- Trimming a text first makes no difference to its trimmed pieces. -/
theorem map_trim_cutAt_trim {sep : Char} (hsep : isBlank sep = false) (t : Text) :
    (cutAt sep (trim t)).map trim = (cutAt sep t).map trim := by
  rw [trim, map_trim_cutAt_trimEnd hsep]
  induction t with
  | nil => rfl
  | cons c t ih =>
      by_cases hc : isBlank c = true
      · have hne : c ≠ sep := by
          rintro rfl
          rw [hc] at hsep
          cases hsep
        obtain ⟨p, ps, hcut⟩ := List.exists_cons_of_ne_nil (cutAt_ne_nil sep t)
        rw [trimStart_cons_of_blank hc, ih, cutAt_cons_of_ne hne, hcut, consFirst, List.map_cons, List.map_cons,
          trim_cons_of_blank hc]
      · rw [trimStart_of_head (by simpa using hc)]

section Words

/-- The longest pieces of a text that hold no blank. -/
def words (t : Text) : List Text :=
  (t.splitOnP isBlank).filter fun w => !w.isEmpty

variable {c : Char}

theorem words_append_blank (hc : isBlank c = true) (s t : Text) : words (s ++ c :: t) = words s ++ words t := by
  rw [words, List.splitOnP_append_cons s t hc, List.filter_append]
  rfl

theorem words_cons_blank (hc : isBlank c = true) (t : Text) : words (c :: t) = words t := by
  have h := words_append_blank hc [] t
  rwa [List.nil_append] at h

theorem words_of_no_blank {t : Text} (hne : t ≠ []) (h : ∀ c ∈ t, isBlank c = false) : words t = [t] := by
  rw [words, List.splitOnP_eq_singleton h]
  simp [hne]

theorem words_trimStart (t : Text) : words (trimStart t) = words t := by
  induction t with
  | nil => rfl
  | cons c t ih =>
      by_cases hc : isBlank c = true
      · rw [trimStart_cons_of_blank hc, words_cons_blank hc, ih]
      · rw [trimStart_of_head (by simpa using hc)]

theorem words_trimEnd (t : Text) : words (trimEnd t) = words t := by
  induction t using List.reverseRecOn with
  | nil => rfl
  | append_singleton t c ih =>
      by_cases hc : isBlank c = true
      · have hnil : words [] = [] := by simp [words]
        rw [trimEnd_concat_of_blank hc, ih, words_append_blank hc, hnil, List.append_nil]
      · rw [trimEnd_of_last (by simpa using hc)]

theorem words_trim (t : Text) : words (trim t) = words t := by
  rw [trim, words_trimEnd, words_trimStart]

end Words

end Text

end Synopsis
