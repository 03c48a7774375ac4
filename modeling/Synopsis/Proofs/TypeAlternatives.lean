import Synopsis.Agreement
import Synopsis.Proofs.TextFolding

/-!
# The alternatives of a table cell

A comma divides a cell whatever stands around it, so the alternatives of two cells with a comma between them
are those of the first and then those of the second. A text without comma and slash, and without the word
`or` between blanks, offers one type; such texts joined by commas offer each of them. Cutting takes every
comma, every slash and every `or` between blanks out that it meets from the left, so no piece is cut again.
-/

namespace Synopsis

namespace Agreement

section Steps

/-- A text begins with what cuts it: a comma, a slash, or an `or` between blanks. Behind that stands `rest`. -/
inductive Cuts : Text → Text → Prop where
  | separator {c : Char} (h : c = ',' ∨ c = '/') (rest : Text) : Cuts (c :: rest) rest
  | or {c : Char} {t rest : Text} (hblank : Text.isBlank c = true) (h : afterOr? t = some rest) :
      Cuts (c :: t) rest

theorem Cuts.cutAlternatives {t rest : Text} (h : Cuts t rest) :
    Agreement.cutAlternatives t = [] :: Agreement.cutAlternatives rest := by
  cases h with
  | separator h => rw [Agreement.cutAlternatives, if_pos h]
  | @or c t rest hblank h =>
      have hsep : ¬ (c = ',' ∨ c = '/') := by
        rintro (rfl | rfl)
        · exact absurd hblank (by decide)
        · exact absurd hblank (by decide)
      rw [Agreement.cutAlternatives, if_neg hsep, if_pos hblank]
      split
      · next u hu =>
          obtain rfl : u = rest := Option.some.inj (hu.symm.trans h)
          rfl
      · next hu => rw [hu] at h; cases h

theorem cutAlternatives_cons {c : Char} {t : Text} (h : ∀ rest, ¬ Cuts (c :: t) rest) :
    cutAlternatives (c :: t) = Text.consFirst c (cutAlternatives t) := by
  rw [cutAlternatives, if_neg fun hsep => h t (.separator hsep t)]
  split
  · next hblank =>
      split
      · next u hu => exact absurd (.or hblank hu) (h u)
      · rfl
  · rfl

/-- A text is empty, or something cuts it at its start, or its first character goes to the first piece. -/
@[elab_as_elim]
theorem cutAlternatives_induction {motive : Text → Prop} (nil : motive [])
    (cut : ∀ t rest, Cuts t rest → motive rest → motive t)
    (cons : ∀ c t, (∀ rest, ¬ Cuts (c :: t) rest) → motive t → motive (c :: t)) (t : Text) : motive t := by
  fun_induction Agreement.cutAlternatives t with
  | case1 => exact nil
  | case2 c t hsep ih => exact cut _ _ (.separator hsep t) ih
  | case3 c t hsep hblank rest hrest hlt ih => exact cut _ _ (.or hblank hrest) ih
  | case4 c t hsep hblank hnone ih =>
      refine cons c t ?_ ih
      rintro rest (hmark | ⟨-, hrest⟩)
      · exact hsep hmark
      · rw [hnone] at hrest
        cases hrest
  | case5 c t hsep hblank ih =>
      refine cons c t ?_ ih
      rintro rest (hmark | ⟨hblank', -⟩)
      · exact hsep hmark
      · exact hblank hblank'

theorem cutAlternatives_ne_nil (t : Text) : cutAlternatives t ≠ [] := by
  induction t using cutAlternatives_induction with
  | nil => simp [cutAlternatives]
  | cut t rest h => simp [h.cutAlternatives]
  | cons c t h =>
      rw [cutAlternatives_cons h]
      exact Text.consFirst_ne_nil

end Steps

section Commas

/-- No blank and no letter of `or` is a comma, so an `or` is never read across one. -/
theorem afterOr?_append_comma (s t : Text) : afterOr? (s ++ ',' :: t) = (afterOr? s).map (· ++ ',' :: t) := by
  have hskip : ∀ u : Text, (u ++ ',' :: t).dropWhile Text.isBlank = u.dropWhile Text.isBlank ++ ',' :: t :=
    fun u => Text.trimStart_append_cons (by decide) u t
  rw [afterOr?, afterOr?, hskip]
  match s.dropWhile Text.isBlank with
  | [] =>
      match t with
      | [] => rfl
      | [_] => rfl
      | _ :: _ :: _ => rfl
  | [o] =>
      match t with
      | [] => rfl
      | _ :: _ => simp
  | [o, r] => simp [show Text.isBlank ',' = false from by decide]
  | o :: r :: b :: rest =>
      simp only [List.cons_append]
      split
      · rw [hskip, Option.map_some]
      · rfl

theorem Cuts.append_comma {s rest : Text} (h : Cuts s rest) (t : Text) :
    Cuts (s ++ ',' :: t) (rest ++ ',' :: t) := by
  cases h with
  | separator h => exact .separator h _
  | @or c s rest hblank h =>
      have happend : afterOr? (s ++ ',' :: t) = some (rest ++ ',' :: t) := by
        rw [afterOr?_append_comma, h, Option.map_some]
      exact .or hblank happend

theorem not_cuts_append_comma {c : Char} {s : Text} (h : ∀ rest, ¬ Cuts (c :: s) rest) (t rest : Text) :
    ¬ Cuts (c :: (s ++ ',' :: t)) rest := by
  rintro (hsep | ⟨hblank, hrest⟩)
  · exact h s (.separator hsep s)
  · rw [afterOr?_append_comma] at hrest
    obtain ⟨after, hafter, -⟩ := Option.map_eq_some_iff.mp hrest
    exact h after (.or hblank hafter)

theorem cutAlternatives_append_comma (s t : Text) :
    cutAlternatives (s ++ ',' :: t) = cutAlternatives s ++ cutAlternatives t := by
  induction s using cutAlternatives_induction with
  | nil =>
      rw [List.nil_append, (Cuts.separator (.inl rfl) t).cutAlternatives, cutAlternatives]
      rfl
  | cut s rest h ih => rw [(h.append_comma t).cutAlternatives, ih, h.cutAlternatives, List.cons_append]
  | cons c s h ih =>
      rw [List.cons_append, cutAlternatives_cons (not_cuts_append_comma h t), ih, cutAlternatives_cons h,
        Text.consFirst_append (cutAlternatives_ne_nil s)]

theorem alternatives_append_comma (s t : Text) :
    alternatives (s ++ ',' :: t) = alternatives s ++ alternatives t := by
  rw [alternatives, cutAlternatives_append_comma, List.map_append, List.filter_append]
  rfl

end Commas

section Uncut

/-- The word `or` stands between blanks in a text, in any case. -/
def HasOr (t : Text) : Prop :=
  ∃ s b o r b' rest, t = s ++ b :: o :: r :: b' :: rest ∧ Text.isBlank b = true ∧ o.toLower = 'o' ∧
    r.toLower = 'r' ∧
    Text.isBlank b' = true

/-- A text that is not cut into alternatives. -/
structure Uncut (t : Text) : Prop where
  no_comma : ',' ∉ t
  no_slash : '/' ∉ t
  no_or : ¬ HasOr t

theorem lowercase_or {o r : Char} (ho : o.toLower = 'o') (hr : r.toLower = 'r') :
    Text.lowercase [o, r] = "or".toList := by
  have hascii : ∀ c ∈ [o, r], c.toNat < 128 := by
    intro c hc
    rcases List.mem_pair.mp hc with rfl | rfl
    · exact Text.toNat_lt_of_toLower (by decide) ho
    · exact Text.toNat_lt_of_toLower (by decide) hr
  rw [Text.lowercase_of_ascii hascii, List.map_cons, List.map_singleton, ho, hr]
  rfl

/-- An `or` between blanks is a word, whatever the case and whatever is trimmed. -/
theorem HasOr.mem_words {t : Text} (h : HasOr t) : "or".toList ∈ Text.words (Text.folded t) := by
  obtain ⟨s, b, o, r, b', rest, rfl, hb, ho, hr, hb'⟩ := h
  have hpieces : Text.lowercase (s ++ b :: ([o, r] ++ b' :: rest)) =
      Text.lowercase s ++ b :: ("or".toList ++ b' :: Text.lowercase rest) := by
    rw [(Text.barrier_of_isBlank hb).lowercase_append, (Text.barrier_of_isBlank hb').lowercase_append,
      lowercase_or ho hr]
  have hword : Text.words "or".toList = ["or".toList] := by
    apply Text.words_of_no_blank (by decide)
    intro c hc
    rcases List.mem_pair.mp hc with rfl | rfl
    · decide
    · decide
  have hshape : s ++ b :: o :: r :: b' :: rest = s ++ b :: ([o, r] ++ b' :: rest) := rfl
  rw [hshape, Text.folded, ← Text.trim_lowercase, Text.words_trim, hpieces, Text.words_append_blank hb,
    Text.words_append_blank hb', hword]
  simp

theorem HasOr.cons {t : Text} (h : HasOr t) (c : Char) : HasOr (c :: t) := by
  obtain ⟨s, b, o, r, b', rest, rfl, h⟩ := h
  exact ⟨c :: s, b, o, r, b', rest, rfl, h⟩

theorem Uncut.tail {c : Char} {t : Text} (h : Uncut (c :: t)) : Uncut t where
  no_comma := fun hmem => h.no_comma (List.mem_cons_of_mem c hmem)
  no_slash := fun hmem => h.no_slash (List.mem_cons_of_mem c hmem)
  no_or := fun hor => h.no_or (hor.cons c)

theorem hasOr_of_afterOr? {c : Char} (hblank : Text.isBlank c = true) {t after : Text}
    (h : afterOr? t = some after) :
    HasOr (c :: t) := by
  unfold afterOr? at h
  split at h
  · next o r b rest hdrop =>
      split at h
      · next hor =>
          have ht : c :: t = (c :: t.takeWhile Text.isBlank) ++ o :: r :: b :: rest := by
            rw [List.cons_append, ← hdrop, List.takeWhile_append_dropWhile]
          have hall : ∀ d ∈ c :: t.takeWhile Text.isBlank, Text.isBlank d = true := by
            intro d hd
            rcases List.mem_cons.mp hd with rfl | hd
            · exact hblank
            · exact List.mem_takeWhile_imp hd
          have hne := List.cons_ne_nil c (t.takeWhile Text.isBlank)
          generalize c :: t.takeWhile Text.isBlank = gap at ht hall hne
          have hgap : gap = gap.dropLast ++ [gap.getLast hne] := (List.dropLast_concat_getLast hne).symm
          refine ⟨gap.dropLast, gap.getLast hne, o, r, b, rest, ?_, hall _ (List.getLast_mem hne), hor⟩
          calc c :: t = gap ++ o :: r :: b :: rest := ht
            _ = (gap.dropLast ++ [gap.getLast hne]) ++ o :: r :: b :: rest := by rw [← hgap]
            _ = gap.dropLast ++ gap.getLast hne :: o :: r :: b :: rest := by simp
      · cases h
  · cases h

theorem Uncut.not_cuts {t : Text} (h : Uncut t) (rest : Text) : ¬ Cuts t rest := by
  rintro (⟨rfl | rfl⟩ | ⟨hblank, hrest⟩)
  · exact h.no_comma List.mem_cons_self
  · exact h.no_slash List.mem_cons_self
  · exact h.no_or (hasOr_of_afterOr? hblank hrest)

theorem Uncut.cutAlternatives {t : Text} (h : Uncut t) : Agreement.cutAlternatives t = [t] := by
  induction t with
  | nil => rw [Agreement.cutAlternatives]
  | cons c t ih => rw [cutAlternatives_cons h.not_cuts, ih h.tail, Text.consFirst]

theorem Uncut.alternatives {t : Text} (h : Uncut t) (hne : Text.folded t ≠ []) :
    Agreement.alternatives t = [Text.folded t] := by
  rw [Agreement.alternatives, h.cutAlternatives]
  simp [hne]

/-- A cell of uncut texts with commas between them offers each of them. -/
theorem alternatives_intercalate {ts : List Text} (h : ∀ t ∈ ts, Uncut t ∧ Text.folded t ≠ []) :
    alternatives ([','].intercalate ts) = ts.map Text.folded := by
  have hnil : alternatives [] = [] := by simp [alternatives, cutAlternatives, Text.folded]
  rw [Text.intercalate_eq_flatMap hnil alternatives_append_comma, List.map_eq_flatMap]
  exact List.flatMap_congr fun t ht => (h t ht).1.alternatives (h t ht).2

end Uncut

section Pieces

theorem afterOr?_of_or {o r b : Char} (ho : o.toLower = 'o') (hr : r.toLower = 'r') (hb : Text.isBlank b = true)
    (rest : Text) : afterOr? (o :: r :: b :: rest) = some (rest.dropWhile Text.isBlank) := by
  have hblank : Text.isBlank o = false := by
    have hall := Text.of_lt_128 (P := fun c => !(c.toLower == 'o') || !Text.isBlank c) (by decide)
      (Text.toNat_lt_of_toLower (by decide) ho)
    simpa [ho] using hall
  rw [afterOr?, List.dropWhile_cons_of_neg (by simp [hblank])]
  exact if_pos ⟨ho, hr, hb⟩

theorem afterOr?_append {s after : Text} (h : afterOr? s = some after) (more : Text) :
    ∃ rest, afterOr? (s ++ more) = some rest := by
  unfold afterOr? at h ⊢
  split at h
  · next o r b tail hdrop =>
      have hwhole : (s ++ more).dropWhile Text.isBlank = o :: r :: b :: (tail ++ more) := by
        rw [List.dropWhile_append, hdrop]
        rfl
      rw [hwhole]
      split at h
      · next hor => exact ⟨_, if_pos hor⟩
      · cases h
  · cases h

theorem Cuts.exists_of_prefix {s t rest : Text} (h : Cuts s rest) (hst : s <+: t) : ∃ rest', Cuts t rest' := by
  obtain ⟨more, rfl⟩ := hst
  cases h with
  | separator h => exact ⟨_, .separator h _⟩
  | or hblank h =>
      obtain ⟨rest', hrest'⟩ := afterOr?_append h more
      exact ⟨rest', .or hblank hrest'⟩

theorem HasOr.cons_cases {c : Char} {t : Text} (h : HasOr (c :: t)) :
    (∃ rest, Cuts (c :: t) rest) ∨ HasOr t := by
  obtain ⟨s, b, o, r, b', rest, ht, hb, ho, hr, hb'⟩ := h
  cases s with
  | nil =>
      obtain ⟨rfl, rfl⟩ := List.cons.inj ht
      exact .inl ⟨_, .or hb (afterOr?_of_or ho hr hb' rest)⟩
  | cons d s =>
      obtain ⟨-, rfl⟩ := List.cons.inj ht
      exact .inr ⟨s, b, o, r, b', rest, rfl, hb, ho, hr, hb'⟩

theorem uncut_nil : Uncut [] where
  no_comma := List.not_mem_nil
  no_slash := List.not_mem_nil
  no_or := by
    rintro ⟨s, b, o, r, b', rest, h, -⟩
    simp at h

theorem Uncut.cons {c : Char} {t : Text} (h : Uncut t) (hcut : ∀ rest, ¬ Cuts (c :: t) rest) :
    Uncut (c :: t) where
  no_comma := by
    rw [List.mem_cons, not_or]
    exact ⟨fun hc => hcut t (.separator (.inl hc.symm) t), h.no_comma⟩
  no_slash := by
    rw [List.mem_cons, not_or]
    exact ⟨fun hc => hcut t (.separator (.inr hc.symm) t), h.no_slash⟩
  no_or := by
    intro hor
    rcases hor.cons_cases with ⟨rest, hrest⟩ | htail
    · exact hcut rest hrest
    · exact h.no_or htail

theorem prefix_of_cutAlternatives_eq_cons {t p : Text} {ps : List Text} (h : cutAlternatives t = p :: ps) :
    p <+: t := by
  induction t using cutAlternatives_induction generalizing p ps with
  | nil =>
      rw [cutAlternatives] at h
      exact (List.cons.inj h).1 ▸ List.nil_prefix
  | cut t rest hcut ih =>
      rw [hcut.cutAlternatives] at h
      exact (List.cons.inj h).1 ▸ List.nil_prefix
  | cons c t hcut ih =>
      rw [cutAlternatives_cons hcut] at h
      obtain ⟨q, hq, rfl⟩ := Text.exists_of_consFirst_eq_cons (cutAlternatives_ne_nil t) h
      exact (List.prefix_cons_inj c).mpr (ih hq)

/-- No piece of a cell would be cut again. -/
theorem uncut_of_mem_cutAlternatives {t p : Text} (h : p ∈ cutAlternatives t) : Uncut p := by
  induction t using cutAlternatives_induction generalizing p with
  | nil =>
      rw [cutAlternatives, List.mem_singleton] at h
      exact h ▸ uncut_nil
  | cut t rest hcut ih =>
      rw [hcut.cutAlternatives] at h
      rcases List.mem_cons.mp h with rfl | hmem
      · exact uncut_nil
      · exact ih hmem
  | cons c t hcut ih =>
      rw [cutAlternatives_cons hcut] at h
      rcases Text.mem_consFirst_cases (cutAlternatives_ne_nil t) h with ⟨q, qs, hq, rfl⟩ | hmem
      · -- What would cut the first piece would have cut the text there.
        have hprefix : c :: q <+: c :: t := (List.prefix_cons_inj c).mpr (prefix_of_cutAlternatives_eq_cons hq)
        refine (ih (hq ▸ List.mem_cons_self)).cons fun rest hrest => ?_
        obtain ⟨rest', hrest'⟩ := hrest.exists_of_prefix hprefix
        exact hcut rest' hrest'
      · exact ih hmem

end Pieces

end Agreement

end Synopsis
