import Synopsis.Proofs.TextLowered
import Synopsis.Proofs.TypeAlternatives

/-!
# The alternatives of a cell as its normal form

No piece of a cell holds an `or` between blanks, and folding a piece brings none in, since its blanks were
blanks before and nothing but the two letters is lowered to `o` or to `r`. A cell that is written anew from
its alternatives, with commas between them, therefore offers the same alternatives.
-/

namespace Synopsis

namespace Agreement

section Folding

theorem exists_of_lowercase_eq_or {w : Text} (h : Text.lowercase w = "or".toList) :
    ∃ o r, w = [o, r] ∧ o.toLower = 'o' ∧ r.toLower = 'r' := by
  have hproper : ∀ d ∈ Text.lowercase w, Text.isProper d = true := by
    intro d hd
    rw [h] at hd
    rcases List.mem_pair.mp hd with rfl | rfl
    · decide +kernel
    · decide +kernel
  have hletters : w.map Char.toLower = ['o', 'r'] := (Text.map_toLower_of_lowercase hproper).trans h
  obtain ⟨o, w', rfl, ho, hw'⟩ := List.map_eq_cons_iff.mp hletters
  obtain ⟨r, w'', rfl, hr, hw''⟩ := List.map_eq_cons_iff.mp hw'
  obtain rfl := List.map_eq_nil_iff.mp hw''
  exact ⟨o, r, rfl, ho, hr⟩

theorem HasOr.of_lowercase {t : Text} (h : HasOr (Text.lowercase t)) : HasOr t := by
  obtain ⟨s, b, o, r, b', rest, ht, hb, ho, hr, hb'⟩ := h
  obtain ⟨s', u, rfl, -, hu⟩ := Text.exists_of_lowercase_eq_append hb ht
  obtain ⟨w, rest', rfl, hw, -⟩ := Text.exists_of_lowercase_eq_append (s := [o, r]) hb' hu
  have hor : Text.lowercase w = "or".toList := by
    rw [← Text.lowercase_lowercase, hw, lowercase_or ho hr]
  obtain ⟨o', r', rfl, ho', hr'⟩ := exists_of_lowercase_eq_or hor
  exact ⟨s', b, o', r', b', rest', rfl, hb, ho', hr', hb'⟩

theorem HasOr.of_infix {s t : Text} (h : HasOr s) (hst : s <:+: t) : HasOr t := by
  obtain ⟨s', b, o, r, b', rest, rfl, hor⟩ := h
  obtain ⟨l, l', rfl⟩ := hst
  exact ⟨l ++ s', b, o, r, b', rest ++ l', by simp, hor⟩

theorem Uncut.folded {t : Text} (h : Uncut t) : Uncut (Text.folded t) where
  no_comma := (Text.mem_folded_iff (by decide) (by decide)).not.mpr h.no_comma
  no_slash := (Text.mem_folded_iff (by decide) (by decide)).not.mpr h.no_slash
  no_or := fun hor => h.no_or (hor.of_lowercase.of_infix (Text.isInfix_trim t))

end Folding

section NormalForm

theorem mem_alternatives_iff {a t : Text} :
    t ∈ alternatives a ↔ t ≠ [] ∧ ∃ p ∈ cutAlternatives a, Text.folded p = t := by
  simp [alternatives, and_comm]

/-- An alternative is not empty and folded already, and it would not be cut. -/
structure IsNormal (t : Text) : Prop where
  ne_nil : t ≠ []
  folded : Text.folded t = t
  uncut : Uncut t

theorem isNormal_of_mem_alternatives {a t : Text} (h : t ∈ alternatives a) : IsNormal t := by
  obtain ⟨hne, p, hp, rfl⟩ := mem_alternatives_iff.mp h
  exact ⟨hne, Text.folded_folded p, (uncut_of_mem_cutAlternatives hp).folded⟩

theorem alternatives_intercalate_of_isNormal {ts : List Text} (h : ∀ t ∈ ts, IsNormal t) :
    alternatives ([','].intercalate ts) = ts := by
  have hne : ∀ t ∈ ts, Text.folded t ≠ [] := fun t ht => (h t ht).folded.symm ▸ (h t ht).ne_nil
  rw [alternatives_intercalate fun t ht => ⟨(h t ht).uncut, hne t ht⟩]
  exact (List.map_congr_left fun t ht => (h t ht).folded).trans (List.map_id ts)

/-- The normal texts are those that are offered as they stand. -/
theorem alternatives_eq_singleton_iff {t : Text} : alternatives t = [t] ↔ IsNormal t := by
  constructor
  · intro h
    exact isNormal_of_mem_alternatives (h ▸ List.mem_singleton_self t)
  · intro h
    have hsingle := alternatives_intercalate_of_isNormal (List.forall_mem_singleton.mpr h)
    rwa [List.intercalate_singleton] at hsingle

/-- Every alternative is a folded text without comma and slash, the alternatives joined by commas are
offered again as they are, and a comma between two cells puts their alternatives one behind the other. Every
normal text is offered as it stands, and no other one is. -/
theorem alternatives_normal_form (a b : Text) :
    (∀ t ∈ alternatives a, t ≠ [] ∧ Text.folded t = t ∧ ',' ∉ t ∧ '/' ∉ t) ∧
      alternatives ([','].intercalate (alternatives a)) = alternatives a ∧
      alternatives (a ++ ',' :: b) = alternatives a ++ alternatives b ∧
      ∀ t, alternatives t = [t] ↔ IsNormal t := by
  refine ⟨fun t ht => ?_, ?_, alternatives_append_comma a b, fun t => alternatives_eq_singleton_iff⟩
  · have hnormal := isNormal_of_mem_alternatives ht
    exact ⟨hnormal.ne_nil, hnormal.folded, hnormal.uncut.no_comma, hnormal.uncut.no_slash⟩
  · exact alternatives_intercalate_of_isNormal fun t ht => isNormal_of_mem_alternatives ht

/-- An `or` that is left when another one before it has taken the blank between them, one at the end of a
cell, a letter that is lowered to two characters, and a sigma that ends a word. -/
theorem alternatives_normal_form_of_doubled_or :
    ∃ a b t, a = "Text or OR İd/,ΟΔΟΣ\tor".toList ∧ b = " or Blob ".toList ∧ t = "or i\u0307d".toList ∧
      t ∈ alternatives a ∧ t ≠ [] ∧ Text.folded t = t ∧ ',' ∉ t ∧ '/' ∉ t ∧ alternatives t = [t] ∧
      IsNormal t ∧
      alternatives ([','].intercalate (alternatives a)) = ["text".toList, t, "οδος\tor".toList] ∧
      alternatives (a ++ ',' :: b) = ["text".toList, t, "οδος\tor".toList, "blob".toList] := by
  obtain ⟨hentries, hjoined, hcomma, hnormal⟩ :=
    alternatives_normal_form "Text or OR İd/,ΟΔΟΣ\tor".toList " or Blob ".toList
  have ha : alternatives "Text or OR İd/,ΟΔΟΣ\tor".toList =
      ["text".toList, "or i\u0307d".toList, "οδος\tor".toList] := by decide +kernel
  have hb : alternatives " or Blob ".toList = ["blob".toList] := by decide +kernel
  have ht : alternatives "or i\u0307d".toList = ["or i\u0307d".toList] := by decide +kernel
  have hmem : "or i\u0307d".toList ∈ alternatives "Text or OR İd/,ΟΔΟΣ\tor".toList :=
    ha ▸ List.mem_cons_of_mem _ List.mem_cons_self
  obtain ⟨hne, hfolded, hnocomma, hnoslash⟩ := hentries _ hmem
  refine ⟨_, _, _, rfl, rfl, rfl, hmem, hne, hfolded, hnocomma, hnoslash, ht, (hnormal _).mp ht,
    hjoined.trans ha, ?_⟩
  rw [hcomma, ha, hb]
  rfl

end NormalForm

end Agreement

end Synopsis
