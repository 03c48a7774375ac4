import Mathlib.Data.List.Infix
import Synopsis.Proofs.TextPieces
import Synopsis.Variant

/-!
# Variants on their own

The mark between variants has no border: its first character stands nowhere else in it, so two of its
occurrences never overlap. A cut therefore falls at every occurrence, whatever stands at its sides, and
each variant is read as if it were alone.
-/

namespace Synopsis

namespace Variant

def separator : Text := ['<', 'b', 'r', '/', '>']

theorem cut_separator_append (t : Text) : cut (separator ++ t) = [] :: cut t := rfl

theorem cut_cons_of_unmarked {c : Char} {t : Text} (h : ¬ separator <+: c :: t) :
    cut (c :: t) = Text.consFirst c (cut t) := by
  rw [cut]
  rintro rest rfl rfl
  exact h ⟨rest, rfl⟩

/-- A text is empty, or it begins with the mark, or its first character goes to the first piece. -/
@[elab_as_elim]
theorem cut_induction {motive : Text → Prop} (nil : motive [])
    (separator_append : ∀ rest, motive rest → motive (separator ++ rest))
    (cons : ∀ c rest, ¬ separator <+: c :: rest → motive rest → motive (c :: rest)) (t : Text) :
    motive t := by
  fun_induction cut t with
  | case1 rest ih => exact separator_append rest ih
  | case2 c rest hsep ih =>
      refine cons c rest ?_ ih
      rintro ⟨u, hu⟩
      exact hsep u (List.cons.inj hu).1.symm (List.cons.inj hu).2.symm
  | case3 => exact nil

theorem cut_ne_nil (t : Text) : cut t ≠ [] := by
  induction t using cut_induction with
  | nil => simp [cut]
  | separator_append rest ih => simp [cut_separator_append]
  | cons c rest h ih =>
      rw [cut_cons_of_unmarked h]
      exact Text.consFirst_ne_nil

/-- A text that the mark begins only together with what follows would hold the first character of the
mark behind its start. -/
theorem not_prefix_append_separator {c : Char} {s : Text} (h : ¬ separator <+: c :: s) (t : Text) :
    ¬ separator <+: c :: (s ++ (separator ++ t)) := by
  rintro ⟨u, hu⟩
  rw [← List.cons_append] at hu
  rcases List.append_eq_append_iff.mp hu with ⟨v, hv, -⟩ | ⟨v, hv, hrest⟩
  · exact h ⟨v, hv.symm⟩
  · cases v with
    | nil => exact h ⟨[], by simpa using hv⟩
    | cons d v =>
        have hd : d = '<' := (List.cons.inj hrest).1.symm
        have htail : ['b', 'r', '/', '>'] = s ++ d :: v := (List.cons.inj hv).2
        have hmem : '<' ∈ ['b', 'r', '/', '>'] := by simp [htail, hd]
        exact absurd hmem (by decide)

theorem cut_append_separator_append (s t : Text) : cut (s ++ (separator ++ t)) = cut s ++ cut t := by
  induction s using cut_induction with
  | nil => rfl
  | separator_append rest ih =>
      rw [List.append_assoc, cut_separator_append, ih, cut_separator_append]
      rfl
  | cons c rest h ih =>
      rw [List.cons_append, cut_cons_of_unmarked (not_prefix_append_separator h t), ih,
        cut_cons_of_unmarked h, Text.consFirst_append (cut_ne_nil rest)]

theorem prefix_of_cut_eq_cons {t piece : Text} {pieces : List Text} (h : cut t = piece :: pieces) :
    piece <+: t := by
  induction t using cut_induction generalizing piece pieces with
  | nil =>
      rw [← (List.cons.inj h).1]
  | separator_append rest ih =>
      rw [cut_separator_append] at h
      rw [← (List.cons.inj h).1]
      exact List.nil_prefix
  | cons c rest hsep ih =>
      rw [cut_cons_of_unmarked hsep] at h
      obtain ⟨first, hcut, rfl⟩ := Text.exists_of_consFirst_eq_cons (cut_ne_nil rest) h
      exact (List.prefix_cons_inj c).mpr (ih hcut)

theorem not_separator_infix_of_mem_cut {t piece : Text} (h : piece ∈ cut t) : ¬ separator <:+: piece := by
  induction t using cut_induction generalizing piece with
  | nil =>
      have hpiece : piece = [] := by simpa [cut] using h
      rw [hpiece]
      decide
  | separator_append rest ih =>
      rw [cut_separator_append] at h
      rcases List.mem_cons.mp h with rfl | hrest
      · decide
      · exact ih hrest
  | cons c rest hsep ih =>
      rw [cut_cons_of_unmarked hsep] at h
      rcases Text.mem_consFirst_cases (cut_ne_nil rest) h with ⟨first, others, hcut, rfl⟩ | hrest
      · -- the first piece is as long as it can be, so the mark cannot begin with the character put before it
        rw [List.infix_cons_iff]
        rintro (hlead | hinfix)
        · exact hsep (hlead.trans ((List.prefix_cons_inj c).mpr (prefix_of_cut_eq_cons hcut)))
        · exact ih (hcut ▸ List.mem_cons_self) hinfix
      · exact ih hrest

theorem length_le_of_mem_cut {t piece : Text} (h : piece ∈ cut t) : piece.length ≤ t.length := by
  induction t using cut_induction generalizing piece with
  | nil =>
      have hpiece : piece = [] := by simpa [cut] using h
      rw [hpiece]
  | separator_append rest ih =>
      rw [cut_separator_append] at h
      rw [List.length_append]
      rcases List.mem_cons.mp h with rfl | hrest
      · exact Nat.zero_le _
      · exact (ih hrest).trans (Nat.le_add_left _ _)
  | cons c rest hsep ih =>
      rw [cut_cons_of_unmarked hsep] at h
      rcases Text.mem_consFirst_cases (cut_ne_nil rest) h with ⟨first, others, hcut, rfl⟩ | hrest
      · exact Nat.succ_le_succ (ih (hcut ▸ List.mem_cons_self))
      · exact (ih hrest).trans (Nat.le_succ _)

theorem cut_eq_singleton {t : Text} (h : ¬ separator <:+: t) : cut t = [t] := by
  induction t using cut_induction with
  | nil => rfl
  | separator_append rest ih => exact absurd (List.prefix_append separator rest).isInfix h
  | cons c rest hsep ih =>
      rw [cut_cons_of_unmarked hsep, ih (fun hrest => h (List.infix_cons hrest))]
      rfl

theorem not_separator_infix_append_cons {c : Char} {s t : Text} (hc : c ∉ separator)
    (hs : ¬ separator <:+: s) (ht : ¬ separator <:+: t) : ¬ separator <:+: s ++ c :: t := by
  have hhead : ∀ v : Text, v ≠ [] → v <+: c :: t → c ∈ v := by
    intro v hv hlead
    rcases List.prefix_cons_iff.mp hlead with rfl | ⟨w, rfl, -⟩
    · exact absurd rfl hv
    · exact List.mem_cons_self
  rw [List.infix_append_iff_ne_nil]
  rintro (h | h | ⟨u, v, -, hv, hsep, -, hlead⟩)
  · exact hs h
  · rcases List.infix_cons_iff.mp h with hlead | hinfix
    · exact hc (hhead separator (by decide) hlead)
    · exact ht hinfix
  · rw [hsep] at hc
    exact hc (List.mem_append_right u (hhead v hv hlead))

theorem not_separator_infix_of_not_mem {t : Text} (h : '<' ∉ t) : ¬ separator <:+: t :=
  fun hsep => h (hsep.subset (by decide))

theorem mem_parse_iff {policy : Policy} {t : Text} {v : Variant} :
    v ∈ parse policy t ↔
      ∃ piece ∈ cut t, Text.trim piece ≠ [] ∧ v = ofText policy (Text.trim piece) := by
  simp only [parse, List.mem_map, List.mem_filter]
  constructor
  · rintro ⟨s, ⟨⟨piece, hpiece, rfl⟩, hne⟩, rfl⟩
    exact ⟨piece, hpiece, by simpa using hne, rfl⟩
  · rintro ⟨piece, hpiece, hne, rfl⟩
    exact ⟨Text.trim piece, ⟨⟨piece, hpiece, rfl⟩, by simpa using hne⟩, rfl⟩

theorem parse_eq_singleton (policy : Policy) {t : Text} (h : ¬ separator <:+: t) (ht : Text.trim t ≠ []) :
    parse policy t = [ofText policy (Text.trim t)] := by
  simp [parse, cut_eq_singleton h, ht]

theorem parse_append_separator_append (policy : Policy) (s t : Text) :
    parse policy (s ++ (separator ++ t)) = parse policy s ++ parse policy t := by
  simp [parse, cut_append_separator_append]

theorem parse_intercalate (policy : Policy) (ts : List Text) :
    parse policy (separator.intercalate ts) = ts.flatMap (parse policy) :=
  Text.intercalate_eq_flatMap rfl (parse_append_separator_append policy) ts

/-- Variants do not touch each other: reading what stands on both sides of a mark is reading each side,
and so reading any number of texts with marks between them is reading each of them. -/
theorem parse_each_apart (policy : Policy) :
    (∀ s t : Text, parse policy (s ++ separator ++ t) = parse policy s ++ parse policy t) ∧
      ∀ ts : List Text, parse policy (separator.intercalate ts) = ts.flatMap (parse policy) := by
  constructor
  · intro s t
    rw [List.append_assoc]
    exact parse_append_separator_append policy s t
  · exact parse_intercalate policy

end Variant

end Synopsis
