import Mathlib.Tactic.Tauto
import Synopsis.Proofs.TextFolding
import Synopsis.TypeName

/-!
# Known type names

A built-in type is a word of small letters or two of them with a space between, and a class is made of the
characters of identifiers and of dots. So a known name is not blank, it holds no slash in any case, and `or`
is not one of its words.
-/

namespace Synopsis

namespace TypeName

section Characters

theorem toNat_lt_of_isAlphanum {c : Char} (h : c.isAlphanum = true) : c.toNat < 128 := by
  rcases Bool.or_eq_true_iff.mp h with halpha | hdigit
  · rcases Bool.or_eq_true_iff.mp halpha with hupper | hlower
    · have hle := (of_decide_eq_true hupper).2
      exact lt_of_le_of_lt (UInt32.le_iff_toNat_le.mp hle) (by decide)
    · have hle := of_decide_eq_true (Bool.and_eq_true_iff.mp hlower).2
      exact lt_of_le_of_lt (UInt32.le_iff_toNat_le.mp hle) (by decide)
  · have hle := of_decide_eq_true (Bool.and_eq_true_iff.mp hdigit).2
    exact lt_of_le_of_lt (UInt32.le_iff_toNat_le.mp hle) (by decide)

variable {c : Char}

theorem toNat_lt_of_continuesIdentifier (h : continuesIdentifier c = true) : c.toNat < 128 := by
  simp only [continuesIdentifier, Bool.or_eq_true, beq_iff_eq] at h
  rcases h with (halnum | rfl) | rfl
  · exact toNat_lt_of_isAlphanum halnum
  · decide
  · decide

theorem not_isBlank_of_continuesIdentifier (h : continuesIdentifier c = true) : Text.isBlank c = false := by
  have hall := Text.of_lt_128 (P := fun c => !continuesIdentifier c || !Text.isBlank c) (by decide)
    (toNat_lt_of_continuesIdentifier h)
  simpa [h] using hall

theorem continuesIdentifier_of_startsIdentifier (h : startsIdentifier c = true) :
    continuesIdentifier c = true := by
  simp only [startsIdentifier, continuesIdentifier, Char.isAlphanum, Bool.or_eq_true] at h ⊢
  tauto

end Characters

section Names

variable {name : Text}

theorem isLower_or_space_of_builtin (h : name ∈ builtin) : ∀ c ∈ name, c.isLower = true ∨ c = ' ' := by
  have hall : (builtin.all fun t => t.all fun c => c.isLower || c == ' ') = true := by decide
  intro c hc
  simpa using List.all_eq_true.mp (List.all_eq_true.mp hall name h) c hc

theorem continuesIdentifier_of_isIdentifier (h : isIdentifier name = true) :
    ∀ c ∈ name, continuesIdentifier c = true := by
  cases name with
  | nil => cases h
  | cons d rest =>
      obtain ⟨hd, hrest⟩ := Bool.and_eq_true_iff.mp h
      exact List.forall_mem_cons.mpr ⟨continuesIdentifier_of_startsIdentifier hd, List.all_eq_true.mp hrest⟩

theorem continuesIdentifier_of_isStore (h : isClass.isStore name = true) :
    ∀ c ∈ name, continuesIdentifier c = true := by
  simp only [isClass.isStore, Bool.or_eq_true, beq_iff_eq] at h
  rcases h with rfl | rfl <;> exact List.all_eq_true.mp (by decide)

theorem continuesIdentifier_of_isClass (h : isClass name = true) :
    ∀ c ∈ name, c = '.' ∨ continuesIdentifier c = true := by
  intro c hc
  rcases @Text.mem_piece_of_mem '.' c name hc with rfl | ⟨piece, hpiece, hc⟩
  · exact .inl rfl
  · right
    unfold isClass at h
    split at h
    · next store last hcut =>
        obtain ⟨hstore, hlast⟩ := Bool.and_eq_true_iff.mp h
        rw [hcut, List.mem_pair] at hpiece
        rcases hpiece with rfl | rfl
        · exact continuesIdentifier_of_isStore hstore c hc
        · exact continuesIdentifier_of_isIdentifier hlast c hc
    · next store space last hcut =>
        obtain ⟨hstart, hlast⟩ := Bool.and_eq_true_iff.mp h
        obtain ⟨hstore, hspace⟩ := Bool.and_eq_true_iff.mp hstart
        rw [hcut, List.mem_cons, List.mem_pair] at hpiece
        rcases hpiece with rfl | rfl | rfl
        · exact continuesIdentifier_of_isStore hstore c hc
        · exact continuesIdentifier_of_isIdentifier hspace c hc
        · exact continuesIdentifier_of_isIdentifier hlast c hc
    · cases h

theorem dot_mem_of_isClass (h : isClass name = true) : '.' ∈ name := by
  by_contra hdot
  rw [isClass, Text.cutAt_of_not_mem hdot] at h
  cases h

theorem isKnown_cases (h : isKnown name = true) : Text.lowercase name ∈ builtin ∨ isClass name = true := by
  rw [isKnown, Bool.or_eq_true, List.contains_iff_mem] at h
  exact h

theorem lowercase_ne_nil_of_isKnown (h : isKnown name = true) : Text.lowercase name ≠ [] := by
  rw [Text.lowercase, ne_eq, Text.lowercaseFrom_eq_nil_iff]
  rintro rfl
  exact absurd h (by decide)

theorem slash_not_mem_of_isKnown (h : isKnown name = true) : '/' ∉ Text.lowercase name := by
  intro hslash
  rcases isKnown_cases h with hbuiltin | hclass
  · exact absurd (isLower_or_space_of_builtin hbuiltin '/' hslash) (by decide)
  · rw [Text.mem_lowercase_iff (by decide)] at hslash
    exact absurd (continuesIdentifier_of_isClass hclass '/' hslash) (by decide)

theorem or_not_mem_words_of_isKnown (h : isKnown name = true) :
    "or".toList ∉ Text.words (Text.lowercase name) := by
  intro hor
  rcases isKnown_cases h with hbuiltin | hclass
  · have hall : (builtin.all fun t => !(Text.words t).contains "or".toList) = true := by decide +kernel
    have hnot := List.all_eq_true.mp hall _ hbuiltin
    rw [List.contains_iff_mem.mpr hor] at hnot
    cases hnot
  · -- A class has no blank, so it is a single word, and that word has a dot.
    have hblank : ∀ c ∈ Text.lowercase name, Text.isBlank c = false := by
      apply Text.no_blank_lowercase
      intro c hc
      rcases continuesIdentifier_of_isClass hclass c hc with rfl | hcontinues
      · decide
      · exact not_isBlank_of_continuesIdentifier hcontinues
    have hdot : '.' ∈ Text.lowercase name :=
      (Text.mem_lowercase_iff (by decide)).mpr (dot_mem_of_isClass hclass)
    rw [Text.words_of_no_blank (lowercase_ne_nil_of_isKnown h) hblank, List.mem_singleton] at hor
    rw [← hor] at hdot
    exact absurd hdot (by decide)

end Names

end TypeName

end Synopsis
