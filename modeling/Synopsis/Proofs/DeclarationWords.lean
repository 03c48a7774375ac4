import Synopsis.Declaration
import Synopsis.Proofs.EmphasisPieces
import Synopsis.Proofs.TypeNames

/-!
# The words of a declaration

A declaration is made of names and types. Both are runs of ordinary characters, those that no stage of
reading treats apart; a name goes on over word characters, a type over commas too. That a well-formed type
is such a run follows from the list of the built-in types and from the form of the classes.
-/

namespace Synopsis

namespace Declaration

open Text

/-- No blank, and no mark of the notation. -/
def isOrdinary (c : Char) : Bool :=
  !(isBlank c || (Emphasis.standIn :: "*\\:;\x7b\x7d()<>".toList).contains c)

def isNameChar (c : Char) : Bool :=
  c.isAlphanum || "_-$./[]".toList.contains c

structure IsName (name : Text) : Prop where
  ne_nil : name ≠ []
  isNameChar : ∀ c ∈ name, isNameChar c = true
  no_spread : ¬ Token.ellipsis <+: name

structure IsType (type : Text) : Prop where
  no_blank : ∀ c ∈ type, isBlank c = false
  isWellFormed : TypeName.isWellFormed type = true

instance (name : Text) : Decidable (IsName name) :=
  decidable_of_iff (name ≠ [] ∧ name.all isNameChar = true ∧ ¬ Token.ellipsis <+: name)
    ⟨fun h => ⟨h.1, List.all_eq_true.mp h.2.1, h.2.2⟩, fun h => ⟨h.1, List.all_eq_true.mpr h.2, h.3⟩⟩

instance (type : Text) : Decidable (IsType type) :=
  decidable_of_iff ((type.all fun c => isBlank c == false) = true ∧ TypeName.isWellFormed type = true)
    (by simp only [List.all_eq_true, beq_iff_eq]; exact ⟨fun h => ⟨h.1, h.2⟩, fun h => ⟨h.1, h.2⟩⟩)

theorem ne_of_isOrdinary {c d : Char} (hc : isOrdinary c = true) (hd : isOrdinary d = false) : c ≠ d := by
  rintro rfl
  rw [hc] at hd
  cases hd

theorem not_isBlank_of_isOrdinary {c : Char} (hc : isOrdinary c = true) : isBlank c = false := by
  unfold isOrdinary at hc
  cases hblank : isBlank c with
  | false => rfl
  | true => simp [hblank] at hc

theorem not_mem_of_isOrdinary {t : Text} (ht : ∀ c ∈ t, isOrdinary c = true) {d : Char}
    (hd : isOrdinary d = false) :
    d ∉ t :=
  fun hmem => ne_of_isOrdinary (ht d hmem) hd rfl

theorem not_isGap_of_isOrdinary {c : Char} (hc : isOrdinary c = true) : Token.isGap c = false := by
  have hspace : c ≠ ' ' := ne_of_isOrdinary hc (by decide)
  have htab : c ≠ '\t' := ne_of_isOrdinary hc (by decide)
  have hreturn : c ≠ '\r' := ne_of_isOrdinary hc (by decide)
  have hline : c ≠ '\n' := ne_of_isOrdinary hc (by decide)
  simp [Token.isGap, hspace, htab, hreturn, hline]

theorem ofPunctuation?_of_isOrdinary {c : Char} (hc : isOrdinary c = true) :
    Token.Kind.ofPunctuation? c = none := by
  cases hmark : Token.Kind.ofPunctuation? c with
  | none => rfl
  | some k =>
      unfold Token.Kind.ofPunctuation? at hmark
      split at hmark <;> first | exact absurd hc (by decide) | cases hmark

theorem isWordChar_of_isOrdinary {c : Char} (hc : isOrdinary c = true) : Emphasis.isWordChar c = true := by
  have hmarks : ("*:;\x7b\x7d()".toList.all fun d => !isOrdinary d) = true := by decide
  have hnot : "*:;\x7b\x7d()".toList.contains c = false := by
    rw [Bool.eq_false_iff]
    intro hmem
    have hmark := List.all_eq_true.mp hmarks c (List.contains_iff_mem.mp hmem)
    rw [hc] at hmark
    cases hmark
  rw [Emphasis.isWordChar, hnot, not_isBlank_of_isOrdinary hc]
  rfl

theorem plain_of_isOrdinary {t : Text} (ht : ∀ c ∈ t, isOrdinary c = true) : Emphasis.Plain t :=
  ⟨not_mem_of_isOrdinary ht (by decide), not_mem_of_isOrdinary ht (by decide),
    not_mem_of_isOrdinary ht (by decide)⟩

theorem toNat_lt_of_isNameChar {c : Char} (h : isNameChar c = true) : c.toNat < 128 := by
  have hmarks : ("_-$./[]".toList.all fun d => decide (d.toNat < 128)) = true := by decide
  rcases Bool.or_eq_true_iff.mp h with halnum | hmark
  · exact TypeName.toNat_lt_of_isAlphanum halnum
  · exact of_decide_eq_true (List.all_eq_true.mp hmarks c (List.contains_iff_mem.mp hmark))

theorem isOrdinary_of_isNameChar {c : Char} (h : isNameChar c = true) : isOrdinary c = true := by
  have hall := of_lt_128 (P := fun c => !isNameChar c || isOrdinary c) (by decide) (toNat_lt_of_isNameChar h)
  simpa [h] using hall

theorem isWordChar_of_isNameChar {c : Char} (h : isNameChar c = true) : Token.isWordChar c = true := by
  have hall := of_lt_128 (P := fun c => !isNameChar c || Token.isWordChar c) (by decide)
    (toNat_lt_of_isNameChar h)
  simpa [h] using hall

theorem IsName.isOrdinary {name : Text} (h : IsName name) : ∀ c ∈ name, isOrdinary c = true :=
  fun c hc => isOrdinary_of_isNameChar (h.isNameChar c hc)

theorem tight_of_isOrdinary {t : Text} (hne : t ≠ []) (h : ∀ c ∈ t, isOrdinary c = true) : Tight t :=
  tight_of_forall hne fun c hc => not_isBlank_of_isOrdinary (h c hc)

theorem IsName.trim {name : Text} (h : IsName name) : Text.trim name = name :=
  trim_eq_self_of_forall fun c hc => not_isBlank_of_isOrdinary (h.isOrdinary c hc)

/-- An ordinary character or one of `marks`. -/
def isOrdinaryOr (marks : Text) (c : Char) : Bool :=
  isOrdinary c || marks.contains c

theorem all_isOrdinaryOr (marks : Text) {t : Text} (h : ∀ c ∈ t, isOrdinary c = true) :
    t.all (isOrdinaryOr marks) = true := by
  rw [List.all_eq_true]
  intro c hc
  simp [isOrdinaryOr, h c hc]

theorem not_mem_of_all_isOrdinaryOr {marks t : Text} (h : t.all (isOrdinaryOr marks) = true) {c : Char}
    (hc : isOrdinaryOr marks c = false) : c ∉ t := by
  intro hmem
  rw [List.all_eq_true.mp h c hmem] at hc
  cases hc

theorem IsType.trim {type : Text} (h : IsType type) : Text.trim type = type :=
  trim_eq_self_of_forall h.no_blank

/-- What a type may hold. -/
def isTypeChar (c : Char) : Bool :=
  isOrdinary c && Token.Kind.typeName.admits c

theorem isTypeChar_of_continuesIdentifier {c : Char} (h : TypeName.continuesIdentifier c = true) :
    isTypeChar c = true := by
  have hall := of_lt_128 (P := fun c => !TypeName.continuesIdentifier c || isTypeChar c) (by decide)
    (TypeName.toNat_lt_of_continuesIdentifier h)
  simpa [h] using hall

theorem isTypeChar_of_lowerLetter {c : Char} (hblank : isBlank c = false)
    (h : (lowerLetter c).isLower = true ∨ lowerLetter c = ' ') : isTypeChar c = true := by
  by_cases hlt : c.toNat < 128
  · have hall :=
      of_lt_128 (P := fun c => isBlank c || !((lowerLetter c).isLower || lowerLetter c == ' ') || isTypeChar c)
      (by decide) hlt
    rcases h with h | h <;> simpa [hblank, h] using hall
  · have hstandIn : c ≠ Emphasis.standIn := by
      rintro rfl
      exact absurd h (by decide)
    have hmarks : ("*\\:;\x7b\x7d()<>".toList.all fun d => decide (d.toNat < 128)) = true := by decide
    have hmark : c ∉ "*\\:;\x7b\x7d()<>".toList :=
      fun hmem => hlt (of_decide_eq_true (List.all_eq_true.mp hmarks c hmem))
    have hhigh : 127 < c.toNat := by omega
    rw [isTypeChar, Bool.and_eq_true]
    constructor
    · rw [isOrdinary, hblank]
      simpa [hstandIn] using hmark
    · simp [Token.Kind.admits, Token.isWordChar, hhigh]

theorem isTypeChar_of_builtin {name : Text} (h : lowercase name ∈ TypeName.builtin) {c : Char} (hc : c ∈ name)
    (hblank : isBlank c = false) : isTypeChar c = true := by
  by_cases hsigma : c = 'Σ'
  · rw [hsigma]
    decide
  · by_cases hdotted : c = 'İ'
    · rw [hdotted]
      decide
    · exact isTypeChar_of_lowerLetter hblank (TypeName.isLower_or_space_of_builtin h _
        (lowerLetter_mem_lowercase hc hsigma hdotted))

theorem isTypeChar_of_isClass {name : Text} (h : TypeName.isClass name = true) :
    ∀ c ∈ name, isTypeChar c = true := by
  intro c hc
  rcases TypeName.continuesIdentifier_of_isClass h c hc with rfl | hcontinues
  · decide
  · exact isTypeChar_of_continuesIdentifier hcontinues

theorem IsType.isKnown {type piece : Text} (h : IsType type) (hpiece : piece ∈ cutAt ',' type) :
    TypeName.isKnown piece = true := by
  have hknown := List.all_eq_true.mp h.isWellFormed piece hpiece
  rwa [trim_eq_self_of_forall fun c hc => h.no_blank c (mem_of_mem_piece hpiece hc)] at hknown

theorem IsType.isTypeChar {type : Text} (h : IsType type) : ∀ c ∈ type, isTypeChar c = true := by
  intro c hc
  have hblank := h.no_blank c hc
  rcases @mem_piece_of_mem ',' c type hc with rfl | ⟨piece, hpiece, hc⟩
  · decide
  · rcases Bool.or_eq_true_iff.mp (h.isKnown hpiece) with hbuiltin | hclass
    · exact isTypeChar_of_builtin (List.contains_iff_mem.mp hbuiltin) hc hblank
    · exact isTypeChar_of_isClass hclass c hc

theorem IsType.isOrdinary {type : Text} (h : IsType type) : ∀ c ∈ type, isOrdinary c = true :=
  fun c hc => (Bool.and_eq_true_iff.mp (h.isTypeChar c hc)).1

theorem not_isKnown_nil : TypeName.isKnown [] = false := by decide

theorem not_isKnown_dot (t : Text) : TypeName.isKnown ('.' :: t) = false := by
  have hbuiltin : TypeName.builtin.contains (lowercase ('.' :: t)) = false := by
    rw [Bool.eq_false_iff]
    intro hmem
    have hdot := lowerLetter_mem_lowercase (c := '.') (t := '.' :: t) (by simp) (by decide) (by decide)
    exact absurd (TypeName.isLower_or_space_of_builtin (List.contains_iff_mem.mp hmem) _ hdot) (by decide)
  have hclass : TypeName.isClass ('.' :: t) = false := by
    unfold TypeName.isClass
    rw [cutAt_cons_self]
    split
    · next hcut =>
        rw [← (List.cons.inj hcut).1]
        rfl
    · next hcut =>
        rw [← (List.cons.inj hcut).1]
        rfl
    · rfl
  rw [TypeName.isKnown, hbuiltin, hclass]
  rfl

theorem IsType.ne_nil {type : Text} (h : IsType type) : type ≠ [] := by
  rintro rfl
  have hknown := @IsType.isKnown [] [] h (by simp)
  rw [not_isKnown_nil] at hknown
  cases hknown

theorem IsType.no_spread {type : Text} (h : IsType type) : ¬ Token.ellipsis <+: type := by
  rintro ⟨rest, rfl⟩
  have hcut : cutAt ',' (Token.ellipsis ++ rest) = appendFirst Token.ellipsis (cutAt ',' rest) :=
    cutAt_append_of_not_mem (by decide) rest
  obtain ⟨t, hpiece⟩ : ∃ t, '.' :: t ∈ cutAt ',' (Token.ellipsis ++ rest) := by
    rw [hcut]
    cases cutAt ',' rest with
    | nil => exact ⟨_, List.mem_cons_self⟩
    | cons u us => exact ⟨_, List.mem_cons_self⟩
  have hknown := h.isKnown hpiece
  rw [not_isKnown_dot] at hknown
  cases hknown

end Declaration

end Synopsis
