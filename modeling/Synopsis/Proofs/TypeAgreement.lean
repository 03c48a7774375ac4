import Mathlib.Logic.Relation
import Synopsis.Proofs.TypeAlternatives
import Synopsis.Proofs.TypeNames

/-!
# Agreement of types, name by name

Both forms of the comparison look at single names. A well-formed type agrees with a cell exactly if the cell
offers each of its names, the shortcut for equal texts notwithstanding, and it goes on to agree when more is
offered. A collection is compared as the set of the types that its names stand for; for plain names that is
agreement with a cell in both directions.
-/

namespace Synopsis

namespace Agreement

section Spellings

theorem respelled?_eq_some_iff {s t : Text} :
    respelled? s = some t ↔
      (s = "real".toList ∧ t = "number".toList) ∨ (s = "number".toList ∧ t = "real".toList) := by
  have hne : "real".toList ≠ "number".toList := by decide
  unfold respelled?
  generalize "real".toList = real at hne ⊢
  generalize "number".toList = number at hne ⊢
  by_cases hreal : s = real
  · rw [if_pos hreal, Option.some.injEq, hreal, eq_comm]
    simp [hne]
  · rw [if_neg hreal]
    by_cases hnumber : s = number
    · rw [if_pos hnumber, Option.some.injEq, hnumber, eq_comm]
      simp [hne.symm]
    · simp [hreal, hnumber]

theorem canonical_eq_iff {s t : Text} : canonical s = canonical t ↔ s = t ∨ respelled? s = some t := by
  rw [respelled?_eq_some_iff]
  unfold canonical
  generalize "real".toList = real
  generalize "number".toList = number
  by_cases hs : s = real
  · by_cases ht : t = real
    · simp [hs, ht]
    · rw [if_pos hs, if_neg ht, hs]
      grind
  · by_cases ht : t = real
    · rw [if_neg hs, if_pos ht, ht]
      grind
    · rw [if_neg hs, if_neg ht]
      grind

theorem canonical_eq_anyType_iff {t : Text} : canonical t = anyType ↔ t = anyType := by
  have hany : canonical anyType = anyType := by decide
  have hnone : ¬ respelled? t = some anyType := by
    rw [respelled?_eq_some_iff]
    rintro (⟨-, h⟩ | ⟨-, h⟩)
    · exact absurd h (by decide)
    · exact absurd h (by decide)
  rw [← hany, canonical_eq_iff, or_iff_left hnone, hany]

theorem isOffered_iff {offered : List Text} {t : Text} :
    isOffered offered t = true ↔
      t = anyType ∨ t ∈ offered ∨ ∃ u, respelled? t = some u ∧ u ∈ offered := by
  simp [isOffered, Option.any_eq_true, or_assoc]

theorem isOffered_iff_canonical {offered : List Text} {t : Text} :
    isOffered offered t = true ↔ t = anyType ∨ canonical t ∈ offered.map canonical := by
  rw [isOffered_iff, List.mem_map]
  refine or_congr_right ?_
  constructor
  · rintro (hmem | ⟨u, hu, hmem⟩)
    · exact ⟨t, hmem, rfl⟩
    · exact ⟨u, hmem, (canonical_eq_iff.mpr (.inr hu)).symm⟩
  · rintro ⟨u, hmem, hu⟩
    rcases canonical_eq_iff.mp hu.symm with rfl | hrespelled
    · exact .inl hmem
    · exact .inr ⟨u, hrespelled, hmem⟩

end Spellings

section Cells

theorem names_eq_of_folded_eq {s t : Text} (h : Text.folded s = Text.folded t) :
    TypeName.names s = TypeName.names t := by
  rw [TypeName.names, TypeName.names, Text.map_folded_cutAt_comma, Text.map_folded_cutAt_comma, h]

theorem uncut_of_folded_eq {piece name : Text} (hknown : TypeName.isKnown (Text.trim name) = true)
    (h : Text.folded piece = Text.folded name) (hcomma : ',' ∉ piece) : Uncut piece where
  no_comma := hcomma
  no_slash := by
    intro hslash
    have hfolded := (Text.mem_folded_iff (by decide) (by decide)).mpr hslash
    rw [h] at hfolded
    exact TypeName.slash_not_mem_of_isKnown hknown hfolded
  no_or := by
    intro hor
    have hword := hor.mem_words
    rw [h] at hword
    exact TypeName.or_not_mem_words_of_isKnown hknown hword

theorem alternatives_of_folded_eq {declared documented : Text} (hformed : TypeName.isWellFormed declared = true)
    (h : Text.folded declared = Text.folded documented) :
    alternatives documented = TypeName.names declared := by
  have hknown : ∀ name ∈ Text.cutAt ',' declared, TypeName.isKnown (Text.trim name) = true :=
    List.all_eq_true.mp hformed
  have hnames := names_eq_of_folded_eq h
  have huncut : ∀ piece ∈ Text.cutAt ',' documented, Uncut piece ∧ Text.folded piece ≠ [] := by
    intro piece hpiece
    have hmem : Text.folded piece ∈ TypeName.names declared := hnames ▸ List.mem_map_of_mem hpiece
    obtain ⟨name, hname, hfolded⟩ := List.mem_map.mp hmem
    refine ⟨uncut_of_folded_eq (hknown name hname) hfolded.symm (Text.sep_not_mem_piece hpiece), ?_⟩
    rw [← hfolded]
    exact TypeName.lowercase_ne_nil_of_isKnown (hknown name hname)
  calc alternatives documented = alternatives ([','].intercalate (Text.cutAt ',' documented)) := by
        rw [Text.intercalate_cutAt]
    _ = TypeName.names documented := alternatives_intercalate huncut
    _ = TypeName.names declared := hnames.symm

/-- For a well-formed type the comparison of the whole texts decides nothing that the names do not. -/
theorem withText_eq_all_isOffered {declared : Text} (hformed : TypeName.isWellFormed declared = true)
    (documented : Text) :
    withText declared documented = (TypeName.names declared).all (isOffered (alternatives documented)) := by
  rw [withText]
  by_cases hfolded : Text.folded declared = Text.folded documented
  · have hall : (TypeName.names declared).all (isOffered (alternatives documented)) = true := by
      rw [alternatives_of_folded_eq hformed hfolded, List.all_eq_true]
      exact fun name hname => isOffered_iff.mpr (.inr (.inl hname))
    rw [hall, Bool.or_true]
  · rw [beq_false_of_ne hfolded, Bool.false_or]

/-- A well-formed type agrees with a cell exactly if each of its names is `any`, is offered by the cell, or
is one of the two spellings of a number type of which the cell offers the other; and it goes on to agree
when more is offered. -/
theorem withText_of_wellFormed {declared : Text} (h : TypeName.isWellFormed declared = true)
    (documented : Text) :
    (withText declared documented = true ↔ ∀ name ∈ TypeName.names declared,
        name = "any".toList ∨ name ∈ alternatives documented ∨
          (name = "real".toList ∧ "number".toList ∈ alternatives documented) ∨
          (name = "number".toList ∧ "real".toList ∈ alternatives documented)) ∧
      (withText declared documented = true →
        ∀ more, withText declared (documented ++ ',' :: more) = true) := by
  constructor
  · rw [withText_eq_all_isOffered h, List.all_eq_true]
    refine forall₂_congr fun name _ => ?_
    rw [isOffered_iff]
    refine or_congr_right (or_congr_right ?_)
    simp only [respelled?_eq_some_iff, or_and_right, exists_or, and_assoc, exists_and_left, exists_eq_left]
  · intro hagrees more
    rw [withText_eq_all_isOffered h, List.all_eq_true] at hagrees ⊢
    intro name hname
    have hoffered := isOffered_iff_canonical.mp (hagrees name hname)
    rw [isOffered_iff_canonical, alternatives_append_comma, List.map_append, List.mem_append]
    rcases hoffered with hany | hmem
    · exact .inl hany
    · exact .inr (.inl hmem)

/-- Spellings, cases and blanks that differ, a class, and a cell that offers more; a cell without one of the
names is refused. -/
theorem withText_of_wellFormed_array :
    ∃ declared documented more lacking, declared = "REAL array, 4D.File ,number".toList ∧
      documented = "4d.file/Real or real Array".toList ∧ more = " a or or b".toList ∧
      lacking = "4d.file/Real or Array".toList ∧
      TypeName.isWellFormed declared = true ∧ withText declared documented = true ∧
      withText declared (documented ++ ',' :: more) = true ∧ withText declared lacking = false := by
  have hformed : TypeName.isWellFormed "REAL array, 4D.File ,number".toList = true := by decide +kernel
  obtain ⟨hiff, hmore⟩ := withText_of_wellFormed hformed "4d.file/Real or real Array".toList
  obtain ⟨hlacking, -⟩ := withText_of_wellFormed hformed "4d.file/Real or Array".toList
  have hagrees := hiff.mpr (by decide +kernel)
  have hrefused := Bool.eq_false_iff.mpr (mt hlacking.mp (by decide +kernel))
  exact ⟨_, _, _, _, rfl, rfl, rfl, rfl, hformed, hagrees, hmore hagrees _, hrefused⟩

/-- A text that is no well-formed type agrees with itself by the shortcut only. -/
example : withText "a/b".toList "a/b".toList = true ∧ withText "a/b".toList "a/b,c".toList = false := by
  decide +kernel

end Cells

section Collections

def typeOf (name : Text) : Text :=
  canonical (Text.folded name)

theorem sameMembers_iff {a b : List Text} : sameMembers a b = true ↔ ∀ t, t ∈ a ↔ t ∈ b := by
  simp only [sameMembers, Bool.and_eq_true, List.all_eq_true, List.contains_iff_mem]
  exact ⟨fun h t => ⟨h.1 t, h.2 t⟩, fun h => ⟨fun t => (h t).mp, fun t => (h t).mpr⟩⟩

theorem anyType_mem_map_folded_iff {names : List Text} :
    anyType ∈ names.map Text.folded ↔ anyType ∈ names.map typeOf := by
  simp only [List.mem_map, typeOf, canonical_eq_anyType_iff]

theorem names_intercalate {names : List Text} (hne : names ≠ []) (hcomma : ∀ name ∈ names, ',' ∉ name) :
    TypeName.names ([','].intercalate names) = names.map Text.folded := by
  rw [TypeName.names, Text.cutAt_intercalate hne hcomma]

theorem withCollection_intercalate_iff {a b : List Text} (hne : a ≠ []) (hcomma : ∀ name ∈ a, ',' ∉ name) :
    withCollection ([','].intercalate a) b = true ↔
      anyType ∈ a.map typeOf ∨ anyType ∈ b.map typeOf ∨
        ∀ t, t ∈ a.map typeOf ↔ t ∈ b.map typeOf := by
  have htypes : ∀ names : List Text, (names.map Text.folded).map canonical = names.map typeOf :=
    fun names => List.map_map
  rw [withCollection, names_intercalate hne hcomma]
  simp only [Bool.or_eq_true, List.contains_iff_mem, or_assoc]
  rw [anyType_mem_map_folded_iff, anyType_mem_map_folded_iff, sameMembers_iff, htypes, htypes]

/-- Another way to name the same types: in another order, twice, in another case, between blanks, or with
the other of two spellings. -/
inductive Restates : List Text → List Text → Prop where
  | permuted {a b : List Text} (h : a.Perm b) : Restates a b
  | duplicated (l : List Text) (name : Text) (r : List Text) :
      Restates (l ++ name :: r) (l ++ name :: name :: r)
  | refolded (l : List Text) {s t : Text} (r : List Text) (h : Text.folded s = Text.folded t) :
      Restates (l ++ s :: r) (l ++ t :: r)
  | respelled (l : List Text) {s t : Text} (r : List Text)
      (h : respelled? (Text.folded s) = some (Text.folded t)) :
      Restates (l ++ s :: r) (l ++ t :: r)

variable {a b a' b' : List Text}

theorem Restates.mem_map_typeOf (h : Restates a b) (t : Text) : t ∈ a.map typeOf ↔ t ∈ b.map typeOf := by
  cases h with
  | permuted h => exact (h.map typeOf).mem_iff
  | duplicated l name r => simp
  | refolded l r h =>
      have htype := congrArg canonical h
      rw [List.map_append, List.map_append, List.map_cons, List.map_cons, typeOf, typeOf, htype]
  | respelled l r h =>
      have htype := canonical_eq_iff.mpr (.inr h)
      rw [List.map_append, List.map_append, List.map_cons, List.map_cons, typeOf, typeOf, htype]

theorem Restates.ne_nil (h : Restates a b) (ha : a ≠ []) : b ≠ [] := by
  cases h with
  | permuted h => exact fun hb => ha (List.Perm.eq_nil (hb ▸ h))
  | duplicated l name r => simp
  | refolded l r h => simp
  | respelled l r h => simp

theorem Restates.no_comma (h : Restates a b) (ha : ∀ name ∈ a, ',' ∉ name) :
    ∀ name ∈ b, ',' ∉ name := by
  have hfolded : ∀ {t : Text}, ',' ∈ Text.folded t ↔ ',' ∈ t :=
    Text.mem_folded_iff (by decide) (by decide)
  cases h with
  | permuted h => exact fun name hname => ha name (h.mem_iff.mpr hname)
  | duplicated l name r =>
      simp only [List.forall_mem_append, List.forall_mem_cons] at ha ⊢
      exact ⟨ha.1, ha.2.1, ha.2.1, ha.2.2⟩
  | @refolded l s t r h =>
      simp only [List.forall_mem_append, List.forall_mem_cons] at ha ⊢
      refine ⟨ha.1, ?_, ha.2.2⟩
      rw [← hfolded, ← h, hfolded]
      exact ha.2.1
  | @respelled l s t r h =>
      simp only [List.forall_mem_append, List.forall_mem_cons] at ha ⊢
      refine ⟨ha.1, ?_, ha.2.2⟩
      rw [← hfolded]
      rcases respelled?_eq_some_iff.mp h with ⟨-, ht⟩ | ⟨-, ht⟩
      · rw [ht]
        decide
      · rw [ht]
        decide

/-- A list of names that can be joined and cut again, and that names the types of another one. -/
structure NamesTypesOf (a b : List Text) : Prop where
  ne_nil : b ≠ []
  no_comma : ∀ name ∈ b, ',' ∉ name
  mem_map_typeOf : ∀ t, t ∈ a.map typeOf ↔ t ∈ b.map typeOf

theorem namesTypesOf_of_restates (ha : a ≠ []) (hcomma : ∀ name ∈ a, ',' ∉ name)
    (h : Relation.ReflTransGen Restates a b) : NamesTypesOf a b := by
  induction h with
  | refl => exact ⟨ha, hcomma, fun _ => Iff.rfl⟩
  | tail _ hstep ih =>
      exact ⟨hstep.ne_nil ih.ne_nil, hstep.no_comma ih.no_comma,
        fun t => (ih.mem_map_typeOf t).trans (hstep.mem_map_typeOf t)⟩

/-- The comparison with a collection is one of sets of types: without `any` the two lists agree if they name
the same types, they may change places, and each of them may be restated in any number of steps. -/
theorem withCollection_of_restated (ha : a ≠ []) (hb : b ≠ []) (hcommaa : ∀ name ∈ a, ',' ∉ name)
    (hcommab : ∀ name ∈ b, ',' ∉ name) :
    (withCollection ([','].intercalate a) b = true ↔
        anyType ∈ a.map typeOf ∨ anyType ∈ b.map typeOf ∨
          ∀ t, t ∈ a.map typeOf ↔ t ∈ b.map typeOf) ∧
      withCollection ([','].intercalate a) b = withCollection ([','].intercalate b) a ∧
      ∀ a' b', Relation.ReflTransGen Restates a a' → Relation.ReflTransGen Restates b b' →
        withCollection ([','].intercalate a') b' = withCollection ([','].intercalate a) b := by
  refine ⟨withCollection_intercalate_iff ha hcommaa, ?_, ?_⟩
  · rw [Bool.eq_iff_iff, withCollection_intercalate_iff ha hcommaa, withCollection_intercalate_iff hb hcommab]
    simp only [or_left_comm, iff_comm]
  · intro a' b' hrestateda hrestatedb
    have htypesa := namesTypesOf_of_restates ha hcommaa hrestateda
    have htypesb := namesTypesOf_of_restates hb hcommab hrestatedb
    rw [Bool.eq_iff_iff, withCollection_intercalate_iff htypesa.ne_nil htypesa.no_comma,
      withCollection_intercalate_iff ha hcommaa]
    simp only [htypesa.mem_map_typeOf, htypesb.mem_map_typeOf]

/-- The other spelling, the other case, another order and a name twice; a list that lacks a type is refused
from both sides. -/
theorem withCollection_of_restated_spelling :
    ∃ a b a' b' c, a = ["Real".toList, " 4D.File".toList] ∧ b = ["4d.FILE".toList, "number".toList] ∧
      a' = [" 4D.File".toList, " NUMBER".toList, "Real".toList] ∧ b' = ["real\t".toList, "4d.FILE".toList] ∧
      c = ["number".toList, "Real".toList] ∧
      Relation.ReflTransGen Restates a a' ∧ Relation.ReflTransGen Restates b b' ∧
      withCollection ([','].intercalate a) b = true ∧ withCollection ([','].intercalate b) a = true ∧
      withCollection ([','].intercalate a') b' = true ∧
      withCollection ([','].intercalate a) c = false ∧ withCollection ([','].intercalate c) a = false ∧
      withCollection ([','].intercalate a') c = false := by
  obtain ⟨a, haeq⟩ : ∃ a, a = ["Real".toList, " 4D.File".toList] := ⟨_, rfl⟩
  obtain ⟨b, hbeq⟩ : ∃ b, b = ["4d.FILE".toList, "number".toList] := ⟨_, rfl⟩
  obtain ⟨c, hceq⟩ : ∃ c, c = ["number".toList, "Real".toList] := ⟨_, rfl⟩
  have ha : Relation.ReflTransGen Restates a [" 4D.File".toList, " NUMBER".toList, "Real".toList] := by
    rw [haeq]
    refine .tail (.tail (.tail .refl (.duplicated [] "Real".toList [" 4D.File".toList]))
      (.respelled [] (t := " NUMBER".toList) ["Real".toList, " 4D.File".toList] (by decide +kernel)))
      (.permuted ?_)
    decide
  have hb : Relation.ReflTransGen Restates b ["real\t".toList, "4d.FILE".toList] := by
    rw [hbeq]
    exact .tail (.tail .refl (.respelled ["4d.FILE".toList] (t := "real\t".toList) [] (by decide +kernel)))
      (.permuted (by decide))
  obtain ⟨-, hcomm, hrestated⟩ := withCollection_of_restated (a := a) (b := b) (by simp [haeq])
    (by simp [hbeq]) (by rw [haeq]; decide) (by rw [hbeq]; decide)
  obtain ⟨hother, hcommother, hrestatedother⟩ := withCollection_of_restated (a := a) (b := c) (by simp [haeq])
    (by simp [hceq]) (by rw [haeq]; decide) (by rw [hceq]; decide)
  have hagrees : withCollection ([','].intercalate a) b = true := by
    rw [haeq, hbeq]
    decide +kernel
  have hrefused : withCollection ([','].intercalate a) c = false := by
    rw [Bool.eq_false_iff, ne_eq, hother, haeq, hceq]
    rintro (hany | hany | htypes)
    · exact absurd hany (by decide +kernel)
    · exact absurd hany (by decide +kernel)
    · have hfile := (htypes (typeOf " 4D.File".toList)).mp (List.mem_cons_of_mem _ List.mem_cons_self)
      exact absurd hfile (by decide +kernel)
  exact ⟨a, b, _, _, c, haeq, hbeq, rfl, rfl, hceq, ha, hb, hagrees, hcomm.symm.trans hagrees,
    (hrestated _ _ ha hb).trans hagrees, hrefused, hcommother.symm.trans hrefused,
    (hrestatedother _ _ ha .refl).trans hrefused⟩

end Collections

section Entries

/-- A name as a list of types has it: trimmed, whole in a cell, and not `any`. -/
structure IsEntry (name : Text) : Prop where
  ne_nil : name ≠ []
  trimmed : Text.trim name = name
  uncut : Uncut name
  ne_any : Text.lowercase name ≠ anyType

variable {a b : List Text}

theorem IsEntry.typeOf_ne_anyType {name : Text} (h : IsEntry name) : typeOf name ≠ anyType := by
  rw [typeOf, ne_eq, canonical_eq_anyType_iff, Text.folded, h.trimmed]
  exact h.ne_any

theorem IsEntry.folded_ne_nil {name : Text} (h : IsEntry name) : Text.folded name ≠ [] := by
  rw [Text.folded, h.trimmed, Text.lowercase, ne_eq, Text.lowercaseFrom_eq_nil_iff]
  exact h.ne_nil

theorem anyType_not_mem_map_typeOf (h : ∀ name ∈ a, IsEntry name) : anyType ∉ a.map typeOf := by
  intro hany
  obtain ⟨name, hname, htype⟩ := List.mem_map.mp hany
  exact (h name hname).typeOf_ne_anyType htype

theorem withText_intercalate_iff (hane : a ≠ []) (hbne : b ≠ []) (ha : ∀ name ∈ a, IsEntry name)
    (hb : ∀ name ∈ b, IsEntry name) :
    withText ([','].intercalate a) ([','].intercalate b) = true ↔ ∀ t ∈ a.map typeOf, t ∈ b.map typeOf := by
  have hnamesa := names_intercalate hane fun name hname => (ha name hname).uncut.no_comma
  have hnamesb := names_intercalate hbne fun name hname => (hb name hname).uncut.no_comma
  have hoffers : alternatives ([','].intercalate b) = b.map Text.folded :=
    alternatives_intercalate fun name hname => ⟨(hb name hname).uncut, (hb name hname).folded_ne_nil⟩
  have htypes : (b.map Text.folded).map canonical = b.map typeOf := List.map_map
  rw [withText, Bool.or_eq_true, beq_iff_eq, List.all_eq_true, hnamesa, hoffers]
  constructor
  · rintro (hfolded | hoffered)
    · have hnames := names_eq_of_folded_eq hfolded
      rw [hnamesa, hnamesb] at hnames
      have htypesa : (a.map Text.folded).map canonical = a.map typeOf := List.map_map
      rw [← htypesa, hnames, htypes]
      exact fun t ht => ht
    · intro t ht
      obtain ⟨name, hname, rfl⟩ := List.mem_map.mp ht
      have hname_offered := isOffered_iff_canonical.mp (hoffered _ (List.mem_map_of_mem hname))
      rw [htypes, ← canonical_eq_anyType_iff] at hname_offered
      exact hname_offered.resolve_left (ha name hname).typeOf_ne_anyType
  · intro hsubset
    right
    intro folded hfolded
    obtain ⟨name, hname, rfl⟩ := List.mem_map.mp hfolded
    rw [isOffered_iff_canonical, htypes]
    exact .inr (hsubset _ (List.mem_map_of_mem hname))

/-- For entries, agreement with a collection is agreement with a cell in both directions. -/
theorem withCollection_iff_withText_both (hane : a ≠ []) (hbne : b ≠ []) (ha : ∀ name ∈ a, IsEntry name)
    (hb : ∀ name ∈ b, IsEntry name) :
    withCollection ([','].intercalate a) b = true ↔
      withText ([','].intercalate a) ([','].intercalate b) = true ∧
        withText ([','].intercalate b) ([','].intercalate a) = true := by
  rw [withCollection_intercalate_iff hane fun name hname => (ha name hname).uncut.no_comma,
    withText_intercalate_iff hane hbne ha hb, withText_intercalate_iff hbne hane hb ha,
    or_iff_right (anyType_not_mem_map_typeOf ha), or_iff_right (anyType_not_mem_map_typeOf hb)]
  exact ⟨fun h => ⟨fun t => (h t).mp, fun t => (h t).mpr⟩, fun h t => ⟨h.1 t, h.2 t⟩⟩

/-- A sigma that ends a word, both spellings of a number type, and an array type; a list with fewer types
agrees in one direction only and is refused. -/
theorem withCollection_iff_withText_both_of_sigma :
    ∃ a b c, a = ["ΟΔΟΣ".toList, "Real".toList, "text array".toList, "number".toList] ∧
      b = ["Text Array".toList, "Number".toList, "οδος".toList] ∧
      c = ["Text Array".toList, "Number".toList] ∧
      a ≠ [] ∧ b ≠ [] ∧ c ≠ [] ∧
      (∀ name ∈ a, IsEntry name) ∧ (∀ name ∈ b, IsEntry name) ∧ (∀ name ∈ c, IsEntry name) ∧
      withCollection ([','].intercalate a) b = true ∧
      withText ([','].intercalate a) ([','].intercalate b) = true ∧
      withText ([','].intercalate b) ([','].intercalate a) = true ∧
      withCollection ([','].intercalate c) b = false ∧
      withText ([','].intercalate c) ([','].intercalate b) = true ∧
      withText ([','].intercalate b) ([','].intercalate c) = false := by
  have hentry : ∀ name : Text, (name ≠ [] ∧ Text.trim name = name ∧ (',' ∉ name ∧ '/' ∉ name) ∧
      "or".toList ∉ Text.words (Text.folded name) ∧ Text.lowercase name ≠ anyType) → IsEntry name :=
    fun name ⟨hne, htrim, ⟨hcomma, hslash⟩, hor, hany⟩ =>
      ⟨hne, htrim, ⟨hcomma, hslash, fun h => hor h.mem_words⟩, hany⟩
  have ha : ∀ name ∈ ["ΟΔΟΣ".toList, "Real".toList, "text array".toList, "number".toList], IsEntry name :=
    fun name hname => hentry name (by revert name; decide +kernel)
  have hb : ∀ name ∈ ["Text Array".toList, "Number".toList, "οδος".toList], IsEntry name :=
    fun name hname => hentry name (by revert name; decide +kernel)
  have hc : ∀ name ∈ ["Text Array".toList, "Number".toList], IsEntry name :=
    fun name hname => hentry name (by revert name; decide +kernel)
  have hiff := withCollection_iff_withText_both (by decide) (by decide) ha hb
  have hother := withCollection_iff_withText_both (by decide) (by decide) hc hb
  have hagrees :
      withCollection ([','].intercalate ["ΟΔΟΣ".toList, "Real".toList, "text array".toList, "number".toList])
        ["Text Array".toList, "Number".toList, "οδος".toList] = true := by decide +kernel
  have hbehind : withText ([','].intercalate ["Text Array".toList, "Number".toList, "οδος".toList])
      ([','].intercalate ["Text Array".toList, "Number".toList]) = false := by decide +kernel
  have hrefused : withCollection ([','].intercalate ["Text Array".toList, "Number".toList])
      ["Text Array".toList, "Number".toList, "οδος".toList] = false := by
    rw [Bool.eq_false_iff]
    intro h
    rw [(hother.mp h).2] at hbehind
    cases hbehind
  exact ⟨_, _, _, rfl, rfl, rfl, by decide, by decide, by decide, ha, hb, hc, hagrees, (hiff.mp hagrees).1,
    (hiff.mp hagrees).2, hrefused, by decide +kernel, hbehind⟩

end Entries

end Agreement

end Synopsis
