import Mathlib.Data.List.Nodup
import Synopsis.Comparison
import Synopsis.Proofs.TextCase

/-!
# What a comparison takes from the table

A comparison looks rows up by name and direction. A name is extra when no row documents it, where the output
rows of the result document no parameter. Rows of unknown direction are never found, and where no two rows
answer one search, the order of the rows does not show.
-/

namespace Synopsis

namespace Comparison

open Text

def ofTable (rows : List Row) (v : Variant) : Comparison :=
  ofVariant rows (documentedNames rows) v

section ExtraNames

def checkedNames (v : Variant) : List Text :=
  (v.parameters.filter fun p => !p.spread && p.name != ['*']).map fun p => lowercase p.name

def isResultRow (r : Row) : Bool :=
  r.direction == .output && resultNames.contains r.folded

/-- Some row of known direction bears the name, and it is not one that documents the result. -/
def isDocumented (rows : List Row) (name : Text) : Bool :=
  rows.any fun r => r.isKnown && !isResultRow r && r.folded == name

def isContested (rows : List Row) (name : Text) : Bool :=
  resultNames.contains name && rows.any fun r => r.direction.isInput && r.folded == name

theorem lowercase_ne_asterisk (name : Text) : (lowercase name != ['*']) = (name != ['*']) := by
  rw [Bool.eq_iff_iff, bne_iff_ne, bne_iff_ne, Ne, lowercase_eq_mark_iff (by decide)]

theorem mem_documentedNames_iff {rows : List Row} {name : Text} :
    name ∈ documentedNames rows ↔
      name ∉ resultNames ∧ ∃ r ∈ rows, r.isKnown = true ∧ r.folded = name := by
  simp only [documentedNames, List.mem_map, List.mem_filter, Bool.and_eq_true, Bool.not_eq_true',
    ← Bool.not_eq_true, List.contains_iff_mem]
  constructor
  · rintro ⟨r, ⟨hr, hknown, hresult⟩, rfl⟩
    exact ⟨hresult, r, hr, hknown, rfl⟩
  · rintro ⟨hresult, r, hr, hknown, rfl⟩
    exact ⟨r, ⟨hr, hknown, hresult⟩, rfl⟩

theorem extra_ofTable (rows : List Row) (v : Variant) :
    (ofTable rows v).extra = (checkedNames v).filter fun name => !(documentedNames rows).contains name := by
  have hchecked : checkedNames v =
      ((v.parameters.filter fun p => !p.spread).map fun p => lowercase p.name).filter (· != ['*']) := by
    rw [checkedNames, List.filter_map, List.filter_filter]
    simp only [Function.comp_def, lowercase_ne_asterisk, Bool.and_comm]
  rw [hchecked, List.filter_filter]
  rfl

theorem isInput_of_known {r : Row} (hknown : r.isKnown = true) (houtput : r.direction ≠ .output) :
    r.direction.isInput = true := by
  cases hd : r.direction <;> simp_all [Row.isKnown, Direction.isInput]

theorem isKnown_of_isInput {r : Row} (h : r.direction.isInput = true) : r.isKnown = true := by
  cases hd : r.direction <;> simp_all [Row.isKnown, Direction.isInput]

theorem contains_documentedNames {rows : List Row} {name : Text} (h : isContested rows name = false) :
    (documentedNames rows).contains name = isDocumented rows name := by
  rw [Bool.eq_iff_iff, List.contains_iff_mem, mem_documentedNames_iff, isDocumented, List.any_eq_true]
  simp only [Bool.and_eq_true, Bool.not_eq_true', beq_iff_eq]
  constructor
  · rintro ⟨hresult, r, hr, hknown, rfl⟩
    refine ⟨r, hr, ⟨hknown, ?_⟩, rfl⟩
    simp [isResultRow, hresult]
  · rintro ⟨r, hr, ⟨hknown, hrow⟩, rfl⟩
    refine ⟨?_, r, hr, hknown, rfl⟩
    intro hresult
    have houtput : r.direction ≠ .output := by
      intro hd
      simp [isResultRow, hd, hresult] at hrow
    -- The name is one of the result, so the row would contest it.
    have hcontested : isContested rows r.folded = true := by
      rw [isContested, Bool.and_eq_true, List.contains_iff_mem, List.any_eq_true]
      exact ⟨hresult, r, hr, by simp [isInput_of_known hknown houtput]⟩
    rw [h] at hcontested
    cases hcontested

/-- Contested names apart, exactly the checked names that no row documents are extra, in their order and as
often as they occur; and no name of an input row is, unless it is one of the result. -/
theorem extra_iff_undocumented (rows : List Row) (v : Variant) :
    (ofTable rows v).extra.filter (fun name => !isContested rows name) =
        ((checkedNames v).filter fun name => !isDocumented rows name).filter
          (fun name => !isContested rows name) ∧
      ∀ r ∈ rows, r.direction.isInput = true → r.folded ∉ resultNames →
        r.folded ∉ (ofTable rows v).extra := by
  constructor
  · rw [extra_ofTable, List.filter_filter, List.filter_filter]
    refine List.filter_congr ?_
    intro name _
    cases hcontested : isContested rows name with
    | true => rfl
    | false => rw [contains_documentedNames hcontested]
  · intro r hr hinput hresult hextra
    rw [extra_ofTable, List.mem_filter] at hextra
    have hmem := mem_documentedNames_iff.mpr ⟨hresult, r, hr, isKnown_of_isInput hinput, rfl⟩
    simp [hmem] at hextra

/-- A known row, one of unknown direction, one of the result, and a name that is declared twice. -/
theorem extra_iff_undocumented_of_repeated_name :
    ∃ rows v r, rows = [r, ⟨"note".toList, "Text".toList, "=>".toList, []⟩,
        ⟨"Result".toList, "Object".toList, "<-".toList, []⟩] ∧
      r = ⟨"Value".toList, "Text".toList, "&#8594;".toList, []⟩ ∧
      v = Variant.ofText {} "f(VALUE : Text ; x ; note : Text ; * ; result : Text ; X ; ...y)".toList ∧
      (ofTable rows v).extra.filter (fun name => !isContested rows name) =
        ["x", "note", "result", "x"].map String.toList ∧
      r.direction.isInput = true ∧ r.folded ∉ resultNames ∧ r.folded ∉ (ofTable rows v).extra := by
  obtain ⟨hextra, hinput⟩ := extra_iff_undocumented
    [⟨"Value".toList, "Text".toList, "&#8594;".toList, []⟩, ⟨"note".toList, "Text".toList, "=>".toList, []⟩,
      ⟨"Result".toList, "Object".toList, "<-".toList, []⟩]
    (Variant.ofText {} "f(VALUE : Text ; x ; note : Text ; * ; result : Text ; X ; ...y)".toList)
  exact ⟨_, _, _, rfl, rfl, rfl, hextra.trans (by decide +kernel), by decide, by decide +kernel,
    hinput _ List.mem_cons_self (by decide) (by decide +kernel)⟩

/-- A parameter that is named like the result is extra though an output row of known direction has its name. -/
theorem exists_extra_of_result_row :
    ∃ rows v, rows = [⟨"Result".toList, "Text".toList, "<-".toList, []⟩] ∧
      v = Variant.ofText {} "f(result : Text)".toList ∧ (ofTable rows v).extra = ["result".toList] ∧
      (checkedNames v).filter (fun name => !rows.any fun r => r.isKnown && r.folded == name) = [] :=
  ⟨_, _, rfl, rfl, by decide +kernel, by decide +kernel⟩

end ExtraNames

section Layout

/-- No two rows answer the search for one parameter, and no two the search for the result. -/
structure Unambiguous (rows : List Row) (v : Variant) : Prop where
  inputs_nodup : ((rows.filter fun r => r.direction.isInput).map Row.folded).Nodup
  outputs_le_one : (rows.filter fun r => r.direction == .output &&
    (outputNames (v.returnType.bind ReturnType.name)).contains r.folded).length ≤ 1

/-- The table counts only through the names that it documents and the rows that are found in it. -/
theorem ofTable_congr {rows rows' : List Row} {v : Variant}
    (hnames : ∀ name, name ∈ documentedNames rows ↔ name ∈ documentedNames rows')
    (hinput : ∀ name, inputRow? name rows = inputRow? name rows')
    (houtput : outputRow? (v.returnType.bind ReturnType.name) rows =
      outputRow? (v.returnType.bind ReturnType.name) rows') : ofTable rows v = ofTable rows' v := by
  have hextra : (ofTable rows v).extra = (ofTable rows' v).extra := by
    have hcontains : ∀ name, (documentedNames rows).contains name = (documentedNames rows').contains name := by
      intro name
      rw [Bool.eq_iff_iff, List.contains_iff_mem, List.contains_iff_mem]
      exact hnames name
    rw [extra_ofTable, extra_ofTable]
    simp only [hcontains]
  have htypes : typeMismatches rows v = typeMismatches rows' v := by
    have hmismatch : typeMismatch? rows = typeMismatch? rows' := by
      funext p
      rw [typeMismatch?, hinput, ← typeMismatch?]
    rw [typeMismatches, hmismatch, ← typeMismatches]
  have hreturns : returnMismatches rows v = returnMismatches rows' v := by
    unfold returnMismatches
    cases hreturn : v.returnType with
    | none => rfl
    | some r =>
        obtain ⟨name, type⟩ := r
        rw [hreturn] at houtput
        cases type with
        | none => rfl
        | some type =>
            have hrow : outputRow? name rows = outputRow? name rows' := houtput
            simp only [hrow]
  have hofVariant :
      ∀ rows, ofTable rows v = ⟨(ofTable rows v).extra, typeMismatches rows v, returnMismatches rows v⟩ :=
    fun _ => rfl
  rw [hofVariant, hofVariant rows', hextra, htypes, hreturns]

theorem find?_filter_isKnown {p : Row → Bool} (hp : ∀ r, p r = true → r.isKnown = true) (rows : List Row) :
    (rows.filter Row.isKnown).find? p = rows.find? p := by
  rw [List.find?_filter]
  congr 1
  funext r
  cases hr : p r with
  | false => simp
  | true => simp [hp r hr]

theorem ofTable_filter_isKnown (rows : List Row) (v : Variant) :
    ofTable (rows.filter Row.isKnown) v = ofTable rows v := by
  apply ofTable_congr
  · intro name
    rw [mem_documentedNames_iff, mem_documentedNames_iff]
    simp only [List.mem_filter, and_assoc, and_self_left]
  · intro name
    refine find?_filter_isKnown ?_ rows
    intro r hr
    exact isKnown_of_isInput (Bool.and_eq_true_iff.mp hr).2
  · refine find?_filter_isKnown ?_ rows
    intro r hr
    have houtput : r.direction = .output := by simpa using (Bool.and_eq_true_iff.mp hr).1
    rw [Row.isKnown, houtput]
    rfl

theorem find?_eq_of_perm {α : Type} {p : α → Bool} {l l' : List α} (h : l.Perm l')
    (hle : (l.filter p).length ≤ 1) :
    l.find? p = l'.find? p := by
  have hfilter := h.filter p
  rw [← List.head?_filter, ← List.head?_filter]
  match hl : l.filter p with
  | [] =>
      rw [hl] at hfilter
      rw [List.nil_perm.mp hfilter]
  | [a] =>
      rw [hl] at hfilter
      rw [List.singleton_perm.mp hfilter]
  | a :: b :: rest => simp [hl] at hle

theorem length_filter_folded_le_one {rows : List Row}
    (h : ((rows.filter fun r => r.direction.isInput).map Row.folded).Nodup) (name : Text) :
    (rows.filter fun r => r.folded == name && r.direction.isInput).length ≤ 1 := by
  have hcount := List.nodup_iff_count_le_one.mp h name
  rwa [List.count, List.countP_map, List.countP_filter, List.countP_eq_length_filter] at hcount

theorem Unambiguous.ofTable_eq_of_perm {rows rows' : List Row} {v : Variant} (h : Unambiguous rows v)
    (hperm : rows.Perm rows') : ofTable rows v = ofTable rows' v := by
  apply ofTable_congr
  · intro name
    rw [mem_documentedNames_iff, mem_documentedNames_iff]
    simp only [hperm.mem_iff]
  · intro name
    exact find?_eq_of_perm hperm (length_filter_folded_le_one h.inputs_nodup _)
  · exact find?_eq_of_perm hperm h.outputs_le_one

/-- Two tables with the same known rows in the same order compare alike; and so do two tables with the same
rows in any order, if every search is answered by one row at most. -/
theorem ofTable_layout (rows rows' : List Row) (v : Variant) :
    (rows.filter Row.isKnown = rows'.filter Row.isKnown → ofTable rows v = ofTable rows' v) ∧
      (Unambiguous rows v → rows.Perm rows' → ofTable rows v = ofTable rows' v) := by
  refine ⟨?_, fun h hperm => h.ofTable_eq_of_perm hperm⟩
  intro hknown
  rw [← ofTable_filter_isKnown rows, hknown, ofTable_filter_isKnown]

/-- Rows of every direction, in two orders, and a table without the row of unknown direction. -/
theorem ofTable_layout_of_two_orders :
    let a : Row := ⟨"a".toList, "Text".toList, "->".toList, []⟩
    let b : Row := ⟨"B".toList, "Real, Text".toList, "<->".toList, []⟩
    let note : Row := ⟨"b".toList, "Date".toList, "".toList, []⟩
    let result : Row := ⟨"Function result".toList, "Object".toList, "<-".toList, []⟩
    let v := Variant.ofText {} "f(b : Number ; a : Integer ; c : Text) -> r : Text".toList
    Unambiguous [note, a, b, result] v ∧ ofTable [note, a, b, result] v = ofTable [result, b, note, a] v ∧
      ofTable [note, a, b, result] v = ofTable [a, b, result] v ∧
      ofTable [a, b, result] v = ⟨["c".toList], [⟨"a".toList, "Integer".toList, "Text".toList⟩],
        [⟨"r".toList, "Text".toList, "Object".toList⟩]⟩ := by
  intro a b note result v
  have h : Unambiguous [note, a, b, result] v := ⟨by decide +kernel, by decide +kernel⟩
  exact ⟨h, (ofTable_layout _ _ v).2 h (by decide), (ofTable_layout _ _ v).1 (by decide), by decide +kernel⟩

end Layout

end Comparison

end Synopsis
