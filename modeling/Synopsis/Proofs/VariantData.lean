import Synopsis.Proofs.BraceIssues
import Synopsis.Variant.Schema

/-!
# Variants written and read again

A variant can be written unless one of its issues holds a number of more digits than a text may have, and
what is written reads back as the variant, with every issue of the kind it had. An issue is told apart by
its id and its own field alone, so the level and the message that are written beside them may be anything.
Absent parts leave no trace and come back as absent, and an empty list of issues stays one. What was read
from a text can always be written, since its issues count no more braces than the text has characters.
-/

namespace Synopsis

open Reading

namespace Issue

def computed (i : Issue) : List (String × Value) :=
  [("level", .int i.level.number), ("message", .text i.wording)]

/-- The entries that tell an issue apart, with any others behind them. -/
def entriesWith (more : List (String × Value)) (i : Issue) : Entries :=
  ([("id", Value.text i.kind.id)] ++ i.ownField ++ more).map fun f => (.text f.1.toList, f.2)

/-- An issue written with entries of a choice in place of the computed ones. -/
def dumpWith (more : Issue → List (String × Value)) (i : Issue) : Value :=
  .object (i.entriesWith (more i))

theorem dumpWith_computed (i : Issue) : i.dumpWith computed = i.toValue := rfl

theorem field?_id_entriesWith (i : Issue) (more : List (String × Value)) :
    Value.field? (i.entriesWith more) "id".toList = some (.text i.kind.id) := by
  simp [entriesWith, Value.field?_cons]

theorem readAs_entriesWith (i : Issue) (more : List (String × Value)) :
    readAs (i.entriesWith more) i.kind = .ok i := by
  cases i with
  | unclosedOptionalBlock missing =>
    simp [readAs, kind, entriesWith, ownField, required, Value.field?_cons, whole]
  | nonIdentifierName name => simp [readAs, kind, entriesWith, ownField, required, Value.field?_cons, text]
  | reservedName name => simp [readAs, kind, entriesWith, ownField, required, Value.field?_cons, text]
  | invalidType typeName => simp [readAs, kind, entriesWith, ownField, required, Value.field?_cons, text]
  | untypedParameter name => simp [readAs, kind, entriesWith, ownField, required, Value.field?_cons, text]
  | _ => rfl

theorem read_dumpWith (more : Issue → List (String × Value)) (i : Issue) : read (i.dumpWith more) = .ok i := by
  simp only [read, dumpWith, field?_id_entriesWith, Kind.ofId?_id, readAs_entriesWith, under_ok]

theorem dump?_eq (i : Issue) : i.dump? = if i.isWritable then some i.toValue else none := by
  rw [dump?, message?]
  split <;> rfl

theorem mapM_dump? (issues : List Issue) :
    issues.mapM dump? = if issues.all isWritable then some (issues.map toValue) else none := by
  induction issues with
  | nil => rfl
  | cons i rest ih =>
      rw [List.mapM_cons, dump?_eq, ih, List.all_cons]
      by_cases hi : i.isWritable = true
      · by_cases hrest : rest.all isWritable = true
        · simp [hi, hrest]
        · simp [hi, hrest]
      · simp [hi]

theorem all_isWritable_iff {issues : List Issue} :
    issues.all isWritable = true ↔
      ∀ missing, unclosedOptionalBlock missing ∈ issues → missing.natAbs < Nat.pow 10 Text.maxDigits := by
  rw [List.all_eq_true]
  constructor
  · intro hall missing hmem
    exact Text.fits_iff.mp (hall (unclosedOptionalBlock missing) hmem)
  · intro hfits i hmem
    cases i with
    | unclosedOptionalBlock missing => exact Text.fits_iff.mpr (hfits missing hmem)
    | _ => rfl

end Issue

namespace Reading

variable {α : Type}

theorem list_map_eq_ok {read : Value → Reading α} {write : α → Value} (h : ∀ a, read (write a) = .ok a)
    (items : List α) : list read (.list (items.map write)) = .ok items :=
  eachItem_eq_ok h items 0

theorem nullable_record {read : Value → Reading α} {fields : List (String × Value)} {a : α}
    (h : read (.record fields) = .ok a) : nullable read (.record fields) = .ok (some a) := by
  unfold Value.record at h ⊢
  simp only [nullable, h, map_ok]

theorem nullable_list {read : Value → Reading α} {items : List Value} {a : α} (h : read (.list items) = .ok a) :
    nullable read (.list items) = .ok (some a) := by
  simp only [nullable, h, map_ok]

end Reading

namespace Variant

/-- A variant written with any entries behind those that tell its issues apart. -/
def dumpWith (more : Issue → List (String × Value)) (v : Variant) : Value :=
  v.recordWith (v.malformation.map fun issues => issues.map (Issue.dumpWith more))

theorem dumpWith_computed (v : Variant) : v.dumpWith Issue.computed = v.toValue := rfl

theorem read_dumpWith (more : Issue → List (String × Value)) (v : Variant) :
    read (v.dumpWith more) = .ok v := by
  obtain ⟨sourceText, parameters, returnType, malformation⟩ := v
  have hparameters := list_map_eq_ok Parameter.read_dump parameters
  have hreturn : ∀ r : ReturnType, nullable ReturnType.read r.dump = .ok (some r) := fun r =>
    nullable_record (ReturnType.read_dump r)
  have hissues : ∀ issues : List Issue,
      nullable (list Issue.read) (.list (issues.map (Issue.dumpWith more))) = .ok (some issues) := fun issues =>
    nullable_list (list_map_eq_ok (Issue.read_dumpWith more) issues)
  rcases returnType with _ | r <;> rcases malformation with _ | issues <;>
    simp [read, dumpWith, recordWith, record, Value.record, presentField, required, defaulted,
      Value.field?_cons, text, hparameters, hreturn, hissues]

theorem dump?_eq (v : Variant) :
    v.dump? = if (v.malformation.getD []).all Issue.isWritable then some v.toValue else none := by
  rw [dump?]
  cases hissues : v.malformation with
  | none => simp [toValue, hissues]
  | some issues =>
      rw [Option.mapM_some, Issue.mapM_dump?, Option.getD_some]
      split <;> simp [toValue, hissues]

theorem exists_dump_iff {v : Variant} :
    (∃ dumped, v.dump? = some dumped) ↔
      ∀ missing, .unclosedOptionalBlock missing ∈ v.malformation.getD [] →
        missing.natAbs < Nat.pow 10 Text.maxDigits := by
  rw [← Issue.all_isWritable_iff, dump?_eq]
  by_cases hwritable : (v.malformation.getD []).all Issue.isWritable = true
  · simp [hwritable]
  · simp [hwritable]

/-- A variant is written exactly if none of its issues holds a number of too many digits, and what is
written reads back as the variant. The level and the message of an issue play no part in that: they may be
left out or replaced. -/
theorem read_undoes_dump (v : Variant) :
    ((∃ dumped, v.dump? = some dumped) ↔
      ∀ missing, .unclosedOptionalBlock missing ∈ v.malformation.getD [] →
        missing.natAbs < Nat.pow 10 Text.maxDigits) ∧
      (∀ dumped, v.dump? = some dumped → dumped = v.dumpWith Issue.computed ∧ read dumped = .ok v) ∧
      ∀ more : Issue → List (String × Value), read (v.dumpWith more) = .ok v := by
  refine ⟨exists_dump_iff, ?_, fun more => read_dumpWith more v⟩
  intro dumped hdumped
  rw [dump?_eq] at hdumped
  split at hdumped
  · cases hdumped
    exact ⟨v.dumpWith_computed.symm, read_dumpWith Issue.computed v⟩
  · cases hdumped

/-- The longest number that can be written, a negative one, an empty name, and a name that is that of a
field. -/
theorem read_undoes_dump_of_longest_number :
    ∃ v dumped,
      v = (⟨"f(\x7b a".toList, [⟨"a".toList, unknownType, true, false⟩], some ⟨none, some "Text".toList⟩,
        some [.unclosedOptionalBlock (Nat.pow 10 Text.maxDigits - 1 : Nat), .unclosedOptionalBlock (-1),
          .reservedName [], .invalidType "name".toList]⟩ : Variant) ∧
      v.dump? = some dumped ∧ read dumped = .ok v := by
  obtain ⟨v, hv⟩ : ∃ v, v = (⟨"f(\x7b a".toList, [⟨"a".toList, unknownType, true, false⟩],
      some ⟨none, some "Text".toList⟩, some [.unclosedOptionalBlock (Nat.pow 10 Text.maxDigits - 1 : Nat),
        .unclosedOptionalBlock (-1), .reservedName [], .invalidType "name".toList]⟩ : Variant) := ⟨_, rfl⟩
  have hfits : ∀ missing, .unclosedOptionalBlock missing ∈ v.malformation.getD [] →
      missing.natAbs < Nat.pow 10 Text.maxDigits := by
    have hpower : ∀ digits, digits ≠ 0 → 1 < Nat.pow 10 digits := fun digits h => Nat.one_lt_pow h (by decide)
    have hbound := hpower Text.maxDigits (by decide)
    intro missing hmissing
    rw [hv] at hmissing
    generalize Nat.pow 10 Text.maxDigits = bound at hbound hmissing ⊢
    have hcases : missing = (bound - 1 : Nat) ∨ missing = -1 := by simpa using hmissing
    omega
  obtain ⟨hexists, hread, -⟩ := read_undoes_dump v
  obtain ⟨dumped, hdumped⟩ := hexists.mpr hfits
  exact ⟨v, dumped, hv, hdumped, (hread dumped hdumped).2⟩

/-- A number with one digit more than a text may have has no message, so nothing is written. -/
theorem no_dump_of_too_many_digits :
    dump? ⟨"f(\x7b".toList, [], none, some [.unclosedOptionalBlock (Nat.pow 10 Text.maxDigits : Nat)]⟩ =
      none := by
  rw [dump?_eq, if_neg]
  intro hwritable
  have hfits := Issue.all_isWritable_iff.mp hwritable (Nat.pow 10 Text.maxDigits : Nat) List.mem_cons_self
  rw [Int.natAbs_natCast] at hfits
  exact Nat.lt_irrefl _ hfits

/-- What is read from a text can be written, unless even the number of its characters has no text. -/
theorem dump?_of_mem_parse {policy : Policy} {t : Text} {v : Variant} (h : v ∈ parse policy t)
    (ht : t.length < Nat.pow 10 Text.maxDigits) :
    v.dump? = some v.toValue ∧ ∀ i ∈ v.malformation.getD [], i.message? = some i.wording := by
  have hwritable : (v.malformation.getD []).all Issue.isWritable = true := by
    rw [Issue.all_isWritable_iff]
    intro missing hmissing
    exact (natAbs_le_length_of_mem_parse h hmissing).trans_lt ht
  refine ⟨by rw [dump?_eq, if_pos hwritable], fun i hi => ?_⟩
  rw [Issue.message?, if_pos (List.all_eq_true.mp hwritable i hi)]

end Variant

end Synopsis
