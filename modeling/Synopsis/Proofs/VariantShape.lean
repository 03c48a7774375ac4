import Synopsis.Proofs.ParameterSteps
import Synopsis.Proofs.StructureChecks
import Synopsis.Proofs.TokenScan
import Synopsis.Proofs.VariantSections

/-!
# The shape of every parsed variant

Reading cannot fail, so malformed notation is recorded and not refused. What is recorded has a shape all
the same: trimmed source texts, an issue list that is never empty, return types that declare something,
and parameters with a type and a readable name. An unterminated section is the one defect that stands
alone.
-/

namespace Synopsis

open Text

namespace Parameter

structure WellShaped (p : Parameter) : Prop where
  type_ne_nil : p.type ≠ []
  name : p = operator p.optional ∨ trim p.name ≠ [] ∧ ∀ c ∈ p.name, Token.isWordChar c = true

theorem unknownType_ne_nil : unknownType ≠ [] := by decide

theorem operatorType_ne_nil : operatorType ≠ [] := by decide

/-- What is known of a parameter that has begun, before its name is looked at. -/
def Nascent (pending : Option Parameter) : Prop :=
  ∀ p, pending = some p → p.type ≠ [] ∧ ∀ c ∈ p.name, Token.isWordChar c = true

theorem isWordChar_of_mem_parameterLabel {t : Token} (h : ∀ c ∈ t.value, Token.isWordChar c = true) :
    ∀ c ∈ t.parameterLabel, Token.isWordChar c = true := by
  intro c hc
  unfold Token.parameterLabel at hc
  split at hc
  · unfold dropLead at hc
    cases hafter : after? Token.ellipsis t.value with
    | none =>
        rw [hafter] at hc
        exact h c hc
    | some rest =>
        rw [hafter] at hc
        refine h c ?_
        rw [after?_eq_some_iff.mp hafter]
        exact List.mem_append_right _ hc
  · exact h c hc

theorem nascent_nextPending {t : Token} (hvalue : t.value ≠ [])
    (hword : t.startsParameter = true → ∀ c ∈ t.value, Token.isWordChar c = true) (depth : Int)
    (afterColon : Bool) {pending : Option Parameter} (h : Nascent pending) :
    Nascent (nextPending depth afterColon pending t) := by
  have hbegun : t.startsParameter = true → Nascent (some (begun depth t)) := by
    rintro hstart p hp
    cases hp
    exact ⟨unknownType_ne_nil, isWordChar_of_mem_parameterLabel (hword hstart)⟩
  unfold nextPending
  split
  · next hkind => exact hbegun (by simp [Token.startsParameter, hkind])
  · next hkind => exact hbegun (by simp [Token.startsParameter, hkind])
  · split
    · intro p hp
      obtain ⟨q, hq, rfl⟩ := Option.map_eq_some_iff.mp hp
      exact ⟨hvalue, (h q hq).2⟩
    · exact h
  · intro p hp
    cases hp
  · exact h

theorem wellShaped_of_mem_close {pending : Option Parameter} (h : Nascent pending) :
    ∀ p ∈ close pending, p.WellShaped := by
  intro p hp
  obtain ⟨hpending, hname⟩ := mem_close_iff.mp hp
  obtain ⟨htype, hword⟩ := h p hpending
  exact ⟨htype, .inr ⟨trim_ne_nil_of_not_isPlaceholder hname, hword⟩⟩

theorem wellShaped_operator (optional : Bool) : (operator optional).WellShaped :=
  ⟨operatorType_ne_nil, .inl rfl⟩

theorem wellShaped_of_mem_ofTokens {text : Text} {p : Parameter} (h : p ∈ ofTokens (Token.ofText text)) :
    p.WellShaped := by
  refine forall_mem_assemble (I := Nascent) ?_ (fun pending => wellShaped_of_mem_close) wellShaped_operator
    0 false none ?_ p h
  · intro t ht depth afterColon pending hpending
    exact nascent_nextPending (Token.value_ne_nil_of_mem_scan ht) (Token.isWordChar_of_mem_scan ht) depth
      afterColon hpending
  · intro q hq
    cases hq

end Parameter

namespace ReturnType

structure WellShaped (r : ReturnType) : Prop where
  declares : r.name ≠ none ∨ r.type ≠ none
  field : ∀ t, r.name = some t ∨ r.type = some t → t ≠ [] ∧ trim t = t

theorem nonempty_eq_some_iff {field : Option Text} {t : Text} :
    nonempty field = some t ↔ field = some t ∧ t ≠ [] := by
  simp [nonempty, Option.filter_eq_some_iff]

theorem ofParts_eq_some {name type : Option Text} {r : ReturnType} (h : ofParts name type = some r) :
    r.name = nonempty name ∧ r.type = nonempty type ∧ (r.name ≠ none ∨ r.type ≠ none) := by
  unfold ofParts at h
  split at h
  · cases h
  · next hnone =>
      cases h
      refine ⟨rfl, rfl, ?_⟩
      by_cases hname : nonempty name = none
      · exact .inr fun htype => hnone hname htype
      · exact .inl hname

theorem wellShaped_of_ofParts {name type : Option Token} {r : ReturnType}
    (h : ofParts (name.map trimmedValue) (type.map trimmedValue) = some r) : r.WellShaped := by
  obtain ⟨hname, htype, hdeclares⟩ := ofParts_eq_some h
  have hfield : ∀ (part : Option Token) (t : Text), nonempty (part.map trimmedValue) = some t →
      t ≠ [] ∧ trim t = t := by
    intro part t ht
    obtain ⟨hpart, hne⟩ := nonempty_eq_some_iff.mp ht
    obtain ⟨token, -, rfl⟩ := Option.map_eq_some_iff.mp hpart
    exact ⟨hne, trim_trim token.value⟩
  refine ⟨hdeclares, ?_⟩
  rintro t (ht | ht)
  · exact hfield name t (hname ▸ ht)
  · exact hfield type t (htype ▸ ht)

theorem wellShaped_of_ofTokens {ts : List Token} {r : ReturnType} (h : ofTokens ts = some r) :
    r.WellShaped := by
  cases ts with
  | nil => cases h
  | cons t rest =>
      rw [ofTokens] at h
      split at h
      · exact wellShaped_of_ofParts h
      · exact @wellShaped_of_ofParts none _ r h
      · cases h

end ReturnType

namespace Variant

open Enclosure

structure WellShaped (v : Variant) : Prop where
  sourceText_ne_nil : v.sourceText ≠ []
  sourceText_trimmed : trim v.sourceText = v.sourceText
  sourceText_uncut : ¬ separator <:+: v.sourceText
  malformation_ne_nil : v.malformation ≠ some []
  unterminated_alone : .missingClosingParenthesis ∈ v.malformation.getD [] →
    v.malformation = some [.missingClosingParenthesis] ∧ v.parameters = [] ∧ v.returnType = none
  unterminated_iff : .missingClosingParenthesis ∈ v.malformation.getD [] ↔ Unterminated v.sourceText
  property : '(' ∉ v.sourceText → v.parameters = [] ∧ v.returnType = none ∧ v.malformation = none
  returnType : ∀ r, v.returnType = some r → r.WellShaped
  parameters : ∀ p ∈ v.parameters, p.WellShaped

theorem malformationOf_ne_some_nil (policy : Policy) (ts : List Token) :
    malformationOf policy ts ≠ some [] := by
  unfold malformationOf
  split
  · simp
  · next hne => simpa using hne

theorem missingClosingParenthesis_not_mem (policy : Policy) (ts : List Token) :
    .missingClosingParenthesis ∉ (malformationOf policy ts).getD [] := by
  rw [getD_malformationOf]
  intro h
  exact Structure.kind_ne_missingClosingParenthesis h rfl

/-- A trimmed text without a mark in it is read into a variant of this shape, whichever of the three forms
it has. -/
theorem wellShaped_ofText (policy : Policy) {t : Text} (hne : t ≠ []) (htrim : trim t = t)
    (huncut : ¬ separator <:+: t) : WellShaped (ofText policy t) := by
  have hproperty := @ofText_eq_property_iff t
  have hunterminated := @ofText_eq_unterminated_iff t
  unfold ofText
  cases hform : Enclosure.ofText t with
  | property =>
      have hnot : ¬ Unterminated t := by simpa [hform] using hunterminated
      exact ⟨hne, htrim, huncut, by simp, by simp, by simpa using hnot, by simp, by simp, by simp⟩
  | unterminated =>
      have hopen : '(' ∈ t := by simpa [hform] using hproperty
      have hwithout : Unterminated t := hunterminated.mp hform
      exact ⟨hne, htrim, huncut, by simp, by simp, by simpa using hwithout, fun h => absurd hopen h,
        by simp, by simp⟩
  | enclosed head inside tail =>
      have hopen : '(' ∈ t := by simpa [hform] using hproperty
      have hnot : ¬ Unterminated t := by simpa [hform] using hunterminated
      have hmissing := missingClosingParenthesis_not_mem policy (tokens (trim inside))
      exact ⟨hne, htrim, huncut, malformationOf_ne_some_nil policy _, fun h => absurd h hmissing,
        ⟨fun h => absurd h hmissing, fun h => absurd h hnot⟩, fun h => absurd hopen h,
        fun r hr => ReturnType.wellShaped_of_ofTokens hr, fun p hp => Parameter.wellShaped_of_mem_ofTokens hp⟩

/-- Whatever the notation and the policy, every variant that is read has this shape. -/
theorem wellShaped_of_mem_parse {policy : Policy} {t : Text} {v : Variant} (h : v ∈ parse policy t) :
    WellShaped v := by
  obtain ⟨piece, hpiece, hne, rfl⟩ := mem_parse_iff.mp h
  refine wellShaped_ofText policy hne (trim_trim piece) ?_
  intro hsep
  exact not_separator_infix_of_mem_cut hpiece (hsep.trans (isInfix_trim piece))

theorem exists_wellShaped_of_unclosed_block :
    ∃ v ∈ parse ⟨true, false⟩ " <br/> f ( *a* : Text \x7b ; - ) -> r <br/>g (( ".toList,
      v.malformation = some [.unclosedOptionalBlock 1, .nonIdentifierName ['-'], .untypedParameter ['-']] ∧
        WellShaped v := by
  have h : ⟨"f ( *a* : Text \x7b ; - ) -> r".toList,
      [⟨['a'], "Text".toList, false, false⟩, ⟨['-'], "unknown".toList, true, false⟩],
      some ⟨some ['r'], none⟩,
      some [.unclosedOptionalBlock 1, .nonIdentifierName ['-'], .untypedParameter ['-']]⟩ ∈
        parse ⟨true, false⟩ " <br/> f ( *a* : Text \x7b ; - ) -> r <br/>g (( ".toList := by decide +kernel
  exact ⟨_, h, rfl, wellShaped_of_mem_parse h⟩

end Variant

end Synopsis
