import Synopsis.Proofs.MissingTypes

/-!
# Types in a clean variant

In a variant without issues every name that is followed by its colon and a type has that type, and a type
that is read is never the word for an unknown one, since that word is no type. What remains without a type
is a parameter whose name or colon stands before a token that no check looks for, such as the name of the
next parameter.
-/

namespace Synopsis

namespace Parameter

open Token (Site)

/-- What stands behind a name if it stays without a type and no check says so. -/
inductive LeftOpen : List Token → Prop
  | behindName {u : Token} {rest : List Token}
      (hu : u.kind ≠ .colon ∧ u.kind ≠ .semicolon ∧ u.kind ≠ .openBrace ∧ u.kind ≠ .closeBrace) :
      LeftOpen (u :: rest)
  | behindColon {u w : Token} {rest : List Token} (hu : u.kind = .colon)
      (hw : w.kind ≠ .typeName ∧ w.kind ≠ .colon ∧ w.kind ≠ .semicolon ∧ w.kind ≠ .closeBrace) :
      LeftOpen (u :: w :: rest)

theorem unknownType_not_isWellFormed : TypeName.isWellFormed unknownType = false := by decide

theorem isWellFormed_of_types_eq_nil {ts : List Token} (h : Structure.types ts = []) {t : Token} (ht : t ∈ ts)
    (hkind : t.kind = .typeName) : TypeName.isWellFormed t.value = true := by
  rw [Structure.types, List.map_eq_nil_iff, List.filter_eq_nil_iff] at h
  have hnot := h t ht
  simpa [hkind] using hnot

theorem lastType_ne_unknownType {ts : List Token} (h : Structure.types ts = []) {t : Token} {rest : List Token}
    (hmem : ∀ u ∈ t :: rest, u ∈ ts) (ht : t.kind = .typeName) :
    lastType true unknownType (t :: rest) ≠ unknownType := by
  have hknown : ∀ u ∈ t :: rest, u.kind = .typeName → u.value ≠ unknownType := by
    intro u hu hkind heq
    have hwell := isWellFormed_of_types_eq_nil h (hmem u hu) hkind
    rw [heq, unknownType_not_isWellFormed] at hwell
    cases hwell
  rw [lastType_of_typeName ht]
  rcases lastType_eq_or_mem false t.value rest with hvalue | ⟨u, hu, hkind, hvalue⟩
  · rw [hvalue]
    exact hknown t List.mem_cons_self ht
  · rw [hvalue]
    exact hknown u (List.mem_cons_of_mem t hu) hkind

theorem endsUntyped_of_not_isReported {s : Site} (hs : isReported s = false)
    (hstart : s.token.startsParameter = true) (hname : isPlaceholder s.token.parameterLabel = false) :
    endsUntyped s.after.head? = false := by
  by_contra hends
  have hreported : isReported s = true :=
    isReported_iff.mpr ⟨hstart, trim_ne_nil_of_not_isPlaceholder hname, by simpa using hends⟩
  rw [hs] at hreported
  cases hreported

theorem lastType_of_colon {u : Token} (hu : u.kind = .colon) (current : Text) (rest : List Token) :
    lastType false current (u :: rest) = lastType true current rest := by
  have hends : endsExtent u = false := by simp [endsExtent, Token.startsParameter, hu]
  rw [lastType_cons hends (by simp), hu]
  rfl

/-- Behind a name without a type stands a token that no check looks for, if no check finds anything. -/
theorem leftOpen_of_lastType {s : Site} (hs : isReported s = false) (hstart : s.token.startsParameter = true)
    (hname : isPlaceholder s.token.parameterLabel = false) (hcolons : Structure.colons none s.tokens = [])
    (htypes : Structure.types s.tokens = []) (htype : lastType false unknownType s.after = unknownType) :
    LeftOpen s.after := by
  have hends := endsUntyped_of_not_isReported hs hstart hname
  cases hafter : s.after with
  | nil =>
      rw [hafter] at hends
      cases hends
  | cons u rest =>
      by_cases hu : u.kind = .colon
      · have htokens : Site.tokens ⟨s.before ++ [s.token], u, rest⟩ = s.tokens := by simp [Site.tokens, hafter]
        rw [← htokens] at hcolons
        obtain ⟨w, rest', hrest, hkinds⟩ := Structure.exists_next_of_colon hu hcolons
        change rest = w :: rest' at hrest
        subst hrest
        refine .behindColon hu ⟨?_, hkinds⟩
        intro hw
        have hmem : ∀ v ∈ w :: rest', v ∈ s.tokens := by
          intro v hv
          rw [Site.tokens, hafter]
          exact List.mem_append_right _ (List.mem_cons_of_mem _ (List.mem_cons_of_mem _ hv))
        rw [hafter, lastType_of_colon hu] at htype
        exact lastType_ne_unknownType htypes hmem hw htype
      · have hkinds : (u.kind ≠ .semicolon ∧ u.kind ≠ .openBrace) ∧ u.kind ≠ .closeBrace := by
          rw [hafter] at hends
          simpa [endsUntyped] using hends
        exact .behindName ⟨hu, hkinds.1.1, hkinds.1.2, hkinds.2⟩

theorem operatorType_ne_unknownType : operatorType ≠ unknownType := by decide

theorem leftOpen_of_clean {ts : List Token} (hcolons : Structure.colons none ts = [])
    (htypes : Structure.types ts = []) (huntyped : untyped ts = []) {a : Started} (ha : a ∈ Started.ofTokens ts)
    (htype : a.parameter.type = unknownType) : LeftOpen a.site.after := by
  obtain ⟨rfl, hkind, hparameter⟩ := Started.declared_of_mem_ofTokens ha
  have hstart : a.site.token.startsParameter = true := by
    by_contra hstart
    rw [hparameter, ofSite, if_neg hstart] at htype
    exact operatorType_ne_unknownType htype
  have hname : isPlaceholder a.site.token.parameterLabel = false := by
    rcases hkind with ⟨-, hname⟩ | hoperator
    · rw [hparameter, ofSite, if_pos hstart] at hname
      exact hname
    · rcases Token.startsParameter_iff.mp hstart with hk | hk <;> simp [hk] at hoperator
  rw [hparameter, type_ofSite hstart] at htype
  exact leftOpen_of_lastType (not_isReported_of_untyped_eq_nil huntyped) hstart hname hcolons htypes htype

theorem type_eq_unknownType_of_next {ts : List Token} {a : Started} (ha : a ∈ Started.ofTokens ts)
    (hstart : a.site.token.startsParameter = true) {u : Token} (hnext : u ∈ a.site.after.head?)
    (hu : u.startsParameter = true) : a.parameter.type = unknownType := by
  have hends : endsExtent u = true := by simp [endsExtent, hu]
  rw [(Started.declared_of_mem_ofTokens ha).parameter, type_ofSite hstart]
  cases hafter : a.site.after with
  | nil =>
      rw [hafter] at hnext
      cases hnext
  | cons t rest =>
      rw [hafter] at hnext
      cases hnext
      exact lastType_of_endsExtent hends false unknownType rest

end Parameter

namespace Variant

open Parameter

def sectionTokens (v : Variant) : List Token :=
  match Enclosure.ofText v.sourceText with
  | .enclosed _ inside _ => tokens (Text.trim inside)
  | _ => []

theorem sourceText_ofText (policy : Policy) (t : Text) : (ofText policy t).sourceText = t := by
  unfold ofText
  split <;> rfl

theorem parameters_ofText (policy : Policy) (t : Text) :
    (ofText policy t).parameters = Parameter.ofTokens (ofText policy t).sectionTokens := by
  rw [sectionTokens, sourceText_ofText, ofText]
  cases Enclosure.ofText t <;> rfl

theorem issues_eq_nil_of_clean {policy : Policy} {t : Text} (h : (ofText policy t).malformation = none) :
    Structure.issues policy (ofText policy t).sectionTokens = [] ∧
      untyped (ofText policy t).sectionTokens = [] := by
  rw [sectionTokens, sourceText_ofText]
  unfold ofText at h
  split at h
  · next hform =>
      simp only [hform]
      exact ⟨rfl, rfl⟩
  · cases h
  · next head inside tail hform =>
      simp only [hform]
      have hissues := getD_malformationOf policy (tokens (Text.trim inside))
      rw [show malformationOf policy (tokens (Text.trim inside)) = none from h] at hissues
      exact List.append_eq_nil_iff.mp hissues.symm

/-- In a clean variant only a parameter that is left open has no type, and one whose name stands directly
before another name is. -/
theorem leftOpen_of_mem_parse {t : Text} {v : Variant} (h : v ∈ parse {} t) (hclean : v.malformation = none) :
    (Started.ofTokens v.sectionTokens).map Started.parameter = v.parameters ∧
      ∀ a ∈ Started.ofTokens v.sectionTokens,
        (a.parameter.type = unknownType → LeftOpen a.site.after) ∧
        (a.site.token.startsParameter = true → (∃ u ∈ a.site.after.head?, u.startsParameter = true) →
          a.parameter.type = unknownType) := by
  obtain ⟨piece, -, -, rfl⟩ := mem_parse_iff.mp h
  obtain ⟨hissues, huntyped⟩ := issues_eq_nil_of_clean hclean
  simp only [Structure.issues, List.append_eq_nil_iff] at hissues
  obtain ⟨⟨⟨-, hcolons⟩, -⟩, htypes⟩ := hissues
  refine ⟨?_, ?_⟩
  · rw [Started.map_parameter_ofTokens, parameters_ofText]
  · intro a ha
    refine ⟨leftOpen_of_clean hcolons htypes huntyped ha, ?_⟩
    rintro hstart ⟨u, hnext, hu⟩
    exact type_eq_unknownType_of_next ha hstart hnext hu

theorem exists_leftOpen_of_second_name :
    ∃ v ∈ parse {} "f(first second : Text)".toList, v.malformation = none ∧
      (Started.ofTokens v.sectionTokens).map Started.parameter = v.parameters ∧
      ∀ a ∈ Started.ofTokens v.sectionTokens,
        (a.parameter.type = unknownType → LeftOpen a.site.after) ∧
        (a.site.token.startsParameter = true → (∃ u ∈ a.site.after.head?, u.startsParameter = true) →
          a.parameter.type = unknownType) := by
  have h : ⟨"f(first second : Text)".toList, [⟨"first".toList, unknownType, false, false⟩,
      ⟨"second".toList, "Text".toList, false, false⟩], none, none⟩ ∈
        parse {} "f(first second : Text)".toList := by decide +kernel
  exact ⟨_, h, rfl, leftOpen_of_mem_parse h rfl⟩

/-- A name that stands before another name is clean and has no type. -/
theorem exists_clean_without_type :
    ∃ v ∈ parse {} "f(first second : Text)".toList, v.malformation = none ∧
      ⟨"first".toList, unknownType, false, false⟩ ∈ v.parameters := by
  decide +kernel

/-- A name before an asterisk that ends there, and a colon before a block, are not looked for either. -/
example :
    (∃ v ∈ parse {} "f(first * ; second : Text)".toList, v.malformation = none ∧
      ⟨"first".toList, unknownType, false, false⟩ ∈ v.parameters) ∧
    (∃ v ∈ parse {} "f(first : \x7b second : Text \x7d)".toList, v.malformation = none ∧
      ⟨"first".toList, unknownType, false, false⟩ ∈ v.parameters) := by
  decide +kernel

end Variant

end Synopsis
