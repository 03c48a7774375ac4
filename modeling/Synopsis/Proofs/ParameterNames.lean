import Synopsis.Proofs.DeclarationWords
import Synopsis.Proofs.MissingTypes
import Synopsis.Proofs.VariantLetters

/-!
# Names that are checked and names that are declared

The parameters that are no operators come from the sites whose token starts a parameter and whose label is no
placeholder, one from each and in their order. The checks of the names look at every token that starts a
parameter, so they agree with the parameters on reserved words, and on identifiers exactly when no label is
blank: for a blank label, as of three dots alone, an issue is reported though there is no parameter.
-/

namespace Synopsis

namespace Token

theorem map_token_sitesFrom (before ts : List Token) : (sitesFrom before ts).map Site.token = ts := by
  induction ts generalizing before with
  | nil => rfl
  | cons t rest ih => rw [sitesFrom, List.map_cons, ih]

end Token

namespace Parameter

open Token (Site)

def isOperator (p : Parameter) : Bool :=
  p == operator p.optional

def declaredNames (ts : List Token) : List Text :=
  ((ofTokens ts).filter fun p => !isOperator p).map name

def labels (ts : List Token) : List Text :=
  (ts.filter Token.startsParameter).map Token.parameterLabel

/-- A site that has a parameter with the label of its token. -/
def declares (s : Site) : Bool :=
  s.token.startsParameter && !isPlaceholder s.token.parameterLabel

namespace Started

/-- The sites of the parameters that are no operators. -/
def namedSites (as : List Started) : List Site :=
  (as.filter fun a => a.site.token.startsParameter).map site

theorem namedSites_append (as bs : List Started) : namedSites (as ++ bs) = namedSites as ++ namedSites bs := by
  simp [namedSites]

theorem namedSites_close_some (a : Started) :
    namedSites (close (some a)) =
      if a.site.token.startsParameter && !isPlaceholder a.parameter.name then [a.site] else [] := by
  cases hstart : a.site.token.startsParameter <;> cases hname : isPlaceholder a.parameter.name <;>
    simp [namedSites, close, Option.filter, hstart, hname]

/-- At one token, the parameter that has begun is put down or waits on, and the site of the token is added if it
declares one. -/
theorem namedSites_step (depth : Int) (afterColon : Bool) (pending : Option Started) (s : Site) :
    namedSites (emitted depth pending s) ++ namedSites (close (next depth afterColon pending s)) =
      namedSites (close pending) ++ if declares s then [s] else [] := by
  have hstarts : s.token.startsParameter = true → namedSites (close pending) ++
      namedSites (close (some ⟨s, begun depth s.token⟩)) =
        namedSites (close pending) ++ if declares s then [s] else [] := by
    intro hstart
    rw [namedSites_close_some]
    rfl
  have hother : s.token.startsParameter = false → (if declares s then [s] else []) = [] := by
    intro hstart
    simp [declares, hstart]
  cases hk : s.token.kind with
  | parameterName =>
      simp only [emitted, next, hk]
      exact hstarts (Token.startsParameter_iff.mpr (.inl hk))
  | spread =>
      simp only [emitted, next, hk]
      exact hstarts (Token.startsParameter_iff.mpr (.inr hk))
  | semicolon =>
      rw [hother (by simp [Token.startsParameter, hk])]
      simp [emitted, next, hk, close, namedSites]
  | typeName =>
      rw [hother (by simp [Token.startsParameter, hk]), List.append_nil]
      simp only [emitted, next, hk]
      split
      · cases pending with
        | none => rfl
        | some a =>
            rw [Option.map_some, namedSites_close_some, namedSites_close_some]
            rfl
      · rfl
  | _ =>
      have hstart : s.token.startsParameter = false := by simp [Token.startsParameter, hk]
      rw [hother hstart, List.append_nil]
      simp [emitted, next, hk, namedSites, hstart]

theorem namedSites_assemble (before : List Token) (depth : Int) (afterColon : Bool) (pending : Option Started)
    (ts : List Token) :
    namedSites (assemble before depth afterColon pending ts) =
      namedSites (close pending) ++ (Token.sitesFrom before ts).filter declares := by
  induction ts generalizing before depth afterColon pending with
  | nil => exact (List.append_nil _).symm
  | cons t rest ih =>
      rw [assemble, namedSites_append, ih, ← List.append_assoc, namedSites_step, Token.sitesFrom,
        List.filter_cons, List.append_assoc]
      split <;> rfl

/-- The parameters that are no operators stand in the order of the sites that declare them. -/
theorem namedSites_ofTokens (ts : List Token) : namedSites (ofTokens ts) = (Token.sites ts).filter declares :=
  namedSites_assemble [] 0 false none ts

theorem name_eq_parameterLabel {ts : List Token} {a : Started} (ha : a ∈ ofTokens ts)
    (hstart : a.site.token.startsParameter = true) : a.parameter.name = a.site.token.parameterLabel := by
  rw [(declared_of_mem_ofTokens ha).parameter, ofSite, if_pos hstart]
  rfl

theorem isOperator_parameter {text : Text} {a : Started} (ha : a ∈ ofTokens (Token.ofText text)) :
    (!isOperator a.parameter) = a.site.token.startsParameter := by
  have hdeclared := declared_of_mem_ofTokens ha
  cases hstart : a.site.token.startsParameter with
  | true =>
      have hmem : a.site.token ∈ Token.ofText text := hdeclared.tokens ▸ a.site.token_mem_tokens
      have hword := isWordChar_of_mem_parameterLabel (Token.isWordChar_of_mem_scan hmem hstart)
      rw [← name_eq_parameterLabel ha hstart] at hword
      by_contra hoperator
      have hname : a.parameter = operator a.parameter.optional := by simpa [isOperator] using hoperator
      rw [hname] at hword
      exact absurd (hword '*' List.mem_cons_self) (by decide)
  | false =>
      rw [hdeclared.parameter, ofSite, if_neg (by simp [hstart])]
      simp [isOperator, operator]

end Started

theorem labels_filter_eq_map_sites (ts : List Token) :
    (labels ts).filter (fun n => !isPlaceholder n) =
      ((Token.sites ts).filter declares).map fun s => s.token.parameterLabel := by
  have htokens : ts = (Token.sites ts).map Site.token := (Token.map_token_sitesFrom [] ts).symm
  have hlabels : labels ts = ((Token.sites ts).filter fun s => s.token.startsParameter).map
      fun s => s.token.parameterLabel := by
    conv_lhs => rw [labels, htokens]
    rw [List.filter_map, List.map_map]
    rfl
  rw [hlabels, List.filter_map, List.filter_filter]
  refine congrArg _ (List.filter_congr ?_)
  intro s hs
  exact Bool.and_comm _ _

theorem declaredNames_ofText_eq_map_sites (text : Text) :
    declaredNames (Token.ofText text) =
      ((Token.sites (Token.ofText text)).filter declares).map fun s => s.token.parameterLabel := by
  have hfilter : (Started.ofTokens (Token.ofText text)).filter ((fun p => !isOperator p) ∘ Started.parameter) =
      (Started.ofTokens (Token.ofText text)).filter fun a => a.site.token.startsParameter :=
    List.filter_congr fun a ha => Started.isOperator_parameter ha
  rw [declaredNames, ← Started.map_parameter_ofTokens, List.filter_map, List.map_map, hfilter,
    ← Started.namedSites_ofTokens, Started.namedSites, List.map_map]
  refine List.map_congr_left ?_
  intro a ha
  obtain ⟨hmem, hstart⟩ := List.mem_filter.mp ha
  exact Started.name_eq_parameterLabel hmem hstart

theorem isPlaceholder_parameterLabel {text : Text} {t : Token} (ht : t ∈ Token.ofText text)
    (hstart : t.startsParameter = true) :
    isPlaceholder t.parameterLabel = (Text.trim t.parameterLabel).isEmpty := by
  have hword := isWordChar_of_mem_parameterLabel (Token.isWordChar_of_mem_scan ht hstart)
  cases hname : isPlaceholder t.parameterLabel with
  | true =>
      by_contra hne
      have hnot := not_isPlaceholder_of_isWordChar hword (by simpa using hne)
      rw [hname] at hnot
      cases hnot
  | false => simp [trim_ne_nil_of_not_isPlaceholder hname]

theorem mem_labels_iff {ts : List Token} {n : Text} :
    n ∈ labels ts ↔ ∃ t ∈ ts, t.startsParameter = true ∧ t.parameterLabel = n := by
  simp [labels, and_assoc]

theorem declaredNames_ofText (text : Text) :
    declaredNames (Token.ofText text) =
      (labels (Token.ofText text)).filter fun n => !(Text.trim n).isEmpty := by
  rw [declaredNames_ofText_eq_map_sites, ← labels_filter_eq_map_sites]
  refine List.filter_congr ?_
  intro n hn
  obtain ⟨t, ht, hstart, rfl⟩ := mem_labels_iff.mp hn
  rw [isPlaceholder_parameterLabel ht hstart]

end Parameter

namespace Issue

def nonIdentifier? : Issue → Option Text
  | .nonIdentifierName name => some name
  | _ => none

def reserved? : Issue → Option Text
  | .reservedName name => some name
  | _ => none

end Issue

namespace Structure

open Parameter

theorem filterMap_issues {f : Issue → Option Text}
    (hf : ∀ i n, f i = some n → Check.ofKind? i.kind = some .names)
    (policy : Policy) (ts : List Token) : (issues policy ts).filterMap f = (names policy ts).filterMap f := by
  have hother : ∀ c : Check, c ≠ .names → (c.run policy ts).filterMap f = [] := by
    intro c hc
    rw [List.filterMap_eq_nil_iff]
    intro i hi
    rw [Option.eq_none_iff_forall_ne_some]
    intro n hn
    exact Check.not_of_mem_run (fun i => hf i n) hc hi hn
  rw [issues_eq_flatMap, List.filterMap_flatMap]
  simp only [List.flatMap_cons, List.flatMap_nil, hother, ne_eq, reduceCtorEq, not_false_eq_true,
    List.nil_append, List.append_nil]
  rfl

theorem filterMap_names {f : Issue → Option Text} {policy : Policy} {p : Text → Bool}
    (hf : ∀ n, (nameIssues policy n).filterMap f = if p n then [n] else []) (ts : List Token) :
    (names policy ts).filterMap f = (labels ts).filter p := by
  unfold names labels
  induction ts.filter Token.startsParameter with
  | nil => rfl
  | cons t rest ih =>
      rw [List.flatMap_cons, List.filterMap_append, ih, hf, List.map_cons, List.filter_cons]
      split <;> rfl

theorem filterMap_nonIdentifier?_issues (policy : Policy) (ts : List Token) :
    (issues policy ts).filterMap Issue.nonIdentifier? =
      (labels ts).filter fun n => policy.checkNames && !TypeName.isIdentifier n := by
  rw [filterMap_issues]
  · refine filterMap_names ?_ ts
    intro n
    unfold nameIssues
    split <;> split <;> rfl
  · intro i n hi
    cases i <;> first | rfl | cases hi

theorem filterMap_reserved?_issues (policy : Policy) (ts : List Token) :
    (issues policy ts).filterMap Issue.reserved? =
      (labels ts).filter fun n => policy.checkReserved && reservedWords.contains n := by
  rw [filterMap_issues]
  · refine filterMap_names ?_ ts
    intro n
    unfold nameIssues
    split <;> split <;> rfl
  · intro i n hi
    cases i <;> first | rfl | cases hi

theorem trim_ne_nil_of_isIdentifier {n : Text} (h : TypeName.isIdentifier n = true) : Text.trim n ≠ [] := by
  have hblank : ∀ c ∈ n, Text.isBlank c = false := fun c hc =>
    TypeName.not_isBlank_of_continuesIdentifier (TypeName.continuesIdentifier_of_isIdentifier h c hc)
  rw [Text.trim_eq_self_of_forall hblank]
  rintro rfl
  cases h

theorem trim_ne_nil_of_reserved {n : Text} (h : reservedWords.contains n = true) : Text.trim n ≠ [] := by
  have hall : (reservedWords.all fun w => !(Text.trim w).isEmpty) = true := by decide +kernel
  simpa using List.all_eq_true.mp hall n (List.contains_iff_mem.mp h)

end Structure

namespace Parameter

open Structure

/-- The reserved words that are reported are those among the declared names. The names that are reported as no
identifiers are those among the declared names and the blank labels, so they are the declared ones alone exactly
when no label is blank. -/
theorem name_issues_agree_iff (text : Text) (policy : Policy) :
    (policy.checkReserved = true →
      (issues policy (Token.ofText text)).filterMap Issue.reserved? =
        (declaredNames (Token.ofText text)).filter fun n => reservedWords.contains n) ∧
    (policy.checkNames = true →
      ((issues policy (Token.ofText text)).filterMap Issue.nonIdentifier?).filter
        (fun n => !(Text.trim n).isEmpty) =
        (declaredNames (Token.ofText text)).filter (fun n => !TypeName.isIdentifier n) ∧
      ((issues policy (Token.ofText text)).filterMap Issue.nonIdentifier? =
          (declaredNames (Token.ofText text)).filter (fun n => !TypeName.isIdentifier n) ↔
        ∀ t ∈ Token.ofText text, t.startsParameter = true → Text.trim t.parameterLabel ≠ [])) := by
  rw [declaredNames_ofText, filterMap_reserved?_issues, filterMap_nonIdentifier?_issues]
  constructor
  · intro hreserved
    rw [List.filter_filter]
    refine List.filter_congr ?_
    intro n hn
    cases hword : reservedWords.contains n with
    | true => simp [hreserved, trim_ne_nil_of_reserved hword]
    | false => simp
  · intro hnames
    have hfilter :
        (labels (Token.ofText text)).filter (fun n => policy.checkNames && !TypeName.isIdentifier n) =
          (labels (Token.ofText text)).filter fun n => !TypeName.isIdentifier n := by
      simp only [hnames, Bool.true_and]
    rw [hfilter, List.filter_filter, List.filter_filter]
    refine ⟨List.filter_congr fun n _ => Bool.and_comm _ _, ?_⟩
    constructor
    · intro hagree t ht hstart hblank
      have hnot : TypeName.isIdentifier t.parameterLabel = false := by
        by_contra hname
        exact trim_ne_nil_of_isIdentifier (by simpa using hname) hblank
      have hmem : t.parameterLabel ∈ (labels (Token.ofText text)).filter fun n => !TypeName.isIdentifier n :=
        List.mem_filter.mpr ⟨mem_labels_iff.mpr ⟨t, ht, hstart, rfl⟩, by simp [hnot]⟩
      rw [hagree, List.mem_filter] at hmem
      simp [hblank] at hmem
    · intro hlabels
      refine List.filter_congr ?_
      intro n hn
      obtain ⟨t, ht, hstart, rfl⟩ := mem_labels_iff.mp hn
      simp [hlabels t ht hstart]

/-- Spreads are checked by the names behind their dots, operators are not, and a blank is part of a name. -/
theorem name_issues_agree_of_spread :
    ∃ ts, ts = Token.ofText "...a-b : Text \x7b ; class : T ; \\* ; \u00A0x \x7d".toList ∧
      declaredNames ts = ["a-b".toList, "class".toList, "\u00A0x".toList] ∧
      (issues ⟨true, true⟩ ts).filterMap Issue.reserved? =
        (declaredNames ts).filter (fun n => reservedWords.contains n) ∧
      (issues ⟨true, true⟩ ts).filterMap Issue.nonIdentifier? =
        (declaredNames ts).filter (fun n => !TypeName.isIdentifier n) := by
  have hlabels : ∀ t ∈ Token.ofText "...a-b : Text \x7b ; class : T ; \\* ; \u00A0x \x7d".toList,
      t.startsParameter = true → Text.trim t.parameterLabel ≠ [] := by decide +kernel
  obtain ⟨hreserved, hnames⟩ := name_issues_agree_iff
    "...a-b : Text \x7b ; class : T ; \\* ; \u00A0x \x7d".toList ⟨true, true⟩
  exact ⟨_, rfl, by decide +kernel, hreserved rfl, (hnames rfl).2.mpr hlabels⟩

/-- Three dots alone are no parameter, but a name is reported for them. -/
theorem exists_name_issue_without_parameter :
    (issues ⟨true, false⟩ (Token.ofText "n1 : Real \x7b ; n2 : Real ; ... ; nN : Real \x7d".toList)).filterMap
        Issue.nonIdentifier? = [[]] ∧
      declaredNames (Token.ofText "n1 : Real \x7b ; n2 : Real ; ... ; nN : Real \x7d".toList) =
        ["n1".toList, "n2".toList, "nN".toList] ∧
      (declaredNames (Token.ofText "n1 : Real \x7b ; n2 : Real ; ... ; nN : Real \x7d".toList)).filter
        (fun n => !TypeName.isIdentifier n) = [] := by
  decide +kernel

end Parameter

end Synopsis
