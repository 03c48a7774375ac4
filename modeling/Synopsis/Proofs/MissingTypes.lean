import Synopsis.Proofs.ParameterStarts
import Synopsis.Proofs.VariantShape

/-!
# Missing types

Two checks look for parameters without a type. The one looks at the token directly behind a name and
reports where the parameter list cannot go on with a type; the other looks at the tokens around each
colon. A report of the first is right unless a colon that stands apart from any name brings a type after
all, and then the second reports that colon. Where neither finds anything, a parameter is without a type
only if its name, or its colon, is followed by a token that neither check looks for.
-/

namespace Synopsis

namespace Token

def sitesFrom (before : List Token) : List Token → List Site
  | [] => []
  | t :: rest => ⟨before, t, rest⟩ :: sitesFrom (before ++ [t]) rest

/-- Every token with what stands before it and behind it. -/
def sites (ts : List Token) : List Site :=
  sitesFrom [] ts

theorem tokens_of_mem_sitesFrom {s : Site} {before ts : List Token} (h : s ∈ sitesFrom before ts) :
    s.tokens = before ++ ts := by
  induction ts generalizing before with
  | nil => cases h
  | cons t rest ih =>
      rcases List.mem_cons.mp h with rfl | hrest
      · rfl
      · rw [ih hrest, List.append_assoc]
        rfl

theorem mem_sitesFrom (before between : List Token) (t : Token) (after : List Token) :
    ⟨before ++ between, t, after⟩ ∈ sitesFrom before (between ++ t :: after) := by
  induction between generalizing before with
  | nil =>
      rw [List.append_nil]
      exact List.mem_cons_self
  | cons u between ih =>
      have h := ih (before ++ [u])
      rw [List.append_assoc] at h
      exact List.mem_cons_of_mem _ h

theorem mem_sites_iff {s : Site} {ts : List Token} : s ∈ sites ts ↔ s.tokens = ts := by
  constructor
  · exact tokens_of_mem_sitesFrom
  · rintro rfl
    exact mem_sitesFrom [] s.before s.token s.after

theorem Site.token_mem_tokens (s : Site) : s.token ∈ s.tokens :=
  List.mem_append_right _ List.mem_cons_self

end Token

namespace Structure

open Token (Site)

def lastKind (previous : Option Token.Kind) (ts : List Token) : Option Token.Kind :=
  ts.foldl (fun _ t => some t.kind) previous

theorem mem_colons_append {i : Issue} {previous : Option Token.Kind} {before after : List Token}
    (h : i ∈ colons (lastKind previous before) after) : i ∈ colons previous (before ++ after) := by
  induction before generalizing previous with
  | nil => exact h
  | cons t before ih =>
      rw [List.cons_append, colons_cons]
      exact List.mem_append_right _ (ih h)

theorem mem_colons_of_mem_afterColon {s : Site} (hs : s.token.kind = .colon) {i : Issue}
    (h : i ∈ afterColon (s.after.head?.map Token.kind)) : i ∈ colons none s.tokens := by
  apply mem_colons_append
  rw [colons_cons, if_pos hs]
  exact List.mem_append_left _ (List.mem_append_right _ h)

theorem unexpectedColon_mem_colons {s : Site} (hs : s.token.kind = .colon)
    (h : ∀ k, lastKind none s.before = some k → k ≠ .parameterName ∧ k ≠ .spread) :
    .unexpectedColon ∈ colons none s.tokens := by
  have hnot : ¬ (lastKind none s.before = some .parameterName ∨ lastKind none s.before = some .spread) := by
    rintro (hk | hk)
    · exact (h _ hk).1 rfl
    · exact (h _ hk).2 rfl
  apply mem_colons_append
  rw [colons_cons, if_pos hs, if_neg hnot]
  exact List.mem_append_left _ (List.mem_append_left _ (List.mem_singleton.mpr rfl))

theorem lastKind_concat (previous : Option Token.Kind) (ts : List Token) (t : Token) :
    lastKind previous (ts ++ [t]) = some t.kind := by
  simp [lastKind]

theorem exists_kind_of_afterColon_eq_nil {next : Option Token.Kind} (h : afterColon next = []) :
    ∃ k, next = some k ∧ k ≠ .colon ∧ k ≠ .semicolon ∧ k ≠ .closeBrace := by
  unfold afterColon at h
  split at h
  · cases h
  · cases h
  · cases h
  · cases h
  · next k hcolon hsemicolon hbrace =>
      refine ⟨k, rfl, ?_, ?_, ?_⟩
      · rintro rfl
        exact hcolon rfl
      · rintro rfl
        exact hsemicolon rfl
      · rintro rfl
        exact hbrace rfl

theorem exists_next_of_colon {s : Site} (hs : s.token.kind = .colon) (h : colons none s.tokens = []) :
    ∃ w rest, s.after = w :: rest ∧ w.kind ≠ .colon ∧ w.kind ≠ .semicolon ∧ w.kind ≠ .closeBrace := by
  have hnext : afterColon (s.after.head?.map Token.kind) = [] := by
    rw [List.eq_nil_iff_forall_not_mem]
    intro i hi
    have hmem := mem_colons_of_mem_afterColon hs hi
    rw [h] at hmem
    cases hmem
  obtain ⟨k, hk, hkinds⟩ := exists_kind_of_afterColon_eq_nil hnext
  cases hafter : s.after with
  | nil =>
      rw [hafter] at hk
      cases hk
  | cons w rest =>
      rw [hafter] at hk
      cases hk
      exact ⟨w, rest, rfl, hkinds⟩

end Structure

namespace Parameter

open Token (Site)

/-- A name is reported as untyped when the list cannot go on with a type behind it. -/
def isReported (s : Site) : Bool :=
  s.token.startsParameter && !(Text.trim s.token.parameterLabel).isEmpty && endsUntyped s.after.head?

def reported (ts : List Token) : List Site :=
  (Token.sites ts).filter isReported

theorem isReported_iff {s : Site} : isReported s = true ↔ s.token.startsParameter = true ∧
    Text.trim s.token.parameterLabel ≠ [] ∧ endsUntyped s.after.head? = true := by
  simp [isReported, and_assoc]

theorem untyped_eq_map_sitesFrom (before ts : List Token) :
    untyped ts = ((Token.sitesFrom before ts).filter isReported).map
      fun s => .untypedParameter s.token.parameterLabel := by
  induction ts generalizing before with
  | nil => rfl
  | cons t rest ih =>
      rw [untyped_cons, ih (before ++ [t]), Token.sitesFrom, List.filter_cons, isReported]
      split
      · rfl
      · rfl

/-- There is one report for each site that is reported, in the order of the sites. -/
theorem untyped_eq_map_reported (ts : List Token) :
    untyped ts = (reported ts).map fun s => .untypedParameter s.token.parameterLabel :=
  untyped_eq_map_sitesFrom [] ts

theorem mem_reported_iff {s : Site} {ts : List Token} :
    s ∈ reported ts ↔ s.tokens = ts ∧ isReported s = true := by
  rw [reported, List.mem_filter, Token.mem_sites_iff]

theorem not_isReported_of_untyped_eq_nil {s : Site} (h : untyped s.tokens = []) : isReported s = false := by
  rw [untyped_eq_map_reported, List.map_eq_nil_iff] at h
  by_contra hs
  have hmem : s ∈ reported s.tokens := mem_reported_iff.mpr ⟨rfl, by simpa using hs⟩
  rw [h] at hmem
  cases hmem

theorem not_isPlaceholder_of_isWordChar {name : Text} (hword : ∀ c ∈ name, Token.isWordChar c = true)
    (hname : Text.trim name ≠ []) : isPlaceholder name = false := by
  have hmark : ∀ c : Char, Token.isWordChar c = false → Text.trim name ≠ [c] := by
    intro c hc heq
    have hmem : c ∈ name := (Text.isInfix_trim name).subset (heq ▸ List.mem_singleton.mpr rfl)
    rw [hword c hmem] at hc
    cases hc
  have hopen := hmark '{' (by decide)
  have hclose := hmark '}' (by decide)
  have hsemicolon := hmark ';' (by decide)
  simp [isPlaceholder, hname, hopen, hclose, hsemicolon]

theorem mem_typesIn {afterColon : Bool} {ts : List Token} {w : Text} (h : w ∈ typesIn afterColon ts) :
    ∃ t ∈ ts, t.kind = .typeName ∧ t.value = w := by
  induction ts generalizing afterColon with
  | nil => cases h
  | cons t rest ih =>
      rcases List.mem_append.mp h with hhere | hrest
      · split at hhere
        · next ht =>
            rw [Bool.and_eq_true_iff, beq_iff_eq] at ht
            exact ⟨t, List.mem_cons_self, ht.2, (List.mem_singleton.mp hhere).symm⟩
        · cases hhere
      · obtain ⟨u, hu, hkind, hvalue⟩ := ih hrest
        exact ⟨u, List.mem_cons_of_mem t hu, hkind, hvalue⟩

/-- A type that is found without a colon before the tokens has its colon among them. -/
theorem exists_colon_of_typesIn_ne_nil {ts : List Token} (h : typesIn false ts ≠ []) :
    ∃ between c rest, ts = between ++ c :: rest ∧ c.kind = .colon := by
  induction ts with
  | nil => exact absurd rfl h
  | cons t rest ih =>
      by_cases ht : t.kind = .colon
      · exact ⟨[], t, rest, rfl, ht⟩
      · have hcolon : (t.kind == .colon) = false := by simpa using ht
        rw [typesIn, hcolon] at h
        obtain ⟨between, c, rest', hrest, hc⟩ := ih h
        exact ⟨t :: between, c, rest', by rw [hrest]; rfl, hc⟩

theorem lastType_eq_or_mem (afterColon : Bool) (current : Text) (ts : List Token) :
    lastType afterColon current ts = current ∨
      ∃ t ∈ ts, t.kind = .typeName ∧ lastType afterColon current ts = t.value := by
  unfold lastType
  by_cases hnil : typesIn afterColon (extent ts) = []
  · rw [hnil]
    exact .inl rfl
  · right
    have hmem := List.getLast_mem hnil
    obtain ⟨t, ht, hkind, hvalue⟩ := mem_typesIn hmem
    refine ⟨t, (List.takeWhile_sublist _).subset ht, hkind, ?_⟩
    rw [hvalue, List.getLastD_eq_getLast?, List.getLast?_eq_some_getLast hnil, Option.getD_some]

theorem not_endsExtent_of_mem_extent {ts : List Token} {t : Token} (h : t ∈ extent ts) :
    endsExtent t = false := by
  have ht := List.mem_takeWhile_imp h
  simpa using ht

theorem extent_append (ts : List Token) : ∃ rest, ts = extent ts ++ rest :=
  ⟨ts.dropWhile fun t => !endsExtent t, List.takeWhile_append_dropWhile.symm⟩

/-- A type that comes after a brace has a colon that stands behind no name. -/
theorem unexpectedColon_of_typesIn {s : Site} {u : Token} {rest : List Token} (hafter : s.after = u :: rest)
    (hu : u.kind ≠ .colon) (htypes : typesIn false (extent s.after) ≠ []) :
    .unexpectedColon ∈ Structure.colons none s.tokens := by
  obtain ⟨between, c, within, hextent, hc⟩ := exists_colon_of_typesIn_ne_nil htypes
  obtain ⟨behind, hbehind⟩ := extent_append s.after
  rcases List.eq_nil_or_concat between with rfl | ⟨between, x, rfl⟩
  · rw [hextent, hafter] at hbehind
    have hcu : u = c := (List.cons.inj hbehind).1
    exact absurd (hcu ▸ hc) hu
  · have hmem : x ∈ extent s.after := by
      rw [hextent]
      simp
    have hx : endsExtent x = false := not_endsExtent_of_mem_extent hmem
    have hkinds : x.kind ≠ .parameterName ∧ x.kind ≠ .spread := by
      constructor
      · intro hk
        simp [endsExtent, Token.startsParameter, hk] at hx
      · intro hk
        simp [endsExtent, Token.startsParameter, hk] at hx
    have hcolon : Site.tokens ⟨s.before ++ (s.token :: (between ++ [x])), c, within ++ behind⟩ = s.tokens := by
      rw [hextent] at hbehind
      simp [Site.tokens, hbehind]
    rw [← hcolon]
    apply Structure.unexpectedColon_mem_colons hc
    intro k hk
    rw [← List.cons_append, ← List.append_assoc, Structure.lastKind_concat] at hk
    cases hk
    exact hkinds

theorem type_ofSite {s : Site} (hs : s.token.startsParameter = true) :
    (ofSite s).type = lastType false unknownType s.after := by
  rw [ofSite, if_pos hs]

theorem lastType_eq_unknownType_iff {ts : List Token} :
    lastType false unknownType ts = unknownType ↔
      ∀ w ∈ (typesIn false (extent ts)).getLast?, w = unknownType := by
  rw [lastType, List.getLastD_eq_getLast?]
  cases (typesIn false (extent ts)).getLast? with
  | none => simp
  | some w => simp

/-- Where a report is wrong, a brace stands behind the name and a misplaced colon behind the brace. -/
theorem brace_and_unexpectedColon_of_isReported {s : Site} (hs : isReported s = true)
    (htype : lastType false unknownType s.after ≠ unknownType) :
    (∃ u ∈ s.after.head?, u.kind = .openBrace ∨ u.kind = .closeBrace) ∧
      .unexpectedColon ∈ Structure.colons none s.tokens := by
  obtain ⟨-, -, hends⟩ := isReported_iff.mp hs
  have htypes : typesIn false (extent s.after) ≠ [] := by
    intro hnil
    rw [lastType, hnil] at htype
    exact htype rfl
  cases hafter : s.after with
  | nil =>
      rw [hafter] at htypes
      exact absurd rfl htypes
  | cons u rest =>
      have hbrace : u.kind = .openBrace ∨ u.kind = .closeBrace := by
        by_cases hsemicolon : u.kind = .semicolon
        · have hnil : typesIn false (extent s.after) = [] := by
            simp [hafter, extent, endsExtent, hsemicolon, typesIn]
          exact absurd hnil htypes
        · rw [hafter] at hends
          simpa [endsUntyped, hsemicolon] using hends
      have hu : u.kind ≠ .colon := by
        rcases hbrace with hk | hk <;> rw [hk] <;> decide
      exact ⟨⟨u, rfl, hbrace⟩, unexpectedColon_of_typesIn hafter hu htypes⟩

theorem exists_mem_ofTokens_of_mem_reported {text : Text} {s : Site} (h : s ∈ reported (Token.ofText text)) :
    ∃ a ∈ Started.ofTokens (Token.ofText text), a.site = s := by
  obtain ⟨htokens, hs⟩ := mem_reported_iff.mp h
  obtain ⟨hstart, hblank, -⟩ := isReported_iff.mp hs
  have hmem : s.token ∈ Token.ofText text := htokens ▸ s.token_mem_tokens
  have hword := isWordChar_of_mem_parameterLabel (Token.isWordChar_of_mem_scan hmem hstart)
  rw [← htokens]
  exact Started.exists_mem_ofTokens hstart (not_isPlaceholder_of_isWordChar hword hblank)

/-- A report of a missing type is right exactly when no colon brings the parameter a type all the same. Then a
brace stands behind the name, and the check of the colons reports the colon that brings the type. -/
theorem untyped_report_right_iff (text : Text) :
    untyped (Token.ofText text) =
        (reported (Token.ofText text)).map (fun s => .untypedParameter s.token.parameterLabel) ∧
      (Started.ofTokens (Token.ofText text)).map Started.parameter = ofTokens (Token.ofText text) ∧
      ∀ s ∈ reported (Token.ofText text),
        (∃ a ∈ Started.ofTokens (Token.ofText text), a.site = s) ∧
          ∀ a ∈ Started.ofTokens (Token.ofText text), a.site = s →
            (a.parameter.type = unknownType ↔
              ∀ w ∈ (typesIn false (extent s.after)).getLast?, w = unknownType) ∧
            (a.parameter.type ≠ unknownType →
              (∃ u ∈ s.after.head?, u.kind = .openBrace ∨ u.kind = .closeBrace) ∧
                .unexpectedColon ∈ Structure.colons none (Token.ofText text)) := by
  refine ⟨untyped_eq_map_reported _, Started.map_parameter_ofTokens _, ?_⟩
  intro s hs
  refine ⟨exists_mem_ofTokens_of_mem_reported hs, ?_⟩
  rintro a ha rfl
  obtain ⟨htokens, hreported⟩ := mem_reported_iff.mp hs
  obtain ⟨hstart, -, -⟩ := isReported_iff.mp hreported
  have htype : a.parameter.type = lastType false unknownType a.site.after := by
    rw [(Started.declared_of_mem_ofTokens ha).parameter, type_ofSite hstart]
  rw [htype, ← htokens]
  exact ⟨lastType_eq_unknownType_iff, brace_and_unexpectedColon_of_isReported hreported⟩

/-- A type inside the block goes to the parameter there, not to the name before the block. -/
theorem untyped_of_reported_before_block :
    (reported (Token.ofText "a \x7b b : Text \x7d ; ...c".toList)).map (fun s => s.token.value) =
        [['a'], "...c".toList] ∧
      ∀ s ∈ reported (Token.ofText "a \x7b b : Text \x7d ; ...c".toList),
        ∃ a ∈ Started.ofTokens (Token.ofText "a \x7b b : Text \x7d ; ...c".toList),
          a.site = s ∧ a.parameter.type = unknownType := by
  have htypes : ∀ s ∈ reported (Token.ofText "a \x7b b : Text \x7d ; ...c".toList),
      ∀ w ∈ (typesIn false (extent s.after)).getLast?, w = unknownType := by decide +kernel
  refine ⟨by decide +kernel, ?_⟩
  intro s hs
  obtain ⟨⟨a, ha, hsite⟩, hright⟩ := (untyped_report_right_iff _).2.2 s hs
  exact ⟨a, ha, hsite, (hright a ha hsite).1.mpr (htypes s hs)⟩

/-- A colon behind the brace brings the type that was reported as missing. -/
theorem exists_reported_typed :
    ∃ s ∈ reported (Token.ofText "a \x7b : Text \x7d".toList),
      ∃ a ∈ Started.ofTokens (Token.ofText "a \x7b : Text \x7d".toList),
        a.site = s ∧ a.parameter = ⟨['a'], "Text".toList, false, false⟩ := by
  decide +kernel

end Parameter

end Synopsis
