import Synopsis.Parameter
import Synopsis.Structure

/-!
# The checks one token at a time

Each check of the structure, and the check for types, walks over the tokens and reports issues of kinds
of its own. So the kind of an issue tells the check that found it, and none of them reports a section
that does not end.
-/

namespace Synopsis

namespace Structure

/-- The number of open braces after a token; a brace that closes nothing leaves none open. -/
def clampedDepth (depth : Nat) (t : Token) : Nat :=
  match t.kind with
  | .openBrace => depth + 1
  | .closeBrace => depth - 1
  | _ => depth

theorem braces_nil (depth : Nat) :
    braces depth [] = if depth = 0 then [] else [.unclosedOptionalBlock depth] := by
  cases depth with
  | zero => rfl
  | succ depth => simp [braces]

theorem braces_cons (depth : Nat) (t : Token) (rest : List Token) :
    braces depth (t :: rest) =
      (if t.kind = .closeBrace ∧ depth = 0 then [.extraClosingBrace] else []) ++
        braces (clampedDepth depth t) rest := by
  obtain ⟨k, value, offset⟩ := t
  cases depth <;> cases k <;> rfl

theorem doubleSemicolons_cons (t : Token) (rest : List Token) :
    doubleSemicolons (t :: rest) =
      (if t.kind = .semicolon ∧ rest.head?.map Token.kind = some .semicolon then [.doubleSemicolon] else []) ++
        doubleSemicolons rest := rfl

theorem emptyParameters_eq_doubleSemicolons {ts : List Token}
    (h : ts.head?.map Token.kind ≠ some .semicolon) : emptyParameters ts = doubleSemicolons ts := by
  cases ts with
  | nil => rfl
  | cons t rest =>
      have hkind : t.kind ≠ .semicolon := by simpa using h
      simp [emptyParameters, doubleSemicolons_cons, hkind]

theorem colons_cons (previous : Option Token.Kind) (t : Token) (rest : List Token) :
    colons previous (t :: rest) =
      (if t.kind = .colon then
        (if previous = some .parameterName ∨ previous = some .spread then [] else [.unexpectedColon]) ++
          afterColon (rest.head?.map Token.kind)
      else []) ++ colons (some t.kind) rest := rfl

theorem kind_of_mem_braces {depth : Nat} {ts : List Token} {i : Issue} (h : i ∈ braces depth ts) :
    i.kind = .extraClosingBrace ∨ i.kind = .unclosedOptionalBlock := by
  induction ts generalizing depth with
  | nil =>
      rw [braces_nil] at h
      split at h
      · cases h
      · rw [List.mem_singleton.mp h]
        exact .inr rfl
  | cons t rest ih =>
      rw [braces_cons] at h
      rcases List.mem_append.mp h with hhere | hrest
      · split at hhere
        · rw [List.mem_singleton.mp hhere]
          exact .inl rfl
        · cases hhere
      · exact ih hrest

theorem kind_of_mem_doubleSemicolons {ts : List Token} {i : Issue} (h : i ∈ doubleSemicolons ts) :
    i.kind = .doubleSemicolon := by
  induction ts with
  | nil => cases h
  | cons t rest ih =>
      rw [doubleSemicolons_cons] at h
      rcases List.mem_append.mp h with hhere | hrest
      · split at hhere
        · rw [List.mem_singleton.mp hhere]
          rfl
        · cases hhere
      · exact ih hrest

theorem kind_of_mem_emptyParameters {ts : List Token} {i : Issue} (h : i ∈ emptyParameters ts) :
    i.kind = .doubleSemicolon ∨ i.kind = .leadingSemicolon := by
  by_cases hhead : ts.head?.map Token.kind = some .semicolon
  · cases ts with
    | nil => cases h
    | cons t rest =>
        have hkind : t.kind = .semicolon := by simpa using hhead
        rw [emptyParameters, if_pos hkind] at h
        rcases List.mem_append.mp h with hhere | hrest
        · split at hhere
          · rw [List.mem_singleton.mp hhere]
            exact .inl rfl
          · cases hhere
        · rcases List.mem_cons.mp hrest with rfl | hrest
          · exact .inr rfl
          · exact .inl (kind_of_mem_doubleSemicolons hrest)
  · rw [emptyParameters_eq_doubleSemicolons hhead] at h
    exact .inl (kind_of_mem_doubleSemicolons h)

theorem kind_of_mem_afterColon {next : Option Token.Kind} {i : Issue} (h : i ∈ afterColon next) :
    i.kind = .doubleColon ∨ i.kind = .semicolonAfterColon ∨
      i.kind = .braceAfterColon ∨ i.kind = .emptyType := by
  unfold afterColon at h
  split at h
  · rw [List.mem_singleton.mp h]
    exact .inl rfl
  · rw [List.mem_singleton.mp h]
    exact .inr (.inl rfl)
  · rw [List.mem_singleton.mp h]
    exact .inr (.inr (.inl rfl))
  · rw [List.mem_singleton.mp h]
    exact .inr (.inr (.inr rfl))
  · cases h

theorem kind_of_mem_colons {previous : Option Token.Kind} {ts : List Token} {i : Issue}
    (h : i ∈ colons previous ts) :
    i.kind = .unexpectedColon ∨ i.kind = .doubleColon ∨ i.kind = .semicolonAfterColon ∨
      i.kind = .braceAfterColon ∨ i.kind = .emptyType := by
  induction ts generalizing previous with
  | nil => cases h
  | cons t rest ih =>
      rw [colons_cons] at h
      rcases List.mem_append.mp h with hhere | hrest
      · split at hhere
        · rcases List.mem_append.mp hhere with hbefore | hafter
          · split at hbefore
            · cases hbefore
            · rw [List.mem_singleton.mp hbefore]
              exact .inl rfl
          · exact .inr (kind_of_mem_afterColon hafter)
        · cases hhere
      · exact ih hrest

theorem kind_of_mem_nameIssues {policy : Policy} {name : Text} {i : Issue} (h : i ∈ nameIssues policy name) :
    i.kind = .nonIdentifierName ∨ i.kind = .reservedName := by
  rcases List.mem_append.mp h with hname | hreserved
  · split at hname
    · rw [List.mem_singleton.mp hname]
      exact .inl rfl
    · cases hname
  · split at hreserved
    · rw [List.mem_singleton.mp hreserved]
      exact .inr rfl
    · cases hreserved

theorem kind_of_mem_names {policy : Policy} {ts : List Token} {i : Issue} (h : i ∈ names policy ts) :
    i.kind = .nonIdentifierName ∨ i.kind = .reservedName := by
  obtain ⟨t, -, hi⟩ := List.mem_flatMap.mp h
  exact kind_of_mem_nameIssues hi

theorem kind_of_mem_types {ts : List Token} {i : Issue} (h : i ∈ types ts) : i.kind = .invalidType := by
  obtain ⟨t, -, rfl⟩ := List.mem_map.mp h
  rfl

end Structure

namespace Parameter

theorem untyped_cons (t : Token) (rest : List Token) :
    untyped (t :: rest) =
      (if t.startsParameter && !(Text.trim t.parameterLabel).isEmpty && endsUntyped rest.head? then
        [.untypedParameter t.parameterLabel] else []) ++ untyped rest := by
  rw [untyped]
  split <;> rfl

theorem kind_of_mem_untyped {ts : List Token} {i : Issue} (h : i ∈ untyped ts) :
    i.kind = .untypedParameter := by
  induction ts with
  | nil => cases h
  | cons t rest ih =>
      rw [untyped_cons] at h
      rcases List.mem_append.mp h with hhere | hrest
      · split at hhere
        · rw [List.mem_singleton.mp hhere]
          rfl
        · cases hhere
      · exact ih hrest

end Parameter

namespace Structure

inductive Check where
  | braces
  | emptyParameters
  | colons
  | names
  | types
  | untyped
  deriving DecidableEq

namespace Check

/-- The checks in the order in which they report. -/
def all : List Check :=
  [.braces, .emptyParameters, .colons, .names, .types, .untyped]

def run (policy : Policy) (ts : List Token) : Check → List Issue
  | .braces => Structure.braces 0 ts
  | .emptyParameters => Structure.emptyParameters ts
  | .colons => Structure.colons none ts
  | .names => Structure.names policy ts
  | .types => Structure.types ts
  | .untyped => Parameter.untyped ts

/-- The check that reports issues of a kind. -/
def ofKind? : Issue.Kind → Option Check
  | .missingClosingParenthesis => none
  | .unclosedOptionalBlock | .extraClosingBrace => some .braces
  | .doubleSemicolon | .leadingSemicolon => some .emptyParameters
  | .unexpectedColon | .doubleColon | .semicolonAfterColon | .braceAfterColon | .emptyType => some .colons
  | .nonIdentifierName | .reservedName => some .names
  | .invalidType => some .types
  | .untypedParameter => some .untyped

theorem ofKind?_of_mem_run {policy : Policy} {ts : List Token} {c : Check} {i : Issue}
    (h : i ∈ c.run policy ts) :
    ofKind? i.kind = some c := by
  cases c with
  | braces => rcases kind_of_mem_braces h with hk | hk <;> rw [hk] <;> rfl
  | emptyParameters => rcases kind_of_mem_emptyParameters h with hk | hk <;> rw [hk] <;> rfl
  | colons => rcases kind_of_mem_colons h with hk | hk | hk | hk | hk <;> rw [hk] <;> rfl
  | names => rcases kind_of_mem_names h with hk | hk <;> rw [hk] <;> rfl
  | types => rw [kind_of_mem_types h]; rfl
  | untyped => rw [Parameter.kind_of_mem_untyped h]; rfl

/-- What only one check reports, no other does. -/
theorem not_of_mem_run {p : Issue → Prop} {c d : Check} (hp : ∀ i, p i → ofKind? i.kind = some c)
    (hne : d ≠ c) {policy : Policy} {ts : List Token} {i : Issue} (hi : i ∈ d.run policy ts) : ¬ p i := by
  intro hpi
  have hcheck := hp i hpi
  rw [ofKind?_of_mem_run hi] at hcheck
  exact hne (Option.some.inj hcheck)

end Check

theorem issues_eq_flatMap (policy : Policy) (ts : List Token) :
    issues policy ts = [.braces, .emptyParameters, .colons, .names, .types].flatMap (Check.run policy ts) := by
  simp [issues, Check.run]

theorem issues_append_untyped (policy : Policy) (ts : List Token) :
    issues policy ts ++ Parameter.untyped ts = Check.all.flatMap (Check.run policy ts) := by
  simp [issues, Check.all, Check.run]

/-- A question about the kinds of one check is answered by what that check reports. -/
theorem filter_issues_of_check {p : Issue → Bool} {c : Check}
    (hp : ∀ i, p i = true → Check.ofKind? i.kind = some c) (policy : Policy) (ts : List Token) :
    (issues policy ts ++ Parameter.untyped ts).filter p = (c.run policy ts).filter p := by
  have hother : ∀ d : Check, d ≠ c → (d.run policy ts).filter p = [] := by
    intro d hne
    rw [List.filter_eq_nil_iff]
    exact fun i hi => Check.not_of_mem_run hp hne hi
  rw [issues_append_untyped, List.filter_flatMap]
  cases c <;> simp [Check.all, hother]

theorem filter_issues_of_kind {k : Issue.Kind} {c : Check} (hk : Check.ofKind? k = some c) (policy : Policy)
    (ts : List Token) :
    (issues policy ts ++ Parameter.untyped ts).filter (fun i => i.kind == k) =
      (c.run policy ts).filter fun i => i.kind == k := by
  apply filter_issues_of_check
  intro i hi
  rw [beq_iff_eq.mp hi, hk]

/-- A missing parenthesis is no matter of the tokens. -/
theorem kind_ne_missingClosingParenthesis {policy : Policy} {ts : List Token} {i : Issue}
    (h : i ∈ issues policy ts ++ Parameter.untyped ts) : i.kind ≠ .missingClosingParenthesis := by
  rw [issues_append_untyped] at h
  obtain ⟨c, -, hi⟩ := List.mem_flatMap.mp h
  have hcheck := Check.ofKind?_of_mem_run hi
  intro hkind
  rw [hkind] at hcheck
  cases hcheck

end Structure

end Synopsis
