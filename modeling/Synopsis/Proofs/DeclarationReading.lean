import Synopsis.Proofs.DeclarationTokens

/-!
# Reading the tokens of a declaration

The tokens of items make a tidy stream: blocks are closed, and every name has its colon and its type. The
checks find no issue in a tidy stream, and the assembly of parameters gives the parameters of the items,
those of a block as optional ones.
-/

namespace Synopsis

namespace Item

open Token Declaration

/-- The tokens of items, with `depth` blocks open before them. -/
inductive Tidy : (depth : Nat) → List Token → Prop
  | nil : Tidy 0 []
  | openBrace {depth : Nat} {ts : List Token} (h : Tidy (depth + 1) ts) :
      Tidy depth (⟨.openBrace, ['{'], 0⟩ :: ts)
  | closeBrace {depth : Nat} {ts : List Token} (h : Tidy depth ts) :
      Tidy (depth + 1) (⟨.closeBrace, ['}'], 0⟩ :: ts)
  | parameter {depth : Nat} {ts : List Token} {name type : Text} (htype : IsType type) (first spread : Bool)
      (h : Tidy depth ts) : Tidy depth (parameterTokens first name type spread ++ ts)

mutual

theorem tidy_tokens (first : Bool) (i : Item) (h : WellFormed i) {depth : Nat} {ts : List Token}
    (hts : Tidy depth ts) :
    Tidy depth (tokens first i ++ ts) := by
  cases i with
  | parameter name type spread emphasised => exact .parameter h.2 first spread hts
  | block items =>
      have hitems := tidy_allTokens first items h (Tidy.closeBrace hts)
      simp only [tokens, List.cons_append, List.append_assoc]
      exact .openBrace hitems

theorem tidy_allTokens (first : Bool) (items : List Item) (h : AllWellFormed items) {depth : Nat}
    {ts : List Token} (hts : Tidy depth ts) : Tidy depth (allTokens first items ++ ts) := by
  cases items with
  | nil => exact hts
  | cons i items =>
      obtain ⟨hi, hitems⟩ := h
      rw [allTokens, List.append_assoc]
      exact tidy_tokens first i hi (tidy_allTokens _ items hitems hts)

end

theorem braces_of_tidy {depth : Nat} {ts : List Token} (h : Tidy depth ts) :
    Structure.braces depth ts = [] := by
  induction h with
  | nil => rfl
  | openBrace h ih =>
      rw [Structure.braces_cons]
      exact ih
  | closeBrace h ih => exact ih
  | parameter htype first spread h ih =>
      cases first <;> cases spread <;>
        simpa [parameterTokens, labelToken, typeTokens, Structure.braces_cons, Structure.clampedDepth] using ih

theorem doubleSemicolons_of_tidy {depth : Nat} {ts : List Token} (h : Tidy depth ts) :
    Structure.doubleSemicolons ts = [] := by
  induction h with
  | nil => rfl
  | openBrace h ih => exact ih
  | closeBrace h ih => exact ih
  | parameter htype first spread h ih => cases first <;> cases spread <;> exact ih

theorem colons_of_tidy {depth : Nat} {ts : List Token} (h : Tidy depth ts) (previous : Option Kind) :
    Structure.colons previous ts = [] := by
  induction h generalizing previous with
  | nil => rfl
  | openBrace h ih => exact ih _
  | closeBrace h ih => exact ih _
  | parameter htype first spread h ih => cases first <;> cases spread <;> exact ih _

theorem types_of_tidy {depth : Nat} {ts : List Token} (h : Tidy depth ts) : Structure.types ts = [] := by
  induction h with
  | nil => rfl
  | openBrace h ih => exact ih
  | closeBrace h ih => exact ih
  | @parameter depth ts name type htype first spread h ih =>
      have htypeToken : Structure.types (⟨.typeName, type, 0⟩ :: ts) = Structure.types ts := by
        simp [Structure.types, htype.isWellFormed]
      rw [← ih, ← htypeToken]
      cases first <;> cases spread <;> rfl

theorem untyped_of_tidy {depth : Nat} {ts : List Token} (h : Tidy depth ts) : Parameter.untyped ts = [] := by
  induction h with
  | nil => rfl
  | openBrace h ih => exact ih
  | closeBrace h ih => exact ih
  | @parameter depth ts name type htype first spread h ih =>
      have hlabel :
          Parameter.untyped (labelToken name spread :: (typeTokens type ++ ts)) = Parameter.untyped ts := by
        rw [Parameter.untyped_cons]
        simp [typeTokens, Parameter.endsUntyped, Parameter.untyped_cons, startsParameter]
      cases first with
      | true => exact hlabel.trans ih
      | false =>
          rw [← ih, ← hlabel]
          rfl

theorem head_allTokens (items : List Item) : (allTokens true items).head?.map Token.kind ≠ some .semicolon := by
  cases items with
  | nil => simp [allTokens]
  | cons i items =>
      cases i with
      | parameter name type spread emphasised =>
        cases spread <;> simp [allTokens, tokens, parameterTokens, labelToken]
      | block items => simp [allTokens, tokens]

/-- Neither the structure nor the types of items give an issue. -/
theorem malformationOf_allTokens {items : List Item} (h : AllWellFormed items) :
    Variant.malformationOf {} (allTokens true items) = none := by
  have htidy : Tidy 0 (allTokens true items) := by
    have hnil := tidy_allTokens true items h Tidy.nil
    rwa [List.append_nil] at hnil
  rw [Variant.malformationOf, Structure.issues, braces_of_tidy htidy,
    Structure.emptyParameters_eq_doubleSemicolons (head_allTokens items), doubleSemicolons_of_tidy htidy,
    colons_of_tidy htidy, Structure.names_off, types_of_tidy htidy, untyped_of_tidy htidy]
  rfl

/-- Tokens that end whatever parameter has begun before them and are read on without it. -/
def Settled (depth : Int) (ts : List Token) : Prop :=
  ∀ pending, Parameter.assemble depth false pending ts =
    Parameter.close pending ++ Parameter.assemble depth false none ts

theorem settled_nil (depth : Int) : Settled depth [] := by
  intro pending
  simp [Parameter.assemble_nil, Parameter.close]

theorem settled_closeBrace {depth : Int} {ts : List Token} (h : Settled depth ts) :
    Settled (depth + 1) (⟨.closeBrace, ['}'], 0⟩ :: ts) := by
  have hback : depth + 1 - 1 = depth := by omega
  rw [← hback] at h
  exact h

theorem parameterLabel_labelToken (name : Text) (spread : Bool) :
    (labelToken name spread).parameterLabel = name := by
  cases spread with
  | true =>
      have hafter : Text.after? ellipsis (ellipsis ++ name) = some name := Text.after?_eq_some_iff.mpr rfl
      simp [parameterLabel, labelToken, labelText, Text.dropLead, hafter]
  | false => rfl

theorem close_of_isName {name : Text} (h : IsName name) (type : Text) (optional spread : Bool) :
    Parameter.close (some ⟨name, type, optional, spread⟩) = [⟨name, type, optional, spread⟩] := by
  have hmark : ∀ c : Char, isNameChar c = false → name ≠ [c] := by
    rintro c hc rfl
    have hname := h.isNameChar c (by simp)
    rw [hc] at hname
    cases hname
  have hplaceholder : Parameter.isPlaceholder name = false := by
    simp [Parameter.isPlaceholder, h.trim, h.ne_nil, hmark '{' (by decide), hmark '}' (by decide),
      hmark ';' (by decide)]
  simp [Parameter.close, hplaceholder]

/-- The tokens of a parameter end what has begun and give the parameter. -/
theorem assemble_parameterTokens {name type : Text} (hname : IsName name) (first spread : Bool)
    {depth : Int} {ts : List Token} (hts : Settled depth ts) (pending : Option Parameter) :
    Parameter.assemble depth false pending (parameterTokens first name type spread ++ ts) =
      Parameter.close pending ++ ⟨name, type, 0 < depth, spread⟩ :: Parameter.assemble depth false none ts := by
  have hlabel :
      ∀ pending, Parameter.assemble depth false pending (labelToken name spread :: (typeTokens type ++ ts)) =
        Parameter.close pending ++
          ⟨name, type, 0 < depth, spread⟩ :: Parameter.assemble depth false none ts := by
    intro pending
    have htyped := hts (some ⟨name, type, 0 < depth, spread⟩)
    have hsteps : Parameter.assemble depth false pending (labelToken name spread :: (typeTokens type ++ ts)) =
        Parameter.close pending ++ Parameter.assemble depth false
          (some ⟨(labelToken name spread).parameterLabel, type, 0 < depth, spread⟩) ts := by
      cases spread <;> rfl
    rw [hsteps, parameterLabel_labelToken, htyped, close_of_isName hname]
    rfl
  cases first with
  | true => exact hlabel pending
  | false =>
      calc Parameter.assemble depth false pending (parameterTokens false name type spread ++ ts) =
          Parameter.close pending ++
            Parameter.assemble depth false none (labelToken name spread :: (typeTokens type ++ ts)) := rfl
        _ = Parameter.close pending ++
              ⟨name, type, 0 < depth, spread⟩ :: Parameter.assemble depth false none ts := by
            rw [hlabel none]
            rfl

mutual

theorem assemble_tokens (first : Bool) (i : Item) (h : WellFormed i) {depth : Int} (hdepth : 0 ≤ depth)
    {ts : List Token} (hts : Settled depth ts) (pending : Option Parameter) :
    Parameter.assemble depth false pending (tokens first i ++ ts) =
      Parameter.close pending ++ (parameters (0 < depth) i ++ Parameter.assemble depth false none ts) := by
  cases i with
  | parameter name type spread emphasised => exact assemble_parameterTokens h.1 first spread hts pending
  | block items =>
      have hitems := @assemble_allTokens first items h (depth + 1) (by omega) _ (settled_closeBrace hts) pending
      have hopen : 0 < depth + 1 := by omega
      have hback : depth + 1 - 1 = depth := by omega
      calc Parameter.assemble depth false pending (tokens first (.block items) ++ ts) =
          Parameter.assemble (depth + 1) false pending
            (allTokens first items ++ ⟨.closeBrace, ['}'], 0⟩ :: ts) := by
            simp only [tokens, List.cons_append, List.append_assoc]
            rfl
        _ = Parameter.close pending ++ (allParameters true items ++
              Parameter.assemble (depth + 1 - 1) false none ts) := by
            rw [hitems, decide_eq_true hopen]
            rfl
        _ = Parameter.close pending ++ (parameters (0 < depth) (.block items) ++
              Parameter.assemble depth false none ts) := by
            rw [hback]
            rfl

theorem assemble_allTokens (first : Bool) (items : List Item) (h : AllWellFormed items) {depth : Int}
    (hdepth : 0 ≤ depth) {ts : List Token} (hts : Settled depth ts) (pending : Option Parameter) :
    Parameter.assemble depth false pending (allTokens first items ++ ts) =
      Parameter.close pending ++
        (allParameters (0 < depth) items ++ Parameter.assemble depth false none ts) := by
  cases items with
  | nil => exact hts pending
  | cons i items =>
      obtain ⟨hi, hitems⟩ := h
      have hrest := assemble_allTokens (first && !declaresParameter i) items hitems hdepth hts
      have hsettled : Settled depth (allTokens (first && !declaresParameter i) items ++ ts) := by
        intro pending
        rw [hrest pending, hrest none]
        rfl
      rw [allTokens, List.append_assoc, assemble_tokens first i hi hdepth hsettled pending, hrest none]
      simp [allParameters, Parameter.close]

end

theorem ofTokens_allTokens {items : List Item} (h : AllWellFormed items) :
    Parameter.ofTokens (allTokens true items) = allParameters false items := by
  have hitems := assemble_allTokens true items h (by omega) (settled_nil 0) none
  rw [List.append_nil, Parameter.assemble_nil] at hitems
  rw [Parameter.ofTokens, hitems]
  simp [Parameter.close]

end Item

namespace Declaration

theorem nonempty_of_ne_nil {t : Text} (h : t ≠ []) : ReturnType.nonempty (some t) = some t := by
  simp [ReturnType.nonempty, h]

theorem ofTokens_tailTokens {r : ReturnType} (h : IsReturn r) :
    ReturnType.ofTokens (tailTokens r) = some r := by
  cases h with
  | @named name hname =>
      change ReturnType.ofParts (some (Text.trim name)) none = _
      rw [hname.trim, ReturnType.ofParts, nonempty_of_ne_nil hname.ne_nil]
      rfl
  | @typed type htype =>
      change ReturnType.ofParts none (some (Text.trim type)) = _
      rw [htype.trim, ReturnType.ofParts, nonempty_of_ne_nil htype.ne_nil]
      rfl
  | @both name type hname htype =>
      change ReturnType.ofParts (some (Text.trim name)) (some (Text.trim type)) = _
      rw [hname.trim, htype.trim, ReturnType.ofParts, nonempty_of_ne_nil hname.ne_nil,
        nonempty_of_ne_nil htype.ne_nil]

end Declaration

end Synopsis
