import Mathlib.Data.List.Forall2
import Synopsis.Proofs.StructureChecks
import Synopsis.Proofs.VariantSections

/-!
# What a policy changes

A policy decides which of the two checks of parameter names report, and nothing else. The issues under any
policy are those under the strictest one that it admits, in the same order; all that is read of a variant
besides is the same under every policy. So a policy that turns on more checks only adds issues.
-/

namespace Synopsis

namespace Policy

def strict : Policy :=
  ⟨true, true⟩

/-- Whether a policy has the check on that an issue comes from. -/
def admits (p : Policy) (i : Issue) : Bool :=
  match i.kind with
  | .nonIdentifierName => p.checkNames
  | .reservedName => p.checkReserved
  | _ => true

/-- `p` turns on no check that `q` leaves off. -/
structure Within (p q : Policy) : Prop where
  names : p.checkNames = true → q.checkNames = true
  reserved : p.checkReserved = true → q.checkReserved = true

theorem admits_nonIdentifierName (p : Policy) (name : Text) :
    p.admits (.nonIdentifierName name) = p.checkNames := rfl

theorem admits_reservedName (p : Policy) (name : Text) : p.admits (.reservedName name) = p.checkReserved := rfl

theorem admits_of_ne {i : Issue} (hname : i.kind ≠ .nonIdentifierName) (hreserved : i.kind ≠ .reservedName)
    (p : Policy) : p.admits i = true := by
  unfold admits
  split
  · next h => exact absurd h hname
  · next h => exact absurd h hreserved
  · rfl

theorem Within.admits {p q : Policy} (h : p.Within q) (i : Issue) (hi : p.admits i = true) :
    q.admits i = true := by
  unfold Policy.admits at hi ⊢
  split
  · next hk => exact h.names (by simpa only [hk] using hi)
  · next hk => exact h.reserved (by simpa only [hk] using hi)
  · rfl

end Policy

namespace Structure

theorem nameIssues_eq_filter (p : Policy) (name : Text) :
    nameIssues p name = (nameIssues .strict name).filter p.admits := by
  unfold nameIssues
  rw [List.filter_append]
  refine congrArg₂ _ ?_ ?_
  · cases TypeName.isIdentifier name <;> cases hnames : p.checkNames <;>
      simp [Policy.strict, Policy.admits_nonIdentifierName, hnames]
  · cases reservedWords.contains name <;> cases hreserved : p.checkReserved <;>
      simp [Policy.strict, Policy.admits_reservedName, hreserved]

theorem names_eq_filter (p : Policy) (ts : List Token) : names p ts = (names .strict ts).filter p.admits := by
  rw [names, names, List.filter_flatMap]
  simp only [← nameIssues_eq_filter]

/-- Every check but that of the names reports the same under every policy. -/
theorem run_eq_filter (p : Policy) (ts : List Token) (c : Check) :
    c.run p ts = (c.run .strict ts).filter p.admits := by
  have hname : ∀ i : Issue, i.kind = .nonIdentifierName → Check.ofKind? i.kind = some .names := by
    intro i hk
    rw [hk]
    rfl
  have hreserved : ∀ i : Issue, i.kind = .reservedName → Check.ofKind? i.kind = some .names := by
    intro i hk
    rw [hk]
    rfl
  have hother : c ≠ .names → (c.run .strict ts).filter p.admits = c.run .strict ts := by
    intro hc
    rw [List.filter_eq_self]
    intro i hi
    exact Policy.admits_of_ne (Check.not_of_mem_run hname hc hi) (Check.not_of_mem_run hreserved hc hi) p
  cases c with
  | names => exact names_eq_filter p ts
  | _ => exact (hother (by simp)).symm

theorem issues_eq_filter (p : Policy) (ts : List Token) :
    issues p ts ++ Parameter.untyped ts = (issues .strict ts ++ Parameter.untyped ts).filter p.admits := by
  rw [issues_append_untyped, issues_append_untyped, List.filter_flatMap]
  simp only [← run_eq_filter]

end Structure

namespace Variant

/-- The issues that no policy decides about. -/
def fixedIssues (v : Variant) : List Issue :=
  (v.malformation.getD []).filter fun i => i.kind != .nonIdentifierName && i.kind != .reservedName

/-- Two readings of a variant that differ at most in issues that a policy decides about. -/
structure SameButNames (v w : Variant) : Prop where
  sourceText : v.sourceText = w.sourceText
  parameters : v.parameters = w.parameters
  returnType : v.returnType = w.returnType
  fixedIssues : v.fixedIssues = w.fixedIssues

theorem getD_ofText_eq_filter (p : Policy) (t : Text) :
    (ofText p t).malformation.getD [] = ((ofText .strict t).malformation.getD []).filter p.admits := by
  unfold ofText
  cases Enclosure.ofText t with
  | property => rfl
  | unterminated => rfl
  | enclosed head inside tail =>
      simp only [getD_malformationOf]
      exact Structure.issues_eq_filter p _

theorem fixedIssues_ofText (p : Policy) (t : Text) :
    (ofText p t).fixedIssues = (ofText .strict t).fixedIssues := by
  unfold fixedIssues
  rw [getD_ofText_eq_filter, List.filter_filter]
  refine List.filter_congr ?_
  intro i hi
  cases hfixed : i.kind != .nonIdentifierName && i.kind != .reservedName with
  | false => rfl
  | true =>
      obtain ⟨hname, hreserved⟩ :
          i.kind ≠ .nonIdentifierName ∧ i.kind ≠ .reservedName := by simpa using hfixed
      rw [Policy.admits_of_ne hname hreserved]
      rfl

theorem ofText_policy (p q : Policy) (t : Text) :
    (ofText p t).sourceText = (ofText q t).sourceText ∧ (ofText p t).parameters = (ofText q t).parameters ∧
      (ofText p t).returnType = (ofText q t).returnType := by
  unfold ofText
  cases Enclosure.ofText t <;> exact ⟨rfl, rfl, rfl⟩

theorem sameButNames_ofText (p q : Policy) (t : Text) : SameButNames (ofText p t) (ofText q t) where
  sourceText := (ofText_policy p q t).1
  parameters := (ofText_policy p q t).2.1
  returnType := (ofText_policy p q t).2.2
  fixedIssues := (fixedIssues_ofText p t).trans (fixedIssues_ofText q t).symm

theorem issues_ofText_sublist {p q : Policy} (h : p.Within q) (t : Text) :
    ((ofText p t).malformation.getD []).Sublist ((ofText q t).malformation.getD []) := by
  rw [getD_ofText_eq_filter p, getD_ofText_eq_filter q]
  exact List.monotone_filter_right _ h.admits

theorem forall₂_parse {R : Variant → Variant → Prop} {p q : Policy} (h : ∀ t, R (ofText p t) (ofText q t))
    (t : Text) : List.Forall₂ R (parse p t) (parse q t) := by
  unfold parse
  rw [List.forall₂_map_left_iff, List.forall₂_map_right_iff, List.forall₂_same]
  exact fun piece _ => h piece

/-- Under any two policies the same variants are read, up to the issues of the names; and a policy that turns on
more only adds issues. -/
theorem parse_policy_adds_issues (p q : Policy) (t : Text) :
    List.Forall₂ SameButNames (parse p t) (parse q t) ∧
      (p.Within q → List.Forall₂ (fun v w => (v.malformation.getD []).Sublist (w.malformation.getD []))
        (parse p t) (parse q t)) :=
  ⟨forall₂_parse (sameButNames_ofText p q) t, fun h => forall₂_parse (issues_ofText_sublist h) t⟩

theorem parse_policy_adds_issues_of_dashed_name :
    Policy.Within ⟨false, true⟩ ⟨true, true⟩ ∧
      (parse ⟨false, true⟩ "f(class : Text ; a-b : Text \x7d ; c)<br/>g".toList).map malformation =
        [some [.extraClosingBrace, .reservedName "class".toList, .untypedParameter ['c']], none] ∧
      (parse ⟨true, true⟩ "f(class : Text ; a-b : Text \x7d ; c)<br/>g".toList).map malformation =
        [some [.extraClosingBrace, .reservedName "class".toList, .nonIdentifierName "a-b".toList,
          .untypedParameter ['c']], none] ∧
      List.Forall₂ (fun v w => (v.malformation.getD []).Sublist (w.malformation.getD []))
        (parse ⟨false, true⟩ "f(class : Text ; a-b : Text \x7d ; c)<br/>g".toList)
        (parse ⟨true, true⟩ "f(class : Text ; a-b : Text \x7d ; c)<br/>g".toList) := by
  have h : Policy.Within ⟨false, true⟩ ⟨true, true⟩ := ⟨fun _ => rfl, fun _ => rfl⟩
  exact ⟨h, by decide +kernel, by decide +kernel, (parse_policy_adds_issues _ _ _).2 h⟩

end Variant

end Synopsis
