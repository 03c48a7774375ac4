import Synopsis.Proofs.EnclosureBalance
import Synopsis.Proofs.VariantCut

/-!
# The three sections of a variant

The first opening parenthesis and the one that matches it part a variant into its head, its inside and
its tail. Trimming the variant reaches the head from the left and the tail from the right, never the
inside, so the parameters and the issues depend on the inside alone and the return type on the tail
alone.
-/

namespace Synopsis

namespace Variant

open Enclosure Text

/-- `head ( inside ) tail`, without a blank around the parentheses. -/
def enclose (head inside tail : Text) : Text :=
  head ++ '(' :: (inside ++ ')' :: tail)

/-- The head ends at the first opening parenthesis, the inside at its match, and no mark cuts any of them. -/
structure Sectioned (head inside tail : Text) : Prop where
  open_not_mem : '(' ∉ head
  balanced : Balanced inside
  head_uncut : ¬ separator <:+: head
  inside_uncut : ¬ separator <:+: inside
  tail_uncut : ¬ separator <:+: tail

theorem trim_enclose (head inside tail : Text) :
    trim (enclose head inside tail) = enclose (trimStart head) inside (trimEnd tail) := by
  unfold enclose
  rw [trim_append_cons (by decide), trimEnd_append_cons (by decide)]

theorem Sectioned.enclose_uncut {head inside tail : Text} (h : Sectioned head inside tail) :
    ¬ separator <:+: enclose head inside tail :=
  not_separator_infix_append_cons (by decide) h.head_uncut
    (not_separator_infix_append_cons (by decide) h.inside_uncut h.tail_uncut)

theorem ofText_enclose {head inside : Text} (hhead : '(' ∉ head) (hinside : Balanced inside)
    (policy : Policy) (tail : Text) :
    ofText policy (enclose head inside tail) =
      ⟨enclose head inside tail, Parameter.ofTokens (tokens (trim inside)),
        ReturnType.ofTokens (tokens tail), malformationOf policy (tokens (trim inside))⟩ := by
  unfold ofText
  rw [enclose, ofText_append_enclosed hhead hinside]

theorem Sectioned.parse_enclose {head inside tail : Text} (h : Sectioned head inside tail) (policy : Policy) :
    parse policy (enclose head inside tail) =
      [⟨enclose (trimStart head) inside (trimEnd tail), Parameter.ofTokens (tokens (trim inside)),
        ReturnType.ofTokens (tokens (trimEnd tail)), malformationOf policy (tokens (trim inside))⟩] := by
  have hopen : '(' ∉ trimStart head := fun hmem => h.open_not_mem ((isSuffix_trimStart head).subset hmem)
  have hne : trim (enclose head inside tail) ≠ [] := by
    rw [trim_enclose]
    simp [enclose]
  rw [parse_eq_singleton policy h.enclose_uncut hne, trim_enclose, ofText_enclose hopen h.balanced]

theorem getD_malformationOf (policy : Policy) (ts : List Token) :
    (malformationOf policy ts).getD [] = Structure.issues policy ts ++ Parameter.untyped ts := by
  unfold malformationOf
  split
  · next h => exact h.symm
  · rfl

/-- Parameters and issues come from the inside, the return type from the tail, so none of them changes
with the other sections. -/
theorem parse_sections_independent {head inside tail : Text} (h : Sectioned head inside tail)
    (policy : Policy) :
    ∃ v, parse policy (enclose head inside tail) = [v] ∧
      v.parameters = parseParameters (trim inside) ∧
      v.malformation.getD [] = Structure.issues policy (tokens (trim inside)) ++
        Parameter.untyped (tokens (trim inside)) ∧
      v.returnType = ReturnType.ofTokens (tokens (trimEnd tail)) ∧
      (∀ head' tail', Sectioned head' inside tail' → ∃ w, parse policy (enclose head' inside tail') = [w] ∧
        w.parameters = v.parameters ∧ w.malformation = v.malformation) ∧
      ∀ head' inside', Sectioned head' inside' tail → ∃ w, parse policy (enclose head' inside' tail) = [w] ∧
        w.returnType = v.returnType := by
  refine ⟨_, h.parse_enclose policy, rfl, getD_malformationOf policy _, rfl, ?_, ?_⟩
  · intro head' tail' h'
    exact ⟨_, h'.parse_enclose policy, rfl, rfl⟩
  · intro head' inside' h'
    exact ⟨_, h'.parse_enclose policy, rfl⟩

theorem parse_sections_independent_nested :
    Sectioned "\u00A0f) ".toList " a : Text ( ; b ) ".toList " -> r ( : Real \u2003".toList ∧
      ∃ v, parse ⟨true, false⟩ (enclose "\u00A0f) ".toList " a : Text ( ; b ) ".toList
        " -> r ( : Real \u2003".toList) = [v] ∧
        v.parameters = parseParameters "a : Text ( ; b )".toList ∧
        v.returnType = ReturnType.ofTokens (tokens " -> r ( : Real".toList) := by
  have h : Sectioned "\u00A0f) ".toList " a : Text ( ; b ) ".toList " -> r ( : Real \u2003".toList :=
    ⟨by decide, by decide, by decide, by decide, by decide⟩
  obtain ⟨v, hv, hparameters, -, hreturn, -, -⟩ := parse_sections_independent h ⟨true, false⟩
  exact ⟨h, v, hv, hparameters, hreturn⟩

end Variant

end Synopsis
