import Synopsis.Proofs.TokenPlaces
import Synopsis.Proofs.TokenSpelling

/-!
# Tokens printed back

Printed one after the other, with at least one gap between any two, the tokens of a text are read again as
they were. A gap ends every run and belongs to none, so each value is read as far as it goes and no further,
and the token before it is the same as in the text. So the kinds and values do not depend on how wide the
gaps of a text are, nor on the characters that reading drops.
-/

namespace Synopsis

namespace Token

def IsSpacing (t : Text) : Prop :=
  ∀ c ∈ t, isGap c = true

instance (t : Text) : Decidable (IsSpacing t) :=
  List.decidableBAll (fun c => isGap c = true) t

/-- The values of tokens in their order, each with the text that stands behind it. -/
def layOut (ps : List (Token × Text)) : Text :=
  ps.flatMap fun p => p.1.value ++ p.2

/-- Gaps stand behind the tokens, and only the last one may be without. -/
structure Spaced (ps : List (Token × Text)) : Prop where
  spacing : ∀ p ∈ ps, IsSpacing p.2
  between : ∀ p ∈ ps.dropLast, p.2 ≠ []

theorem layOut_cons (p : Token × Text) (ps : List (Token × Text)) :
    layOut (p :: ps) = p.1.value ++ (p.2 ++ layOut ps) := by
  simp [layOut]

theorem not_admits_of_isGap {c : Char} (hc : isGap c = true) (k : Kind) : k.admits c = false := by
  have hgap : c = ' ' ∨ c = '\t' ∨ c = '\r' ∨ c = '\n' := by simpa [isGap, or_assoc] using hc
  rcases hgap with rfl | rfl | rfl | rfl <;> cases k <;> decide

theorem spelled_spacing_append {gap : Text} (hgap : IsSpacing gap) (afterColon : Bool) (t : Text) :
    spelled afterColon (gap ++ t) = spelled afterColon t := by
  induction gap with
  | nil => rfl
  | cons c gap ih =>
      obtain ⟨hc, hrest⟩ := List.forall_mem_cons.mp hgap
      rw [List.cons_append, spelled_cons_of_isGap hc, ih hrest]

section Spaced

variable {p : Token × Text} {ps : List (Token × Text)}

theorem Spaced.tail (h : Spaced (p :: ps)) : Spaced ps where
  spacing q hq := h.spacing q (List.mem_cons_of_mem p hq)
  between q hq := by
    cases ps with
    | nil => cases hq
    | cons r ps => exact h.between q (List.mem_cons_of_mem p hq)

theorem Spaced.not_admits (h : Spaced (p :: ps)) (k : Kind) :
    ∀ d ∈ (p.2 ++ layOut ps).head?, k.admits d = false := by
  intro d hd
  cases hgap : p.2 with
  | cons c gap =>
      rw [hgap] at hd
      cases hd
      exact not_admits_of_isGap (h.spacing p List.mem_cons_self d (by rw [hgap]; exact List.mem_cons_self)) k
  | nil =>
      cases ps with
      | nil =>
          rw [hgap] at hd
          cases hd
      | cons q ps => exact absurd hgap (h.between p List.mem_cons_self)

end Spaced

theorem spelled_layOut {previous : Option Kind} {n : Nat} {text : Text} {ps : List (Token × Text)}
    (hps : ps.map Prod.fst = scan previous n text) (hspaced : Spaced ps) :
    spelled (previous == some .colon) (layOut ps) = (scan previous n text).map unplaced := by
  induction previous, n, text using scan_induction generalizing ps with
  | nil previous n =>
      rw [List.map_eq_nil_iff.mp hps]
      exact spelled_nil _
  | skip previous n c rest hskips ih => exact ih hps hspaced
  | token previous n text k value rest hlexeme ih =>
      obtain ⟨p, ps, rfl, hp, hrest⟩ := List.map_eq_cons_iff.mp hps
      have hvalue : Lexeme previous (value ++ (p.2 ++ layOut ps)) k value (p.2 ++ layOut ps) :=
        hlexeme.before fun _ => hspaced.not_admits k
      have hspacing := hspaced.spacing p List.mem_cons_self
      have hcolon : (some k == some Kind.colon) = (k == .colon) := by simp
      rw [layOut_cons, hp, spelled_of_lexeme hvalue, spelled_spacing_append hspacing, List.map_cons, ← hcolon,
        ih hrest hspaced.tail]
      rfl

/-- Laid out with gaps between them, the tokens of a text are read again with the same kinds and values. -/
theorem ofText_layOut {text lead : Text} {ps : List (Token × Text)} (hps : ps.map Prod.fst = ofText text)
    (hlead : IsSpacing lead) (hspaced : Spaced ps) :
    (ofText (lead ++ layOut ps)).map (fun t => (t.kind, t.value)) =
      (ofText text).map fun t => (t.kind, t.value) := by
  have hspelled : (ofText (lead ++ layOut ps)).map unplaced = (ofText text).map unplaced := by
    rw [map_unplaced_ofText, spelled_spacing_append hlead]
    exact @spelled_layOut none 0 text ps hps hspaced
  have hforget : ∀ ts : List Token, ts.map (fun t => (t.kind, t.value)) =
      (ts.map unplaced).map fun t => (t.kind, t.value) := by
    intro ts
    rw [List.map_map]
    rfl
  rw [hforget, hspelled, ← hforget]

/-- Runs before a comma, a mark and a backslash, a type with commas in it, an escape and an arrow. -/
theorem ofText_layOut_of_touching_tokens :
    ∃ ps : List (Token × Text),
      ps.map Prod.fst = ofText "a->,b\\:,c,-\\>...d,\\*->*".toList ∧ Spaced ps ∧
        layOut ps = "a-> b\t\n: ,c,- > ...d \\*\r-> *".toList ∧
        (ofText ("\n ".toList ++ layOut ps)).map (fun t => (t.kind, t.value)) =
          [(.parameterName, "a->".toList), (.parameterName, ['b']), (.colon, [':']), (.typeName, ",c,-".toList),
            (.greater, ['>']), (.spread, "...d".toList), (.escapedAsterisk, ['\\', '*']), (.arrow, ['-', '>']),
            (.operator, ['*'])] := by
  have htokens : ((ofText "a->,b\\:,c,-\\>...d,\\*->*".toList).zip
      [[' '], ['\t', '\n'], [' '], [' '], [' '], [' '], ['\r'], [' '], []]).map Prod.fst =
        ofText "a->,b\\:,c,-\\>...d,\\*->*".toList := by decide +kernel
  have hspaced : Spaced ((ofText "a->,b\\:,c,-\\>...d,\\*->*".toList).zip
      [[' '], ['\t', '\n'], [' '], [' '], [' '], [' '], ['\r'], [' '], []]) :=
    ⟨by decide +kernel, by decide +kernel⟩
  refine ⟨_, htokens, hspaced, by decide +kernel, ?_⟩
  rw [ofText_layOut htokens (by decide) hspaced]
  decide +kernel

end Token

end Synopsis
