import Synopsis.Proofs.ParameterStarts
import Synopsis.Proofs.StructureChecks

/-!
# Optional blocks

Two counts of open braces run over the tokens of a parameter list. The check of the structure starts anew
behind a brace that closes nothing; the assembly of parameters goes on below zero there. So the counts
differ by the number of such stray braces, and a parameter inside a block is optional exactly when more
blocks are open around it than stray braces stand before it. Without a stray brace the two agree.
-/

namespace Synopsis

namespace Structure

def openBlocks (ts : List Token) : Nat :=
  ts.foldl clampedDepth 0

def strayAt (depth : Nat) (t : Token) : Nat :=
  if t.kind = .closeBrace ∧ depth = 0 then 1 else 0

/-- The number of braces that close nothing, with `depth` blocks open before the tokens. -/
def strayBraces (depth : Nat) : List Token → Nat
  | [] => 0
  | t :: rest => strayAt depth t + strayBraces (clampedDepth depth t) rest

theorem braces_step (depth : Nat) (t : Token) (rest : List Token) :
    braces depth (t :: rest) =
      List.replicate (strayAt depth t) .extraClosingBrace ++ braces (clampedDepth depth t) rest := by
  rw [braces_cons, strayAt]
  by_cases ht : t.kind = .closeBrace ∧ depth = 0
  · rw [if_pos ht, if_pos ht]
    rfl
  · rw [if_neg ht, if_neg ht]
    rfl

theorem braces_append (depth : Nat) (before after : List Token) :
    braces depth (before ++ after) =
      List.replicate (strayBraces depth before) .extraClosingBrace ++
        braces (before.foldl clampedDepth depth) after := by
  induction before generalizing depth with
  | nil => rfl
  | cons t before ih =>
      rw [List.cons_append, braces_step, ih, strayBraces, ← List.replicate_append_replicate, List.append_assoc,
        List.foldl_cons]

theorem strayBraces_eq_zero {depth : Nat} {before after : List Token}
    (h : .extraClosingBrace ∉ braces depth (before ++ after)) : strayBraces depth before = 0 := by
  rw [braces_append] at h
  by_contra hne
  apply h
  exact List.mem_append_left _ (List.mem_replicate.mpr ⟨hne, rfl⟩)

end Structure

namespace Parameter

open Structure
open Token (Site)

/-- At one token, a stray brace is what lets the two counts go apart. -/
theorem nextDepth_add_strayAt (depth : Int) (blocks : Nat) (t : Token) :
    nextDepth depth t + strayAt blocks t = clampedDepth blocks t + (depth - blocks) := by
  unfold nextDepth strayAt clampedDepth
  cases ht : t.kind with
  | openBrace =>
      have hnot : ¬ (Token.Kind.openBrace = .closeBrace ∧ blocks = 0) := by simp
      simp only [if_neg hnot]
      omega
  | closeBrace =>
      by_cases hblocks : blocks = 0
      · simp only [hblocks, and_self, if_true]
        omega
      · simp only [hblocks, and_false, if_false]
        omega
  | _ =>
      simp only [reduceCtorEq, false_and, if_false]
      omega

theorem foldl_nextDepth_add_strayBraces (depth : Int) (blocks : Nat) (ts : List Token) :
    ts.foldl nextDepth depth + strayBraces blocks ts = ts.foldl clampedDepth blocks + (depth - blocks) := by
  induction ts generalizing depth blocks with
  | nil =>
      simp only [List.foldl_nil, strayBraces]
      omega
  | cons t ts ih =>
      have hstep := nextDepth_add_strayAt depth blocks t
      have hrest := ih (nextDepth depth t) (clampedDepth blocks t)
      simp only [List.foldl_cons, strayBraces]
      omega

theorem depthOf_add_strayBraces (ts : List Token) : depthOf ts + strayBraces 0 ts = openBlocks ts := by
  have h := foldl_nextDepth_add_strayBraces 0 0 ts
  unfold depthOf openBlocks
  omega

def WithinBlock (s : Site) : Prop :=
  0 < openBlocks s.before

instance (s : Site) : Decidable (WithinBlock s) :=
  inferInstanceAs (Decidable (0 < openBlocks s.before))

theorem optional_ofSite (s : Site) : (ofSite s).optional = decide (0 < depthOf s.before) := by
  unfold ofSite
  split
  · rfl
  · rfl

theorem optional_ofSite_iff (s : Site) :
    (ofSite s).optional = true ↔ strayBraces 0 s.before < openBlocks s.before := by
  have hdepth := depthOf_add_strayBraces s.before
  rw [optional_ofSite, decide_eq_true_iff]
  omega

/-- The flag and the blocks disagree only where as many stray braces stand before a site as blocks are open
around it. -/
theorem optional_ofSite_iff_withinBlock_iff (s : Site) :
    ((ofSite s).optional = true ↔ WithinBlock s) ↔
      (WithinBlock s → strayBraces 0 s.before < openBlocks s.before) := by
  rw [optional_ofSite_iff, WithinBlock]
  constructor
  · intro h
    exact h.mpr
  · intro h
    refine ⟨fun hopen => ?_, h⟩
    omega

/-- The optional flags of a parameter list agree with its blocks exactly when every parameter inside a block
has more blocks open around it than stray braces before it, and so they do when there is no stray brace. -/
theorem optional_iff_withinBlock_iff (ts : List Token) :
    (Started.ofTokens ts).map Started.parameter = ofTokens ts ∧
      (∀ a ∈ Started.ofTokens ts, a.site.tokens = ts ∧
        braces 0 ts = List.replicate (strayBraces 0 a.site.before) .extraClosingBrace ++
          braces (openBlocks a.site.before) (a.site.token :: a.site.after) ∧
        (a.parameter.optional = true ↔ strayBraces 0 a.site.before < openBlocks a.site.before)) ∧
      ((∀ a ∈ Started.ofTokens ts, a.parameter.optional = true ↔ WithinBlock a.site) ↔
        ∀ a ∈ Started.ofTokens ts, WithinBlock a.site →
          strayBraces 0 a.site.before < openBlocks a.site.before) ∧
      (.extraClosingBrace ∉ braces 0 ts →
        ∀ a ∈ Started.ofTokens ts, a.parameter.optional = true ↔ WithinBlock a.site) := by
  have hagree : ∀ a ∈ Started.ofTokens ts, ((a.parameter.optional = true ↔ WithinBlock a.site) ↔
      (WithinBlock a.site → strayBraces 0 a.site.before < openBlocks a.site.before)) := by
    intro a ha
    rw [(Started.declared_of_mem_ofTokens ha).parameter]
    exact optional_ofSite_iff_withinBlock_iff a.site
  refine ⟨Started.map_parameter_ofTokens ts, ?_, ?_, ?_⟩
  · intro a ha
    have hdeclared := Started.declared_of_mem_ofTokens ha
    refine ⟨hdeclared.tokens, ?_, ?_⟩
    · have happend := braces_append 0 a.site.before (a.site.token :: a.site.after)
      rwa [show a.site.before ++ a.site.token :: a.site.after = ts from hdeclared.tokens] at happend
    · rw [hdeclared.parameter]
      exact optional_ofSite_iff a.site
  · exact forall₂_congr hagree
  · intro hstray a ha
    apply (hagree a ha).mpr
    intro hblock
    rw [← (Started.declared_of_mem_ofTokens ha).tokens] at hstray
    rw [strayBraces_eq_zero hstray]
    exact hblock

/-- A stray brace does no harm to a parameter with two blocks around it. -/
theorem optional_iff_withinBlock_of_two_blocks :
    .extraClosingBrace ∈ braces 0 (Token.ofText "\x7d a : Text ; \x7b\x7b b : Text \x7d\x7d".toList) ∧
      (Started.ofTokens (Token.ofText "\x7d a : Text ; \x7b\x7b b : Text \x7d\x7d".toList)).map
          (fun a => a.parameter.optional) = [false, true] ∧
      ∀ a ∈ Started.ofTokens (Token.ofText "\x7d a : Text ; \x7b\x7b b : Text \x7d\x7d".toList),
        a.parameter.optional = true ↔ WithinBlock a.site := by
  refine ⟨by decide +kernel, by decide +kernel, ?_⟩
  apply (optional_iff_withinBlock_iff _).2.2.1.mpr
  decide +kernel

/-- Behind a stray brace, a parameter in a block of its own is not optional. -/
theorem exists_withinBlock_not_optional :
    ∃ a ∈ Started.ofTokens (Token.ofText "\x7d\x7ba : Text\x7d".toList),
      a.parameter = ⟨['a'], "Text".toList, false, false⟩ ∧ WithinBlock a.site := by
  decide +kernel

end Parameter

end Synopsis
