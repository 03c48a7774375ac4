import Synopsis.Proofs.BraceIssues
import Synopsis.Proofs.TokenPlaces
import Synopsis.Proofs.TokenSpelling

/-!
# Lists joined at a semicolon

No token but its own holds a semicolon, and none looks beyond one, so the text behind a semicolon is read as
if it stood alone. A semicolon also ends the parameter that has begun, as the end of a list does. What is
left to carry over is the number of open braces, and where the first list closes as many as it opens nothing
is: then the parameters of the joined list are those of the two lists, and so are the reports of missing
types.
-/

namespace Synopsis

namespace Token

/-- A beginning without a semicolon does not reach over one. -/
theorem prefix_append_semicolon_iff {lead : Text} (hlead : ';' ∉ lead) (s t : Text) :
    lead <+: s ++ ';' :: t ↔ lead <+: s := by
  refine prefix_append_iff (p := fun d => d != ';') ?_ (by simp)
  intro d hd
  exact bne_iff_ne.mpr fun hsemicolon => hlead (hsemicolon ▸ hd)

theorem ofRun_append_semicolon (previous : Option Kind) (s t : Text) :
    Kind.ofRun previous (s ++ ';' :: t) = Kind.ofRun previous s := by
  simp only [Kind.ofRun, Text.startsWith_iff, prefix_append_semicolon_iff (by decide : ';' ∉ ellipsis)]

theorem not_admits_semicolon (k : Kind) : k.admits ';' = false := by
  cases k <;> decide

theorem Skips.append_semicolon {previous : Option Kind} {c : Char} {rest : Text} (h : Skips previous c rest)
    (t : Text) : Skips previous c (rest ++ ';' :: t) := by
  rcases h with hgap | ⟨hescape, hmark, hadmits⟩
  · exact .inl hgap
  · refine .inr ⟨?_, hmark, ?_⟩
    · rwa [← List.cons_append, prefix_append_semicolon_iff (by decide)]
    · rwa [← List.cons_append, ofRun_append_semicolon]

theorem Lexeme.append_semicolon {previous : Option Kind} {text value rest : Text} {k : Kind}
    (h : Lexeme previous text k value rest) (t : Text) :
    Lexeme previous (text ++ ';' :: t) k value (rest ++ ';' :: t) := by
  rw [h.text_eq, List.append_assoc]
  apply h.before
  intro hk d hd
  cases rest with
  | nil =>
      cases hd
      exact not_admits_semicolon k
  | cons c rest =>
      have hstop := (h.inRun hk).2 d hd
      rw [← admits_iff] at hstop
      simpa using hstop

theorem scan_append_semicolon (previous : Option Kind) (n : Nat) (s t : Text) :
    scan previous n (s ++ ';' :: t) =
      scan previous n s ++
        ⟨.semicolon, [';'], n + s.length⟩ :: scan (some .semicolon) (n + s.length + 1) t := by
  induction previous, n, s using scan_induction with
  | nil previous n => exact scan_of_lexeme (.punctuation rfl t) n
  | skip previous n c rest hskips ih =>
      rw [List.cons_append, scan_of_skips (hskips.append_semicolon t), ih, List.length_cons,
        Nat.add_right_comm n, Nat.add_assoc n]
  | token previous n text k value rest hlexeme ih =>
      rw [scan_of_lexeme (hlexeme.append_semicolon t), ih, hlexeme.text_eq, List.length_append, Nat.add_assoc n]
      rfl

end Token

namespace Parameter

open Braces

/-- A semicolon ends the parameter that has begun, and the assembly goes on as at its start, with the braces
that are open. -/
theorem assemble_append_semicolon {t : Token} (ht : t.kind = .semicolon) (depth : Int) (afterColon : Bool)
    (pending : Option Parameter) (ts us : List Token) :
    assemble depth afterColon pending (ts ++ t :: us) =
      assemble depth afterColon pending ts ++ assemble (ts.foldl nextDepth depth) false none us := by
  induction ts generalizing depth afterColon pending with
  | nil =>
      have hcolon : (t.kind == .colon) = false := by rw [ht]; rfl
      rw [List.nil_append, assemble_cons, hcolon]
      simp [emitted, nextDepth, nextPending, ht, assemble_nil]
  | cons u ts ih => rw [List.cons_append, assemble_cons, ih, assemble_cons, List.append_assoc, List.foldl_cons]

theorem untyped_append_semicolon {t : Token} (ht : t.kind = .semicolon) (ts us : List Token) :
    untyped (ts ++ t :: us) = untyped ts ++ untyped us := by
  induction ts with
  | nil =>
      have hstart : t.startsParameter = false := by simp [Token.startsParameter, ht]
      rw [List.nil_append, untyped_cons, hstart]
      rfl
  | cons u ts ih =>
      have hnext : endsUntyped (ts ++ t :: us).head? = endsUntyped ts.head? := by
        cases ts with
        | nil => simp [endsUntyped, ht]
        | cons v ts => rfl
      rw [List.cons_append, untyped_cons, hnext, ih, untyped_cons, List.append_assoc]

theorem ofTokens_map_shift (n : Nat) (ts : List Token) : ofTokens (ts.map (Token.shift n)) = ofTokens ts := by
  rw [← ofTokens_map_unplaced, Token.map_unplaced_map_shift, ofTokens_map_unplaced]

theorem untyped_map_shift (n : Nat) (ts : List Token) : untyped (ts.map (Token.shift n)) = untyped ts := by
  rw [← untyped_map_unplaced, Token.map_unplaced_map_shift, untyped_map_unplaced]

theorem depthOf_ofText (text : Text) : depthOf (Token.ofText text) = text.count '{' - text.count '}' := by
  have hdepth := depthOf_add_strayBraces (Token.ofText text)
  obtain ⟨hstray, hblocks⟩ := Structure.braces_scan 0 none 0 text
  have hsurplus : surplus text = text.count '}' - text.count '{' := rfl
  rw [Token.ofText] at hdepth ⊢
  rw [Structure.openBlocks] at hdepth
  omega

/-- Two lists with a semicolon between them are read one after the other. If the first closes as many braces
as it opens, their parameters and their missing types are those of each. -/
theorem ofText_append_semicolon (s t : Text) :
    Token.ofText (s ++ ';' :: t) =
        Token.ofText s ++ ⟨.semicolon, [';'], s.length⟩ :: (Token.ofText t).map (Token.shift (s.length + 1)) ∧
      (s.count '{' = s.count '}' →
        ofTokens (Token.ofText (s ++ ';' :: t)) = ofTokens (Token.ofText s) ++ ofTokens (Token.ofText t) ∧
          untyped (Token.ofText (s ++ ';' :: t)) = untyped (Token.ofText s) ++ untyped (Token.ofText t)) := by
  have htokens : Token.ofText (s ++ ';' :: t) =
      Token.ofText s ++ ⟨.semicolon, [';'], s.length⟩ :: (Token.ofText t).map (Token.shift (s.length + 1)) := by
    have hshift :
        Token.scan (some .semicolon) (s.length + 1) t = (Token.ofText t).map (Token.shift (s.length + 1)) :=
      Token.scan_eq_map_shift (by simp) (s.length + 1) 0 t
    rw [Token.ofText, Token.scan_append_semicolon, Nat.zero_add, hshift]
    rfl
  refine ⟨htokens, ?_⟩
  intro hbraces
  have hdepth : (Token.ofText s).foldl nextDepth 0 = 0 := by
    have h := depthOf_ofText s
    rw [depthOf] at h
    omega
  rw [htokens]
  constructor
  · rw [ofTokens, assemble_append_semicolon rfl, hdepth, ← ofTokens, ← ofTokens, ofTokens_map_shift]
  · rw [untyped_append_semicolon rfl, untyped_map_shift]

/-- It is the number of braces that counts, not how they nest, and a list may end in the middle of anything. -/
theorem ofText_append_semicolon_of_crossed_braces :
    ∃ s t, s = "\x7d a : ,Text \x7b b.. -".toList ∧ t = "...c * d : Real,".toList ∧
      s.count '{' = s.count '}' ∧
      ofTokens (Token.ofText (s ++ ';' :: t)) =
        [⟨['a'], ",Text".toList, false, false⟩, ⟨"b..".toList, unknownType, false, false⟩,
          ⟨['-'], unknownType, false, false⟩, operator false, ⟨['c'], unknownType, false, true⟩,
          ⟨['d'], "Real,".toList, false, false⟩] ∧
      untyped (Token.ofText (s ++ ';' :: t)) = [.untypedParameter ['-']] := by
  have hbraces :
      "\x7d a : ,Text \x7b b.. -".toList.count '{' = "\x7d a : ,Text \x7b b.. -".toList.count '}' := by
    decide
  obtain ⟨hparameters, huntyped⟩ := (ofText_append_semicolon "\x7d a : ,Text \x7b b.. -".toList
    "...c * d : Real,".toList).2 hbraces
  refine ⟨_, _, rfl, rfl, hbraces, ?_, ?_⟩
  · rw [hparameters]
    decide +kernel
  · rw [huntyped]
    decide +kernel

end Parameter

end Synopsis
