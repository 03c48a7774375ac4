import Synopsis.Proofs.ParameterSteps
import Synopsis.Proofs.StructureChecks
import Synopsis.Proofs.TokenScan
import Synopsis.Variant

/-!
# Tokens without their offsets

Nothing that is read from tokens looks at their offsets, and of the token before a text only one thing
matters: whether it is a colon. So the tokens of a text are determined by the text and by that, and the
tokens of a text in parts are those of its parts.
-/

namespace Synopsis

namespace Token

def unplaced (t : Token) : Token :=
  { t with offset := 0 }

/-- The tokens of a text, behind a colon or not. -/
def spelled (afterColon : Bool) (t : Text) : List Token :=
  (scan (if afterColon then some .colon else none) 0 t).map unplaced

theorem ofRun_congr {previous previous' : Option Kind} (h : previous = some .colon ↔ previous' = some .colon)
    (t : Text) : Kind.ofRun previous t = Kind.ofRun previous' t := by
  simp only [Kind.ofRun, h]

theorem Skips.congr {previous previous' : Option Kind} (h : previous = some .colon ↔ previous' = some .colon)
    {c : Char} {rest : Text} (hskips : Skips previous c rest) : Skips previous' c rest := by
  unfold Skips at hskips ⊢
  rwa [← ofRun_congr h]

theorem Lexeme.congr {previous previous' : Option Kind} (h : previous = some .colon ↔ previous' = some .colon)
    {text value rest : Text} {k : Kind} (hlexeme : Lexeme previous text k value rest) :
    Lexeme previous' text k value rest := by
  cases hlexeme with
  | escapedAsterisk rest => exact .escapedAsterisk rest
  | arrow rest => exact .arrow rest
  | punctuation hmark rest => exact .punctuation hmark rest
  | run hkind hgap hmark harrow hword hstop =>
      rw [ofRun_congr h] at hkind
      exact .run hkind hgap hmark harrow hword hstop

/-- A token with `n` more characters before it. -/
def shift (n : Nat) (t : Token) : Token :=
  { t with offset := n + t.offset }

theorem scan_eq_map_shift {previous previous' : Option Kind}
    (h : previous = some .colon ↔ previous' = some .colon)
    (m n : Nat) (text : Text) : scan previous (m + n) text = (scan previous' n text).map (shift m) := by
  induction previous', n, text using scan_induction generalizing previous with
  | nil previous' n =>
      rw [scan]
      rfl
  | skip previous' n c rest hskips ih =>
      rw [scan_of_skips (hskips.congr h.symm), Nat.add_assoc]
      exact ih h
  | token previous' n text k value rest hlexeme ih =>
      rw [scan_of_lexeme (hlexeme.congr h.symm), List.map_cons, Nat.add_assoc]
      exact congrArg _ (ih Iff.rfl)

theorem map_unplaced_map_shift (n : Nat) (ts : List Token) :
    (ts.map (shift n)).map unplaced = ts.map unplaced := by
  rw [List.map_map]
  rfl

theorem map_unplaced_scan_congr {previous previous' : Option Kind} {n n' : Nat} {text : Text}
    (h : previous = some .colon ↔ previous' = some .colon) :
    (scan previous n text).map unplaced = (scan previous' n' text).map unplaced := by
  rw [← Nat.add_zero n, ← Nat.add_zero n', scan_eq_map_shift h, scan_eq_map_shift (Iff.refl _),
    map_unplaced_map_shift, map_unplaced_map_shift]

theorem map_unplaced_scan (previous : Option Kind) (n : Nat) (text : Text) :
    (scan previous n text).map unplaced = spelled (previous == some .colon) text := by
  apply map_unplaced_scan_congr
  cases h : previous == some .colon with
  | true => simpa using h
  | false => simpa using h

theorem map_unplaced_ofText (text : Text) : (ofText text).map unplaced = spelled false text := rfl

theorem spelled_nil (afterColon : Bool) : spelled afterColon [] = [] := by
  rw [spelled, scan]
  rfl

theorem spelled_of_skips {previous : Option Kind} {c : Char} {rest : Text} (h : Skips previous c rest) :
    spelled (previous == some .colon) (c :: rest) = spelled (previous == some .colon) rest := by
  rw [← map_unplaced_scan previous 0, scan_of_skips h, map_unplaced_scan]

theorem spelled_of_lexeme {previous : Option Kind} {text value rest : Text} {k : Kind}
    (h : Lexeme previous text k value rest) :
    spelled (previous == some .colon) text = ⟨k, value, 0⟩ :: spelled (k == .colon) rest := by
  rw [← map_unplaced_scan previous 0, scan_of_lexeme h, List.map_cons, map_unplaced_scan]
  rfl

theorem spelled_cons_of_isGap {c : Char} (hc : isGap c = true) (afterColon : Bool) (t : Text) :
    spelled afterColon (c :: t) = spelled afterColon t := by
  cases afterColon with
  | true => exact @spelled_of_skips (some .colon) c t (.inl hc)
  | false => exact @spelled_of_skips none c t (.inl hc)

theorem spelled_punctuation {c : Char} {k : Kind} (hc : Kind.ofPunctuation? c = some k) (afterColon : Bool)
    (t : Text) : spelled afterColon (c :: t) = ⟨k, [c], 0⟩ :: spelled (k == .colon) t := by
  cases afterColon with
  | true => exact @spelled_of_lexeme (some .colon) _ _ _ _ (.punctuation hc t)
  | false => exact @spelled_of_lexeme none _ _ _ _ (.punctuation hc t)

theorem spelled_arrow (t : Text) :
    spelled false ('-' :: '>' :: t) = ⟨.arrow, ['-', '>'], 0⟩ :: spelled false t :=
  @spelled_of_lexeme none _ _ _ _ (.arrow t)

end Token

namespace Parameter

theorem assemble_map_unplaced (depth : Int) (afterColon : Bool) (pending : Option Parameter) (ts : List Token) :
    assemble depth afterColon pending (ts.map Token.unplaced) = assemble depth afterColon pending ts := by
  induction ts generalizing depth afterColon pending with
  | nil => rfl
  | cons t ts ih =>
      rw [List.map_cons, assemble_cons, assemble_cons, ih]
      rfl

theorem ofTokens_map_unplaced (ts : List Token) : ofTokens (ts.map Token.unplaced) = ofTokens ts :=
  assemble_map_unplaced 0 false none ts

theorem untyped_map_unplaced (ts : List Token) : untyped (ts.map Token.unplaced) = untyped ts := by
  induction ts with
  | nil => rfl
  | cons t ts ih =>
      rw [List.map_cons, untyped_cons, untyped_cons, ih]
      cases ts <;> rfl

end Parameter

namespace Structure

theorem kind_head?_map_unplaced (ts : List Token) :
    (ts.map Token.unplaced).head?.map Token.kind = ts.head?.map Token.kind := by
  cases ts <;> rfl

theorem braces_map_unplaced (depth : Nat) (ts : List Token) :
    braces depth (ts.map Token.unplaced) = braces depth ts := by
  induction ts generalizing depth with
  | nil => rfl
  | cons t ts ih =>
      rw [List.map_cons, braces_cons, braces_cons, ih]
      rfl

theorem doubleSemicolons_map_unplaced (ts : List Token) :
    doubleSemicolons (ts.map Token.unplaced) = doubleSemicolons ts := by
  induction ts with
  | nil => rfl
  | cons t ts ih =>
      rw [List.map_cons, doubleSemicolons_cons, doubleSemicolons_cons, ih, kind_head?_map_unplaced]
      rfl

theorem emptyParameters_map_unplaced (ts : List Token) :
    emptyParameters (ts.map Token.unplaced) = emptyParameters ts := by
  cases ts with
  | nil => rfl
  | cons t ts =>
      rw [List.map_cons, emptyParameters, emptyParameters, kind_head?_map_unplaced,
        doubleSemicolons_map_unplaced]
      rfl

theorem colons_map_unplaced (previous : Option Token.Kind) (ts : List Token) :
    colons previous (ts.map Token.unplaced) = colons previous ts := by
  induction ts generalizing previous with
  | nil => rfl
  | cons t ts ih =>
      rw [List.map_cons, colons_cons, colons_cons, ih, kind_head?_map_unplaced]
      rfl

theorem names_map_unplaced (policy : Policy) (ts : List Token) :
    names policy (ts.map Token.unplaced) = names policy ts := by
  simp only [names, List.filter_map, List.flatMap_map]
  rfl

theorem types_map_unplaced (ts : List Token) : types (ts.map Token.unplaced) = types ts := by
  simp only [types, List.filter_map, List.map_map]
  rfl

theorem issues_map_unplaced (policy : Policy) (ts : List Token) :
    issues policy (ts.map Token.unplaced) = issues policy ts := by
  rw [issues, braces_map_unplaced, emptyParameters_map_unplaced, colons_map_unplaced, names_map_unplaced,
    types_map_unplaced]
  rfl

end Structure

namespace ReturnType

theorem ofTokens_map_unplaced (ts : List Token) : ofTokens (ts.map Token.unplaced) = ofTokens ts := by
  cases ts with
  | nil => rfl
  | cons t ts =>
      have hfirst : ((ts.map Token.unplaced).head?.filter fun t => t.kind != .colon).map trimmedValue =
          (ts.head?.filter fun t => t.kind != .colon).map trimmedValue := by
        rw [List.head?_map, Option.filter_map, Option.map_map]
        rfl
      have hdrop : (((ts.map Token.unplaced).dropWhile fun t => t.kind != .colon).tail.head?.map trimmedValue) =
          (ts.dropWhile fun t => t.kind != .colon).tail.head?.map trimmedValue := by
        rw [List.dropWhile_map, ← List.map_tail, List.head?_map, Option.map_map]
        rfl
      have hhead : (ts.map Token.unplaced).head?.map trimmedValue = ts.head?.map trimmedValue := by
        rw [List.head?_map, Option.map_map]
        rfl
      rw [List.map_cons, ofTokens, ofTokens, hfirst, hdrop, hhead]
      rfl

end ReturnType

theorem Variant.malformationOf_map_unplaced (policy : Policy) (ts : List Token) :
    malformationOf policy (ts.map Token.unplaced) = malformationOf policy ts := by
  rw [malformationOf, Structure.issues_map_unplaced, Parameter.untyped_map_unplaced]
  rfl

end Synopsis
