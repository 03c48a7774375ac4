import Synopsis.Proofs.BraceNesting
import Synopsis.Proofs.OptionalBlocks
import Synopsis.Proofs.VariantLetters

/-!
# Braces from the text to the issues

Stripping never touches a brace, and no token but that of the brace itself holds one. So what the check of the
braces reports of a parameter section can be read off its text: one issue for each brace that closes nothing,
one for those that stay open, and none at all exactly when the braces are nested.
-/

namespace Synopsis

namespace Emphasis

open Text

section Filter

variable {p : Char → Bool}

theorem filter_showEscapes (hbackslash : p '\\' = false) (hasterisk : p '*' = false)
    (hstandIn : p standIn = false) (t : Text) : (showEscapes t).filter p = t.filter p := by
  induction t with
  | nil => rfl
  | cons c t ih =>
      rw [showEscapes_cons, List.filter_append, ih]
      by_cases hc : c = standIn
      · simp [hc, hbackslash, hasterisk, hstandIn]
      · rw [if_neg hc, ← List.filter_append, List.singleton_append]

theorem filter_hideEscapes (hbackslash : p '\\' = false) (hasterisk : p '*' = false)
    (hstandIn : p standIn = false) (t : Text) : (hideEscapes t).filter p = t.filter p := by
  rw [← filter_showEscapes hbackslash hasterisk hstandIn, showEscapes_hideEscapes,
    filter_showEscapes hbackslash hasterisk hstandIn]

theorem filter_intercalate (hasterisk : p '*' = false) (pieces : List Text) :
    (['*'].intercalate pieces).filter p = pieces.flatMap (List.filter p) := by
  refine intercalate_eq_flatMap (f := List.filter p) rfl (fun s t => ?_) pieces
  simp [hasterisk]

theorem flatMap_filter_appendFirst (s : Text) (pieces : List Text) :
    (appendFirst s pieces).flatMap (List.filter p) = s.filter p ++ pieces.flatMap (List.filter p) := by
  cases pieces <;> simp [appendFirst]

theorem flatMap_filter_unwrap (isWord : Text → Bool) (pieces : List Text) :
    (unwrap isWord pieces).flatMap (List.filter p) = pieces.flatMap (List.filter p) := by
  fun_induction unwrap isWord pieces with
  | case1 before word next pieces hword ih =>
      rw [joinFirst_eq_appendFirst, flatMap_filter_appendFirst, ih]
      simp
  | case2 before word next pieces hword ih =>
      rw [List.flatMap_cons, ih]
      rfl
  | case3 pieces hpieces => rfl

theorem filter_unmarked (hasterisk : p '*' = false) (t : Text) : (unmarked t).filter p = t.filter p := by
  have hpieces := filter_intercalate hasterisk (cutAt '*' t)
  rw [intercalate_cutAt] at hpieces
  rw [unmarked, filter_intercalate hasterisk, stripPieces, flatMap_filter_unwrap, flatMap_filter_unwrap,
    flatMap_filter_unwrap, ← hpieces]

/-- Stripping keeps every character that has nothing to do with asterisks, in its order. -/
theorem filter_strip (hbackslash : p '\\' = false) (hasterisk : p '*' = false) (hstandIn : p standIn = false)
    (t : Text) : (strip t).filter p = t.filter p := by
  rw [strip_eq_showEscapes_unmarked, filter_showEscapes hbackslash hasterisk hstandIn,
    filter_unmarked hasterisk, filter_hideEscapes hbackslash hasterisk hstandIn]

end Filter

end Emphasis

namespace Token

open Braces

theorem not_admits_brace (k : Kind) : k.admits '{' = false ∧ k.admits '}' = false := by
  cases k <;> decide

theorem not_isBrace_of_admits {k : Kind} {c : Char} (h : k.admits c = true) : isBrace c = false := by
  obtain ⟨hopen, hclose⟩ := not_admits_brace k
  refine not_isBrace_of_ne ?_ ?_
  · rintro rfl
    rw [hopen] at h
    cases h
  · rintro rfl
    rw [hclose] at h
    cases h

theorem brace_of_ofPunctuation? {c : Char} {k : Kind} (h : Kind.ofPunctuation? c = some k) :
    k = .openBrace ∧ c = '{' ∨ k = .closeBrace ∧ c = '}' ∨
      k ≠ .openBrace ∧ k ≠ .closeBrace ∧ isBrace c = false := by
  unfold Kind.ofPunctuation? at h
  split at h <;> cases h <;> decide

/-- A token is a brace, or it is of another kind and holds none. -/
theorem Lexeme.brace_cases {previous : Option Kind} {text value rest : Text} {k : Kind}
    (h : Lexeme previous text k value rest) :
    k = .openBrace ∧ value = ['{'] ∨ k = .closeBrace ∧ value = ['}'] ∨
      k ≠ .openBrace ∧ k ≠ .closeBrace ∧ ∀ c ∈ value, isBrace c = false := by
  cases h with
  | escapedAsterisk => exact .inr (.inr ⟨by decide, by decide, by simp [isBrace]⟩)
  | arrow => exact .inr (.inr ⟨by decide, by decide, by simp [isBrace]⟩)
  | punctuation hmark =>
      rcases brace_of_ofPunctuation? hmark with ⟨hk, rfl⟩ | ⟨hk, rfl⟩ | ⟨hopen, hclose, hc⟩
      · exact .inl ⟨hk, rfl⟩
      · exact .inr (.inl ⟨hk, rfl⟩)
      · exact .inr (.inr ⟨hopen, hclose, by simpa using hc⟩)
  | @run c k word rest hkind hgap hmark harrow hword hstop =>
      obtain ⟨hopen, hclose⟩ : k ≠ .openBrace ∧ k ≠ .closeBrace := by
        rw [← hkind]
        rcases ofRun_cases previous (c :: (word ++ rest)) with hrun | hrun | hrun <;> rw [hrun] <;> decide
      exact .inr (.inr ⟨hopen, hclose, fun d hd => not_isBrace_of_admits (hword d hd)⟩)

theorem Skips.not_isBrace {previous : Option Kind} {c : Char} {rest : Text} (h : Skips previous c rest) :
    isBrace c = false := by
  rcases h with hgap | ⟨-, hmark, -⟩
  · apply not_isBrace_of_ne <;> rintro rfl <;> exact absurd hgap (by decide)
  · apply not_isBrace_of_ne <;> rintro rfl <;> cases hmark

end Token

namespace Structure

open Braces

theorem step_open {t : Token} (ht : t.kind = .openBrace) (depth : Nat) :
    strayAt depth t = 0 ∧ clampedDepth depth t = depth + 1 := by
  simp [strayAt, clampedDepth, ht]

theorem step_close_zero {t : Token} (ht : t.kind = .closeBrace) : strayAt 0 t = 1 ∧ clampedDepth 0 t = 0 := by
  simp [strayAt, clampedDepth, ht]

theorem step_close_succ {t : Token} (ht : t.kind = .closeBrace) (depth : Nat) :
    strayAt (depth + 1) t = 0 ∧ clampedDepth (depth + 1) t = depth := by
  simp [strayAt, clampedDepth, ht]

theorem step_of_ne {t : Token} (hopen : t.kind ≠ .openBrace) (hclose : t.kind ≠ .closeBrace) (depth : Nat) :
    strayAt depth t = 0 ∧ clampedDepth depth t = depth := by
  simp [strayAt, clampedDepth, hclose]

/-- The count that starts anew behind a stray brace reaches what the largest surplus says, less the blocks that
were open before the text. -/
theorem braces_scan (depth : Nat) (previous : Option Token.Kind) (n : Nat) (text : Text) :
    (strayBraces depth (Token.scan previous n text) : Int) = max 0 (stray text - depth) ∧
      ((Token.scan previous n text).foldl clampedDepth depth : Nat) =
        depth - surplus text + max 0 (stray text - depth) := by
  induction previous, n, text using Token.scan_induction generalizing depth with
  | nil previous n =>
      simp only [strayBraces, List.foldl_nil, stray_nil, surplus_nil]
      omega
  | skip previous n c rest hskip ih =>
      rw [stray_cons_of_not_isBrace hskip.not_isBrace, surplus_cons_of_not_isBrace hskip.not_isBrace]
      exact ih depth
  | token previous n text k value rest hlexeme ih =>
      have hnonneg := stray_nonneg rest
      rw [strayBraces, List.foldl_cons, hlexeme.text_eq]
      rcases hlexeme.brace_cases with ⟨rfl, rfl⟩ | ⟨rfl, rfl⟩ | ⟨hopen, hclose, hvalue⟩
      · obtain ⟨hstray, hblocks⟩ := ih (depth + 1)
        obtain ⟨hat, hdepth⟩ := step_open (t := ⟨.openBrace, ['{'], n⟩) rfl depth
        rw [hat, hdepth, List.singleton_append, stray_open, surplus_cons, weight_open]
        omega
      · rw [List.singleton_append, stray_close, surplus_cons, weight_close]
        cases depth with
        | zero =>
            obtain ⟨hstray, hblocks⟩ := ih 0
            obtain ⟨hat, hdepth⟩ := step_close_zero (t := ⟨.closeBrace, ['}'], n⟩) rfl
            rw [hat, hdepth]
            omega
        | succ depth =>
            obtain ⟨hstray, hblocks⟩ := ih depth
            obtain ⟨hat, hdepth⟩ := step_close_succ (t := ⟨.closeBrace, ['}'], n⟩) rfl depth
            rw [hat, hdepth]
            omega
      · obtain ⟨hat, hdepth⟩ := step_of_ne (t := ⟨k, value, n⟩) hopen hclose depth
        obtain ⟨hstray, hsurplus⟩ := counts_append_of_forall hvalue rest
        rw [hat, hdepth, hstray, hsurplus, Nat.zero_add]
        exact ih depth

theorem braces_ofText (text : Text) :
    braces 0 (Token.ofText text) = List.replicate (stray text).toNat .extraClosingBrace ++
      if 0 < unclosed text then [.unclosedOptionalBlock (unclosed text)] else [] := by
  obtain ⟨hstray, hblocks⟩ := braces_scan 0 none 0 text
  have hnonneg := stray_nonneg text
  have hclosed := unclosed_eq text
  have happend := braces_append 0 (Token.ofText text) []
  rw [List.append_nil, braces_nil] at happend
  have hcount : strayBraces 0 (Token.ofText text) = (stray text).toNat := by
    rw [Token.ofText]
    omega
  have hopen : (((Token.ofText text).foldl clampedDepth 0 : Nat) : Int) = unclosed text := by
    rw [Token.ofText]
    omega
  rw [happend, hcount, hopen]
  by_cases hzero : (Token.ofText text).foldl clampedDepth 0 = 0
  · rw [if_pos hzero, if_neg (by omega)]
  · rw [if_neg hzero, if_pos (by omega)]

end Structure

namespace Variant

open Braces

/-- The text of the parameter section, trimmed, if the variant has one that ends. -/
def sectionText (v : Variant) : Option Text :=
  match Enclosure.ofText v.sourceText with
  | .enclosed _ inside _ => some (Text.trim inside)
  | _ => none

theorem issues_of_mem_parse {policy : Policy} {t : Text} {v : Variant} (h : v ∈ parse policy t) {x : Text}
    (hx : v.sectionText = some x) :
    v.malformation.getD [] = Structure.issues policy (tokens x) ++ Parameter.untyped (tokens x) := by
  obtain ⟨piece, -, -, rfl⟩ := mem_parse_iff.mp h
  rw [sectionText, sourceText_ofText] at hx
  unfold ofText
  split at hx
  · next head inside tail hform =>
      cases hx
      rw [hform]
      exact getD_malformationOf policy _
  · cases hx

theorem braces_tokens (x : Text) :
    Structure.braces 0 (tokens x) = List.replicate (stray x).toNat .extraClosingBrace ++
      if 0 < unclosed x then [.unclosedOptionalBlock (unclosed x)] else [] := by
  have hfilter : (Emphasis.strip x).filter isBrace = x.filter isBrace :=
    Emphasis.filter_strip (by decide) (by decide) (by decide) x
  have hstrip := counts_filter (Emphasis.strip x)
  rw [hfilter] at hstrip
  obtain ⟨hstray, hsurplus⟩ := counts_filter x
  rw [tokens, Structure.braces_ofText, unclosed_eq, unclosed_eq, ← hstrip.1, ← hstrip.2, hstray, hsurplus]

theorem filter_issues_of_mem_parse {policy : Policy} {t : Text} {v : Variant} (h : v ∈ parse policy t)
    {x : Text} (hx : v.sectionText = some x) :
    (v.malformation.getD []).filter (fun i => i.kind == .extraClosingBrace) =
        List.replicate (stray x).toNat .extraClosingBrace ∧
      (v.malformation.getD []).filter (fun i => i.kind == .unclosedOptionalBlock) =
        if 0 < unclosed x then [.unclosedOptionalBlock (unclosed x)] else [] := by
  rw [issues_of_mem_parse h hx]
  constructor
  · rw [Structure.filter_issues_of_kind (c := .braces) rfl, Structure.Check.run, braces_tokens]
    split <;> simp [Issue.kind]
  · rw [Structure.filter_issues_of_kind (c := .braces) rfl, Structure.Check.run, braces_tokens]
    split <;> simp [Issue.kind]

/-- Blocks that stay open are reported of a parameter section only, with their number. -/
theorem exists_unclosed_of_mem_parse {policy : Policy} {t : Text} {v : Variant} (h : v ∈ parse policy t)
    {missing : Int} (hmissing : .unclosedOptionalBlock missing ∈ v.malformation.getD []) :
    ∃ x, v.sectionText = some x ∧ missing = unclosed x := by
  cases hsection : v.sectionText with
  | none =>
      obtain ⟨piece, -, -, rfl⟩ := mem_parse_iff.mp h
      rw [sectionText, sourceText_ofText] at hsection
      unfold ofText at hmissing
      split at hmissing
      · cases hmissing
      · simp at hmissing
      · next hform =>
          rw [hform] at hsection
          cases hsection
  | some x =>
      have hmem : .unclosedOptionalBlock missing ∈
          (v.malformation.getD []).filter (fun i => i.kind == .unclosedOptionalBlock) :=
        List.mem_filter.mpr ⟨hmissing, rfl⟩
      rw [(filter_issues_of_mem_parse h hsection).2] at hmem
      split at hmem
      · exact ⟨x, rfl, by simpa using hmem⟩
      · cases hmem

theorem length_sectionText_le {policy : Policy} {t : Text} {v : Variant} (h : v ∈ parse policy t) {x : Text}
    (hx : v.sectionText = some x) : x.length ≤ t.length := by
  obtain ⟨piece, hpiece, -, rfl⟩ := mem_parse_iff.mp h
  rw [sectionText, sourceText_ofText] at hx
  split at hx
  · next head inside tail hform =>
      cases hx
      calc (Text.trim inside).length ≤ inside.length := (Text.isInfix_trim inside).length_le
        _ ≤ (Text.trim piece).length := (Enclosure.sublist_of_ofText_eq_enclosed hform).1.length_le
        _ ≤ piece.length := (Text.isInfix_trim piece).length_le
        _ ≤ t.length := length_le_of_mem_cut hpiece
  · cases hx

theorem natAbs_le_length_of_mem_parse {policy : Policy} {t : Text} {v : Variant} (h : v ∈ parse policy t)
    {missing : Int} (hmissing : .unclosedOptionalBlock missing ∈ v.malformation.getD []) :
    missing.natAbs ≤ t.length := by
  obtain ⟨x, hx, rfl⟩ := exists_unclosed_of_mem_parse h hmissing
  have hnonneg := unclosed_nonneg x
  have hbound := unclosed_le_length x
  have hlength := length_sectionText_le h hx
  omega

/-- A brace that closes nothing makes one issue and those that stay open make one together, both counted in the
text of the section; without any of them its braces are nested. -/
theorem brace_issues_of_mem_parse {policy : Policy} {t : Text} {v : Variant} (h : v ∈ parse policy t) {x : Text}
    (hx : v.sectionText = some x) :
    ((v.malformation.getD []).countP (fun i => i.kind == .extraClosingBrace) : Int) = stray x ∧
      (v.malformation.getD []).filter (fun i => i.kind == .unclosedOptionalBlock) =
        (if 0 < unclosed x then [.unclosedOptionalBlock (unclosed x)] else []) ∧
      0 ≤ unclosed x ∧
      ((∀ i ∈ v.malformation.getD [], i.kind ≠ .extraClosingBrace ∧ i.kind ≠ .unclosedOptionalBlock) ↔
        Nested x) := by
  have hnonneg := stray_nonneg x
  have hopen := unclosed_nonneg x
  obtain ⟨hextra, hunclosed⟩ := filter_issues_of_mem_parse h hx
  refine ⟨?_, hunclosed, hopen, ?_⟩
  · rw [List.countP_eq_length_filter, hextra, List.length_replicate]
    omega
  · have hnone : (∀ i ∈ v.malformation.getD [],
          i.kind ≠ .extraClosingBrace ∧ i.kind ≠ .unclosedOptionalBlock) ↔
        (v.malformation.getD []).filter (fun i => i.kind == .extraClosingBrace) = [] ∧
          (v.malformation.getD []).filter (fun i => i.kind == .unclosedOptionalBlock) = [] := by
      simp only [List.filter_eq_nil_iff, beq_iff_eq, ne_eq, forall_and]
    rw [hnone, hextra, hunclosed, nested_iff, List.replicate_eq_nil_iff]
    refine and_congr (by omega) ?_
    split
    · simp only [List.cons_ne_self, false_iff]
      omega
    · simp only [true_iff]
      omega

/-- Behind a stray brace four blocks are opened, and one of them is closed. -/
theorem brace_issues_of_three_open_blocks :
    ∃ x, x = "\\\x7d *a\x7b* ; \x7b b : Text,\x7d -> \x7b\\\\\x7b c".toList ∧
      ∃ v ∈ parse ⟨true, true⟩ "f( \\\x7d *a\x7b* ; \x7b b : Text,\x7d -> \x7b\\\\\x7b c ) : T".toList,
        v.sectionText = some x ∧ stray x = 1 ∧ unclosed x = 3 ∧
          (v.malformation.getD []).countP (fun i => i.kind == .extraClosingBrace) = 1 ∧
          (v.malformation.getD []).filter (fun i => i.kind == .unclosedOptionalBlock) =
            [.unclosedOptionalBlock 3] ∧
          ¬ Nested x := by
  have hparsed :
      ∃ v ∈ parse ⟨true, true⟩ "f( \\\x7d *a\x7b* ; \x7b b : Text,\x7d -> \x7b\\\\\x7b c ) : T".toList,
        v.sectionText = some "\\\x7d *a\x7b* ; \x7b b : Text,\x7d -> \x7b\\\\\x7b c".toList := by
    decide +kernel
  have hstray : stray "\\\x7d *a\x7b* ; \x7b b : Text,\x7d -> \x7b\\\\\x7b c".toList = 1 := by decide +kernel
  have hunclosed : unclosed "\\\x7d *a\x7b* ; \x7b b : Text,\x7d -> \x7b\\\\\x7b c".toList = 3 := by
    decide +kernel
  obtain ⟨v, hv, hsection⟩ := hparsed
  obtain ⟨hcount, hfilter, -, -⟩ := brace_issues_of_mem_parse hv hsection
  rw [hstray] at hcount
  rw [hunclosed] at hfilter
  refine ⟨_, rfl, v, hv, hsection, hstray, hunclosed, by omega, hfilter, ?_⟩
  intro h
  have hzero := (nested_iff.mp h).1
  rw [hstray] at hzero
  cases hzero

end Variant

end Synopsis
