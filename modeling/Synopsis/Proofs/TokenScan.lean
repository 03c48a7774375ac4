import Mathlib.Data.List.DropRight
import Synopsis.Token.Lexer

/-!
# Steps of reading tokens

Reading goes on in steps: at each one the text begins with a token, which is taken together with all that
belongs to it, or its first character is dropped. The steps are stated here once, and what holds of every
token follows by induction on them. Offsets only count; the kinds and values do not depend on them.
-/

namespace Synopsis

namespace Token

/-- `text` begins with a token of kind `k` that reads `value`, and `rest` stands behind it. -/
inductive Lexeme (previous : Option Kind) : (text : Text) → (k : Kind) → (value rest : Text) → Prop
  | escapedAsterisk (rest : Text) : Lexeme previous ('\\' :: '*' :: rest) .escapedAsterisk ['\\', '*'] rest
  | arrow (rest : Text) : Lexeme previous ('-' :: '>' :: rest) .arrow ['-', '>'] rest
  | punctuation {c : Char} {k : Kind} (hmark : Kind.ofPunctuation? c = some k) (rest : Text) :
      Lexeme previous (c :: rest) k [c] rest
  | run {c : Char} {k : Kind} {word rest : Text} (hkind : Kind.ofRun previous (c :: (word ++ rest)) = k)
      (hgap : isGap c = false) (hmark : Kind.ofPunctuation? c = none)
      (harrow : ¬ ['-', '>'] <+: c :: (word ++ rest)) (hword : ∀ d ∈ c :: word, k.admits d = true)
      (hstop : ∀ d ∈ rest.head?, k.admits d = false) :
      Lexeme previous (c :: (word ++ rest)) k (c :: word) rest

/-- `c` is dropped: it is a gap, or no token begins with it. -/
def Skips (previous : Option Kind) (c : Char) (rest : Text) : Prop :=
  isGap c = true ∨ ¬ ['\\', '*'] <+: c :: rest ∧ Kind.ofPunctuation? c = none ∧
    (Kind.ofRun previous (c :: rest)).admits c = false

theorem Lexeme.text_eq {previous : Option Kind} {text value rest : Text} {k : Kind}
    (h : Lexeme previous text k value rest) : text = value ++ rest := by
  cases h <;> rfl

theorem Lexeme.value_ne_nil {previous : Option Kind} {text value rest : Text} {k : Kind}
    (h : Lexeme previous text k value rest) : value ≠ [] := by
  cases h <;> simp

theorem not_pair_of_ne {a b c : Char} (h : c ≠ a) (rest : Text) : ¬ [a, b] <+: c :: rest := by
  intro hpair
  exact h (List.cons_prefix_cons.mp hpair).1.symm

theorem ne_of_isGap {c : Char} (h : isGap c = true) : c ≠ '\\' ∧ c ≠ '-' := by
  constructor <;> rintro rfl <;> exact absurd h (by decide)

theorem of_ofPunctuation? {c : Char} {k : Kind} (h : Kind.ofPunctuation? c = some k) :
    isGap c = false ∧ c ≠ '\\' ∧ c ≠ '-' ∧ k ≠ .parameterName ∧ k ≠ .spread ∧
      k ≠ .typeName := by
  unfold Kind.ofPunctuation? at h
  split at h <;> cases h <;> decide

theorem ofRun_cases (previous : Option Kind) (t : Text) :
    Kind.ofRun previous t = .spread ∨ Kind.ofRun previous t = .typeName ∨
      Kind.ofRun previous t = .parameterName := by
  unfold Kind.ofRun
  split
  · exact .inl rfl
  · split
    · exact .inr (.inl rfl)
    · exact .inr (.inr rfl)

theorem not_admits_backslash (k : Kind) : k.admits '\\' = false := by
  cases k <;> decide

theorem scan_cons {c : Char} {rest : Text} (hescape : ¬ ['\\', '*'] <+: c :: rest)
    (harrow : ¬ ['-', '>'] <+: c :: rest) (previous : Option Kind) (n : Nat) :
    scan previous n (c :: rest) =
      if isGap c then scan previous (n + 1) rest
      else match Kind.ofPunctuation? c with
        | some k => ⟨k, [c], n⟩ :: scan (some k) (n + 1) rest
        | none =>
          let k := Kind.ofRun previous (c :: rest)
          if k.admits c then
            let run := c :: rest.takeWhile k.admits
            ⟨k, run, n⟩ :: scan (some k) (n + run.length) (rest.dropWhile k.admits)
          else scan previous (n + 1) rest := by
  refine scan.eq_4 previous n c rest ?_ ?_
  · rintro rest' rfl rfl
    exact hescape ⟨rest', rfl⟩
  · rintro rest' rfl rfl
    exact harrow ⟨rest', rfl⟩

theorem scan_of_skips {previous : Option Kind} {c : Char} {rest : Text} (h : Skips previous c rest) (n : Nat) :
    scan previous n (c :: rest) = scan previous (n + 1) rest := by
  rcases h with hgap | ⟨hescape, hmark, hadmits⟩
  · obtain ⟨hbackslash, hdash⟩ := ne_of_isGap hgap
    rw [scan_cons (not_pair_of_ne hbackslash rest) (not_pair_of_ne hdash rest), if_pos hgap]
  · have hdash : c ≠ '-' := by
      rintro rfl
      have hword := admits_of_isWordChar (k := Kind.ofRun previous ('-' :: rest)) (c := '-') (by decide)
      rw [hword] at hadmits
      cases hadmits
    rw [scan_cons hescape (not_pair_of_ne hdash rest), hmark]
    simp [hadmits]

/-- A run of characters that a kind admits ends where the first one that it does not admit stands. -/
theorem takeWhile_dropWhile_of_stop {p : Char → Bool} {word rest : Text} (hword : ∀ d ∈ word, p d = true)
    (hstop : ∀ d ∈ rest.head?, p d = false) :
    (word ++ rest).takeWhile p = word ∧ (word ++ rest).dropWhile p = rest := by
  rw [List.takeWhile_append_of_pos hword, List.dropWhile_append_of_pos hword]
  cases rest with
  | nil => simp
  | cons d rest => simp [hstop d (by simp)]

theorem scan_of_lexeme {previous : Option Kind} {text value rest : Text} {k : Kind}
    (h : Lexeme previous text k value rest) (n : Nat) :
    scan previous n text = ⟨k, value, n⟩ :: scan (some k) (n + value.length) rest := by
  cases h with
  | escapedAsterisk =>
      rw [scan]
      rfl
  | arrow =>
      rw [scan]
      rfl
  | @punctuation c k hmark =>
      obtain ⟨hgap, hbackslash, hdash, -⟩ := of_ofPunctuation? hmark
      rw [scan_cons (not_pair_of_ne hbackslash rest) (not_pair_of_ne hdash rest), hmark]
      simp [hgap]
  | @run c k word rest hkind hgap hmark harrow hword hstop =>
      have hc : k.admits c = true := hword c List.mem_cons_self
      have hbackslash : c ≠ '\\' := by
        rintro rfl
        rw [not_admits_backslash] at hc
        cases hc
      obtain ⟨htake, hdrop⟩ :=
        takeWhile_dropWhile_of_stop (fun d hd => hword d (List.mem_cons_of_mem c hd)) hstop
      rw [scan_cons (not_pair_of_ne hbackslash _) harrow, hmark, hkind]
      simp [hgap, hc, htake, hdrop]

/-- A beginning in whose characters a run goes on lies in the run altogether. -/
theorem prefix_append_iff {p : Char → Bool} {lead word rest : Text} (hlead : ∀ d ∈ lead, p d = true)
    (hstop : ∀ d ∈ rest.head?, p d = false) : lead <+: word ++ rest ↔ lead <+: word := by
  constructor
  · intro h
    rcases List.prefix_or_prefix_of_prefix h (List.prefix_append word rest) with hword | ⟨beyond, rfl⟩
    · exact hword
    · cases beyond with
      | nil => exact (List.append_nil word).symm ▸ List.prefix_refl word
      | cons d beyond =>
          obtain ⟨behind, hbehind⟩ := (List.prefix_append_right_inj word).mp h
          have hd := hstop d (by rw [← hbehind]; rfl)
          rw [hlead d (List.mem_append_right word List.mem_cons_self)] at hd
          cases hd
  · intro h
    exact h.trans (List.prefix_append word rest)

theorem lexeme_of_admits {previous : Option Kind} {c : Char} {rest : Text} (hgap : isGap c = false)
    (hmark : Kind.ofPunctuation? c = none) (harrow : ¬ ['-', '>'] <+: c :: rest)
    (hadmits : (Kind.ofRun previous (c :: rest)).admits c = true) :
    ∃ value rest', Lexeme previous (c :: rest) (Kind.ofRun previous (c :: rest)) value rest' := by
  let p := (Kind.ofRun previous (c :: rest)).admits
  have hrest : rest.takeWhile p ++ rest.dropWhile p = rest := List.takeWhile_append_dropWhile
  have hkind : Kind.ofRun previous (c :: (rest.takeWhile p ++ rest.dropWhile p)) =
      Kind.ofRun previous (c :: rest) := by rw [hrest]
  have hword : ∀ d ∈ c :: rest.takeWhile p, p d = true := by
    intro d hd
    rcases List.mem_cons.mp hd with rfl | hd
    · exact hadmits
    · exact List.mem_takeWhile_imp hd
  have hstop : ∀ d ∈ (rest.dropWhile p).head?, p d = false := by
    intro d hd
    have hhead := List.head?_dropWhile_not p rest
    rw [Option.mem_def.mp hd] at hhead
    exact hhead
  have h := Lexeme.run hkind hgap hmark (by rwa [hrest]) hword hstop
  rw [hrest] at h
  exact ⟨_, _, h⟩

/-- A text is at its end, or its first character is dropped, or a token stands at its start. -/
theorem scan_step_cases (previous : Option Kind) (text : Text) :
    text = [] ∨ (∃ c rest, text = c :: rest ∧ Skips previous c rest) ∨
      ∃ k value rest, Lexeme previous text k value rest := by
  cases text with
  | nil => exact .inl rfl
  | cons c rest =>
      right
      by_cases hescape : ['\\', '*'] <+: c :: rest
      · obtain ⟨rest', hrest⟩ := hescape
        rw [← hrest]
        exact .inr ⟨_, _, _, .escapedAsterisk rest'⟩
      · by_cases harrow : ['-', '>'] <+: c :: rest
        · obtain ⟨rest', hrest⟩ := harrow
          rw [← hrest]
          exact .inr ⟨_, _, _, .arrow rest'⟩
        · cases hgap : isGap c with
          | true => exact .inl ⟨c, rest, rfl, .inl hgap⟩
          | false =>
              cases hmark : Kind.ofPunctuation? c with
              | some k => exact .inr ⟨k, [c], rest, .punctuation hmark rest⟩
              | none =>
                  cases hadmits : (Kind.ofRun previous (c :: rest)).admits c with
                  | false => exact .inl ⟨c, rest, rfl, .inr ⟨hescape, hmark, hadmits⟩⟩
                  | true =>
                      obtain ⟨value, rest', h⟩ := lexeme_of_admits hgap hmark harrow hadmits
                      exact .inr ⟨_, value, rest', h⟩

/-- What holds of no tokens, and is kept when a character is dropped and when a token is taken, holds of
every reading. -/
@[elab_as_elim]
theorem scan_induction {motive : Option Kind → Nat → Text → List Token → Prop}
    (nil : ∀ previous n, motive previous n [] [])
    (skip : ∀ previous n c rest, Skips previous c rest →
      motive previous (n + 1) rest (scan previous (n + 1) rest) →
      motive previous n (c :: rest) (scan previous (n + 1) rest))
    (token : ∀ previous n text k value rest, Lexeme previous text k value rest →
      motive (some k) (n + value.length) rest (scan (some k) (n + value.length) rest) →
      motive previous n text (⟨k, value, n⟩ :: scan (some k) (n + value.length) rest))
    (previous : Option Kind) (n : Nat) (text : Text) : motive previous n text (scan previous n text) := by
  rcases scan_step_cases previous text with htext | ⟨c, rest, htext, h⟩ | ⟨k, value, rest, h⟩
  · rw [htext, scan]
    exact nil previous n
  · have hlength : rest.length < text.length := by simp [htext]
    rw [htext, scan_of_skips h]
    exact skip previous n c rest h (scan_induction nil skip token previous (n + 1) rest)
  · have hlength : rest.length < text.length := by
      have hpos := List.length_pos_iff.mpr h.value_ne_nil
      rw [h.text_eq, List.length_append]
      omega
    rw [scan_of_lexeme h]
    exact token previous n text k value rest h
      (scan_induction nil skip token (some k) (n + value.length) rest)
termination_by text.length
decreasing_by all_goals exact hlength

theorem exists_lexeme_of_mem_scan {previous : Option Kind} {n : Nat} {text : Text} {t : Token}
    (h : t ∈ scan previous n text) : ∃ previous text rest, Lexeme previous text t.kind t.value rest := by
  induction previous, n, text using scan_induction with
  | nil previous n => cases h
  | skip previous n c rest hskip ih => exact ih h
  | token previous n text k value rest hlexeme ih =>
      rcases List.mem_cons.mp h with rfl | hrest
      · exact ⟨previous, text, rest, hlexeme⟩
      · exact ih hrest

theorem startsParameter_iff {t : Token} :
    t.startsParameter = true ↔ t.kind = .parameterName ∨ t.kind = .spread := by
  simp [startsParameter]

theorem Lexeme.isWordChar {previous : Option Kind} {text value rest : Text} {k : Kind}
    (h : Lexeme previous text k value rest) (hk : k = .parameterName ∨ k = .spread) :
    ∀ c ∈ value, Token.isWordChar c = true := by
  cases h with
  | escapedAsterisk => simp at hk
  | arrow => simp at hk
  | punctuation hmark =>
      obtain ⟨-, -, -, hname, hspread, -⟩ := of_ofPunctuation? hmark
      exact absurd hk (not_or_intro hname hspread)
  | run hkind hgap hmark harrow hword hstop =>
      rcases hk with rfl | rfl <;> exact hword

theorem value_ne_nil_of_mem_scan {previous : Option Kind} {n : Nat} {text : Text} {t : Token}
    (h : t ∈ scan previous n text) : t.value ≠ [] := by
  obtain ⟨_, _, _, hlexeme⟩ := exists_lexeme_of_mem_scan h
  exact hlexeme.value_ne_nil

theorem isWordChar_of_mem_scan {previous : Option Kind} {n : Nat} {text : Text} {t : Token}
    (h : t ∈ scan previous n text) (hstart : t.startsParameter = true) :
    ∀ c ∈ t.value, isWordChar c = true := by
  obtain ⟨_, _, _, hlexeme⟩ := exists_lexeme_of_mem_scan h
  exact hlexeme.isWordChar (startsParameter_iff.mp hstart)

end Token

end Synopsis
