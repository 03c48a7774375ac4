import Synopsis.Proofs.MissingTypes
import Synopsis.Proofs.TokenScan

/-!
# Where tokens stand

A token stands in the text at its offset, and the tokens follow each other without touching the same
character twice. What no token covers is a gap or a character that begins none. A run is as long as it can be,
and its kind depends on its first characters and on the token before it. An escape is read wherever it stands,
an arrow wherever no run goes on over it.
-/

namespace Synopsis

namespace Token

def Kind.IsRun (k : Kind) : Prop :=
  k = .spread ∨ k = .typeName ∨ k = .parameterName

/-- The characters of a run; those of a type may be commas. -/
def InRun (k : Kind) (c : Char) : Prop :=
  isWordChar c = true ∨ k = .typeName ∧ c = ','

def Covers (t : Token) (i : Nat) : Prop :=
  t.offset ≤ i ∧ i < t.offset + t.value.length

/-- A run that began earlier goes on at this place. -/
def RunsAt (ts : List Token) (i : Nat) : Prop :=
  ∃ t ∈ ts, t.kind.IsRun ∧ t.offset < i ∧ i < t.offset + t.value.length

/-- How the tokens of a text stand in it. -/
structure Placed (text : Text) (ts : List Token) : Prop where
  value : ∀ t ∈ ts, (text.drop t.offset).take t.value.length = t.value ∧ t.value ≠ []
  ordered : ts.Pairwise fun t u => t.offset + t.value.length ≤ u.offset
  dropped : ∀ i c, text[i]? = some c → (∀ t ∈ ts, ¬ t.Covers i) →
    c ∈ [' ', '\t', '\r', '\n'] ∨
      c.toNat < 128 ∧ isWordChar c = false ∧ c ∉ [':', ';', '{', '}', '(', ')', '*', '<', '>']
  run : ∀ t ∈ ts, t.kind.IsRun → (∀ c ∈ t.value, InRun t.kind c) ∧
    ∀ c, text[t.offset + t.value.length]? = some c → ¬ InRun t.kind c
  kind : ∀ s : Site, s.tokens = ts → s.token.kind.IsRun → s.token.kind =
    if ellipsis <+: s.token.value then .spread
    else if s.before.getLast?.map Token.kind = some .colon then .typeName
    else .parameterName
  escape : ∀ i, ['\\', '*'] <+: text.drop i → ⟨.escapedAsterisk, ['\\', '*'], i⟩ ∈ ts
  arrow : ∀ i, ['-', '>'] <+: text.drop i → ¬ RunsAt ts i → ⟨.arrow, ['-', '>'], i⟩ ∈ ts

theorem admits_iff {k : Kind} {c : Char} : k.admits c = true ↔ InRun k c := by
  cases k <;> simp [Kind.admits, InRun]

theorem drop_of_drop_eq_append {all s t : Text} {n : Nat} (h : all.drop n = s ++ t) :
    all.drop (n + s.length) = t := by
  rw [← List.drop_drop, h, List.drop_left]

/-- A site of the reading shows the lexeme that was read there. -/
theorem lexeme_of_site {all : Text} {previous : Option Kind} {n : Nat} {text : Text} (htext : all.drop n = text)
    {s : Site} (hs : s.tokens = scan previous n text) :
    Lexeme (Structure.lastKind previous s.before) (all.drop s.token.offset) s.token.kind s.token.value
      (all.drop (s.token.offset + s.token.value.length)) := by
  induction previous, n, text using scan_induction generalizing s with
  | nil previous n => simp [Site.tokens] at hs
  | skip previous n c rest hskip ih => exact ih (drop_of_drop_eq_append (s := [c]) htext) hs
  | token previous n text k value rest hlexeme ih =>
      have hrest : all.drop (n + value.length) = rest := by
        rw [hlexeme.text_eq] at htext
        exact drop_of_drop_eq_append htext
      obtain ⟨before, t, after⟩ := s
      cases before with
      | nil =>
          obtain ⟨rfl, -⟩ := List.cons.inj hs
          change Lexeme previous (all.drop n) k value (all.drop (n + value.length))
          rwa [htext, hrest]
      | cons u before =>
          obtain ⟨rfl, hbefore⟩ := List.cons.inj hs
          exact ih hrest (s := ⟨before, t, after⟩) hbefore

theorem le_offset_of_mem_scan {previous : Option Kind} {n : Nat} {text : Text} {t : Token}
    (h : t ∈ scan previous n text) : n ≤ t.offset := by
  induction previous, n, text using scan_induction with
  | nil previous n => cases h
  | skip previous n c rest hskip ih => exact (Nat.le_succ n).trans (ih h)
  | token previous n text k value rest hlexeme ih =>
      rcases List.mem_cons.mp h with rfl | hrest
      · exact Nat.le_refl n
      · exact (Nat.le_add_right n value.length).trans (ih hrest)

theorem pairwise_scan (previous : Option Kind) (n : Nat) (text : Text) :
    (scan previous n text).Pairwise fun t u => t.offset + t.value.length ≤ u.offset := by
  induction previous, n, text using scan_induction with
  | nil previous n => exact List.Pairwise.nil
  | skip previous n c rest hskip ih => exact ih
  | token previous n text k value rest hlexeme ih =>
      exact List.pairwise_cons.mpr ⟨fun u hu => le_offset_of_mem_scan hu, ih⟩

/-- Every character belongs to a token or is dropped. -/
theorem covers_or_skips {all : Text} {previous : Option Kind} {n : Nat} {text : Text}
    (htext : all.drop n = text)
    {i : Nat} (hle : n ≤ i) {c : Char} {rest : Text} (hi : all.drop i = c :: rest) :
    (∃ t ∈ scan previous n text, t.Covers i) ∨ ∃ previous', Skips previous' c rest := by
  induction previous, n, text using scan_induction with
  | nil previous n =>
      have hnil : all.drop i = [] := by
        rw [← Nat.add_sub_of_le hle, ← List.drop_drop, htext, List.drop_nil]
      rw [hnil] at hi
      cases hi
  | skip previous n d text hskip ih =>
      by_cases heq : i = n
      · rw [heq, htext] at hi
        obtain ⟨rfl, rfl⟩ := List.cons.inj hi
        exact .inr ⟨previous, hskip⟩
      · exact ih (drop_of_drop_eq_append (s := [d]) htext) (by omega)
  | token previous n text k value behind hlexeme ih =>
      by_cases hlt : i < n + value.length
      · exact .inl ⟨_, List.mem_cons_self, hle, hlt⟩
      · rw [hlexeme.text_eq] at htext
        rcases ih (drop_of_drop_eq_append htext) (by omega) with ⟨t, ht, hcovers⟩ | hskips
        · exact .inl ⟨t, List.mem_cons_of_mem _ ht, hcovers⟩
        · exact .inr hskips

theorem isRun_ofRun (previous : Option Kind) (t : Text) : (Kind.ofRun previous t).IsRun :=
  ofRun_cases previous t

theorem not_isRun_of_ofPunctuation? {c : Char} {k : Kind} (h : Kind.ofPunctuation? c = some k) : ¬ k.IsRun := by
  obtain ⟨-, -, -, hname, hspread, htype⟩ := of_ofPunctuation? h
  rintro (hk | hk | hk)
  · exact hspread hk
  · exact htype hk
  · exact hname hk

/-- Dots go on with a run, so a run that begins the text with three of them holds all three. -/
theorem ellipsis_prefix_iff {k : Kind} {word rest : Text} (hstop : ∀ d ∈ rest.head?, k.admits d = false) :
    ellipsis <+: word ++ rest ↔ ellipsis <+: word := by
  refine prefix_append_iff ?_ hstop
  intro d hd
  apply admits_of_isWordChar
  exact List.all_eq_true.mp (by decide : ellipsis.all isWordChar = true) d hd

theorem arrow_prefix_iff {k : Kind} {word rest : Text} (hstop : ∀ d ∈ rest.head?, k.admits d = false) :
    ['-', '>'] <+: word ++ rest ↔ ['-', '>'] <+: word := by
  refine prefix_append_iff ?_ hstop
  intro d hd
  apply admits_of_isWordChar
  rcases List.mem_pair.mp hd with rfl | rfl <;> decide

theorem Lexeme.inRun {previous : Option Kind} {text value rest : Text} {k : Kind}
    (h : Lexeme previous text k value rest) (hk : k.IsRun) :
    (∀ c ∈ value, InRun k c) ∧ ∀ c ∈ rest.head?, ¬ InRun k c := by
  cases h with
  | escapedAsterisk => simp [Kind.IsRun] at hk
  | arrow => simp [Kind.IsRun] at hk
  | punctuation hmark => exact absurd hk (not_isRun_of_ofPunctuation? hmark)
  | run hkind hgap hmark harrow hword hstop =>
      refine ⟨fun c hc => admits_iff.mp (hword c hc), ?_⟩
      intro c hc hrun
      have hadmits := hstop c hc
      rw [admits_iff.mpr hrun] at hadmits
      cases hadmits

theorem Lexeme.kind_eq {previous : Option Kind} {text value rest : Text} {k : Kind}
    (h : Lexeme previous text k value rest) (hk : k.IsRun) :
    k = if ellipsis <+: value then .spread
      else if previous = some .colon then .typeName else .parameterName := by
  cases h with
  | escapedAsterisk => simp [Kind.IsRun] at hk
  | arrow => simp [Kind.IsRun] at hk
  | punctuation hmark => exact absurd hk (not_isRun_of_ofPunctuation? hmark)
  | @run c k word rest hkind hgap hmark harrow hword hstop =>
      rw [← hkind, Kind.ofRun, ← List.cons_append]
      simp only [Text.startsWith_iff, ellipsis_prefix_iff hstop]

theorem Lexeme.before {previous : Option Kind} {text value rest : Text} {k : Kind}
    (h : Lexeme previous text k value rest) {behind : Text}
    (hbehind : k.IsRun → ∀ d ∈ behind.head?, k.admits d = false) :
    Lexeme previous (value ++ behind) k value behind := by
  cases h with
  | escapedAsterisk => exact .escapedAsterisk behind
  | arrow => exact .arrow behind
  | punctuation hmark => exact .punctuation hmark behind
  | @run c k word rest hkind hgap hmark harrow hword hstop =>
      have hbehind := hbehind (hkind ▸ isRun_ofRun _ _)
      refine .run ?_ hgap hmark ?_ hword hbehind
      · rw [Kind.ofRun, ← List.cons_append] at hkind ⊢
        simp only [Text.startsWith_iff, ellipsis_prefix_iff hstop] at hkind
        simpa only [Text.startsWith_iff, ellipsis_prefix_iff hbehind] using hkind
      · rw [← List.cons_append, arrow_prefix_iff hstop] at harrow
        rwa [← List.cons_append, arrow_prefix_iff hbehind]

theorem Lexeme.eq_of_backslash_mem {previous : Option Kind} {text value rest : Text} {k : Kind}
    (h : Lexeme previous text k value rest) (hmem : '\\' ∈ value) :
    k = .escapedAsterisk ∧ value = ['\\', '*'] := by
  cases h with
  | escapedAsterisk => exact ⟨rfl, rfl⟩
  | arrow => simp at hmem
  | punctuation hmark =>
      obtain ⟨-, hbackslash, -⟩ := of_ofPunctuation? hmark
      exact absurd (List.mem_singleton.mp hmem).symm hbackslash
  | run hkind hgap hmark harrow hword hstop =>
      have hadmits := hword '\\' hmem
      rw [not_admits_backslash] at hadmits
      cases hadmits

/-- A dash belongs to an arrow, or to a run that does not begin with one. -/
theorem Lexeme.cases_of_dash_mem {previous : Option Kind} {text value rest : Text} {k : Kind}
    (h : Lexeme previous text k value rest) (hmem : '-' ∈ value) :
    k = .arrow ∧ value = ['-', '>'] ∨ k.IsRun ∧ ¬ ['-', '>'] <+: text := by
  cases h with
  | escapedAsterisk => simp at hmem
  | arrow => exact .inl ⟨rfl, rfl⟩
  | punctuation hmark =>
      obtain ⟨-, -, hdash, -⟩ := of_ofPunctuation? hmark
      exact absurd (List.mem_singleton.mp hmem).symm hdash
  | run hkind hgap hmark harrow hword hstop => exact .inr ⟨hkind ▸ isRun_ofRun _ _, harrow⟩

section Reading

variable {text : Text} {t : Token}

theorem exists_site_of_mem {ts : List Token} (h : t ∈ ts) : ∃ s : Site, s.token = t ∧ s.tokens = ts := by
  obtain ⟨before, after, rfl⟩ := List.append_of_mem h
  exact ⟨⟨before, t, after⟩, rfl, rfl⟩

theorem exists_lexeme_of_mem_ofText (h : t ∈ ofText text) : ∃ previous,
    Lexeme previous (text.drop t.offset) t.kind t.value (text.drop (t.offset + t.value.length)) := by
  obtain ⟨s, rfl, hs⟩ := exists_site_of_mem h
  exact ⟨_, lexeme_of_site (n := 0) rfl hs⟩

theorem covers_or_skips_ofText {i : Nat} {c : Char} {rest : Text} (hi : text.drop i = c :: rest) :
    (∃ t ∈ ofText text, t.Covers i) ∨ ∃ previous, Skips previous c rest :=
  covers_or_skips (n := 0) rfl (Nat.zero_le i) hi

theorem getElem?_value_of_covers (h : t ∈ ofText text) {i : Nat} (hcovers : t.Covers i) {c : Char} {rest : Text}
    (hi : text.drop i = c :: rest) : t.value[i - t.offset]? = some c := by
  obtain ⟨previous, hlexeme⟩ := exists_lexeme_of_mem_ofText h
  obtain ⟨hle, hlt⟩ := hcovers
  have hchar : (text.drop t.offset)[i - t.offset]? = some c := by
    rw [List.getElem?_drop, Nat.add_sub_of_le hle, ← Nat.add_zero i, ← List.getElem?_drop, hi]
    rfl
  rwa [hlexeme.text_eq, List.getElem?_append_left (by omega)] at hchar

theorem eq_zero_of_getElem?_pair {a b : Char} (h : a ≠ b) {i : Nat} (hi : [a, b][i]? = some a) : i = 0 := by
  match i with
  | 0 => rfl
  | 1 => exact absurd (Option.some.inj hi).symm h
  | i + 2 => cases hi

theorem eq_of_covers_pair (h : t ∈ ofText text) {i : Nat} (hcovers : t.Covers i) {a b : Char} (hne : a ≠ b)
    {rest : Text} (hi : text.drop i = a :: rest) {k : Kind} (hkind : t.kind = k) (hvalue : t.value = [a, b]) :
    t = ⟨k, [a, b], i⟩ := by
  have hat := getElem?_value_of_covers h hcovers hi
  rw [hvalue] at hat
  have hoffset := eq_zero_of_getElem?_pair hne hat
  have hle := hcovers.1
  obtain ⟨kind, value, offset⟩ := t
  obtain rfl : offset = i := by
    change i - offset = 0 at hoffset
    change offset ≤ i at hle
    omega
  rw [← hkind, ← hvalue]

theorem escape_mem_ofText {i : Nat} (h : ['\\', '*'] <+: text.drop i) :
    ⟨.escapedAsterisk, ['\\', '*'], i⟩ ∈ ofText text := by
  obtain ⟨rest, hrest⟩ := h
  have hi : text.drop i = '\\' :: '*' :: rest := hrest.symm
  rcases covers_or_skips_ofText hi with ⟨t, ht, hcovers⟩ | ⟨previous, hgap | ⟨hescape, -⟩⟩
  · obtain ⟨previous, hlexeme⟩ := exists_lexeme_of_mem_ofText ht
    have hmem := List.mem_of_getElem? (getElem?_value_of_covers ht hcovers hi)
    obtain ⟨hkind, hvalue⟩ := hlexeme.eq_of_backslash_mem hmem
    rwa [← eq_of_covers_pair ht hcovers (by decide) hi hkind hvalue]
  · exact absurd hgap (by decide)
  · exact absurd ⟨rest, rfl⟩ hescape

theorem arrow_mem_ofText {i : Nat} (h : ['-', '>'] <+: text.drop i) (hrun : ¬ RunsAt (ofText text) i) :
    ⟨.arrow, ['-', '>'], i⟩ ∈ ofText text := by
  obtain ⟨rest, hrest⟩ := h
  have hi : text.drop i = '-' :: '>' :: rest := hrest.symm
  rcases covers_or_skips_ofText hi with ⟨t, ht, hcovers⟩ | ⟨previous, hgap | ⟨-, -, hadmits⟩⟩
  · obtain ⟨previous, hlexeme⟩ := exists_lexeme_of_mem_ofText ht
    have hmem := List.mem_of_getElem? (getElem?_value_of_covers ht hcovers hi)
    rcases hlexeme.cases_of_dash_mem hmem with ⟨hkind, hvalue⟩ | ⟨hkind, hnot⟩
    · rwa [← eq_of_covers_pair ht hcovers (by decide) hi hkind hvalue]
    · exfalso
      obtain ⟨hle, hlt⟩ := hcovers
      rcases Nat.eq_or_lt_of_le hle with heq | hbefore
      · rw [heq, hi] at hnot
        exact hnot ⟨rest, rfl⟩
      · exact hrun ⟨t, ht, hkind, hbefore, hlt⟩
  · exact absurd hgap (by decide)
  · rw [admits_of_isWordChar (by decide)] at hadmits
    cases hadmits

theorem not_mem_marks_of_ofPunctuation? {c : Char} (h : Kind.ofPunctuation? c = none) :
    c ∉ [':', ';', '{', '}', '(', ')', '*', '<', '>'] := by
  intro hmem
  simp only [List.mem_cons, List.not_mem_nil, or_false] at hmem
  rcases hmem with rfl | rfl | rfl | rfl | rfl | rfl | rfl | rfl | rfl <;> cases h

theorem Skips.dropped {previous : Option Kind} {c : Char} {rest : Text} (h : Skips previous c rest) :
    c ∈ [' ', '\t', '\r', '\n'] ∨
      c.toNat < 128 ∧ isWordChar c = false ∧ c ∉ [':', ';', '{', '}', '(', ')', '*', '<', '>'] := by
  rcases h with hgap | ⟨-, hmark, hadmits⟩
  · left
    simpa [isGap, or_assoc] using hgap
  · right
    have hword : isWordChar c = false := by
      by_contra hword
      rw [admits_of_isWordChar (by simpa using hword)] at hadmits
      cases hadmits
    have hascii : c.toNat < 128 := by
      simp only [isWordChar, Bool.or_eq_false_iff, decide_eq_false_iff_not] at hword
      omega
    exact ⟨hascii, hword, not_mem_marks_of_ofPunctuation? hmark⟩

theorem lastKind_none (ts : List Token) : Structure.lastKind none ts = ts.getLast?.map Token.kind := by
  rcases List.eq_nil_or_concat' ts with rfl | ⟨before, t, rfl⟩
  · rfl
  · rw [Structure.lastKind_concat, List.getLast?_concat, Option.map_some]

/-- The tokens of a text stand in it as they should. -/
theorem placed_ofText (text : Text) : Placed text (ofText text) where
  value := by
    intro t ht
    obtain ⟨previous, hlexeme⟩ := exists_lexeme_of_mem_ofText ht
    rw [hlexeme.text_eq]
    exact ⟨List.take_left, hlexeme.value_ne_nil⟩
  ordered := pairwise_scan none 0 text
  dropped := by
    intro i c hc huncovered
    have hi : text.drop i = c :: text.drop (i + 1) := by
      obtain ⟨hlt, rfl⟩ := List.getElem?_eq_some_iff.mp hc
      exact List.drop_eq_getElem_cons hlt
    rcases covers_or_skips_ofText hi with ⟨t, ht, hcovers⟩ | ⟨previous, hskips⟩
    · exact absurd hcovers (huncovered t ht)
    · exact hskips.dropped
  run := by
    intro t ht hk
    obtain ⟨previous, hlexeme⟩ := exists_lexeme_of_mem_ofText ht
    obtain ⟨hvalue, hstop⟩ := hlexeme.inRun hk
    refine ⟨hvalue, ?_⟩
    intro c hc
    apply hstop c
    rw [List.head?_drop]
    exact hc
  kind := by
    intro s hs hk
    rw [← lastKind_none]
    exact (lexeme_of_site (n := 0) rfl hs).kind_eq hk
  escape := fun i h => escape_mem_ofText h
  arrow := fun i h hrun => arrow_mem_ofText h hrun

end Reading

/-- Over the first arrow a run goes on, over the second one none. -/
example : (ofText "a->b -> c".toList).map Token.kind = [.parameterName, .arrow, .parameterName] := by
  decide +kernel

end Token

end Synopsis
