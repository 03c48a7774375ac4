import Synopsis.Proofs.BraceIssues
import Synopsis.Proofs.TokenPlaces

/-!
# Asterisks go in pairs

Stripping deletes asterisks two at a time and nothing else. Escapes are hidden meanwhile, and while they
are, no backslash stands directly before an asterisk; as something else stays between the two, a deletion
brings no backslash to an asterisk either. So the escapes of a text are those of the stripped text, and each
of them is one token.
-/

namespace Synopsis

namespace Emphasis

open Text

/-- `t` is `s` without `n` asterisks, none of which belongs to an escape. -/
inductive Deletes : (n : Nat) → (s t : Text) → Prop
  | nil : Deletes 0 [] []
  | escape {n : Nat} {s t : Text} (h : Deletes n s t) : Deletes n ('\\' :: '*' :: s) ('\\' :: '*' :: t)
  | keep {c : Char} {n : Nat} {s t : Text} (hescape : ¬ ['\\', '*'] <+: c :: s) (h : Deletes n s t) :
      Deletes n (c :: s) (c :: t)
  | delete {n : Nat} {s t : Text} (h : Deletes n s t) : Deletes (n + 1) ('*' :: s) t

/-- The number of escaped asterisks: of the places from which a backslash and an asterisk follow. -/
def escapes (t : Text) : Nat :=
  t.tails.countP (startsWith ['\\', '*'])

theorem escapes_cons_of_not {c : Char} {t : Text} (h : ¬ ['\\', '*'] <+: c :: t) :
    escapes (c :: t) = escapes t := by
  rw [escapes, List.tails_cons, List.countP_cons_of_neg (by rwa [startsWith_iff]), escapes]

theorem escapes_escape (t : Text) : escapes ('\\' :: '*' :: t) = escapes t + 1 := by
  have hasterisk : escapes ('*' :: t) = escapes t := escapes_cons_of_not (Token.not_pair_of_ne (by decide) t)
  have hescape : startsWith ['\\', '*'] ('\\' :: '*' :: t) = true := startsWith_iff.mpr ⟨t, rfl⟩
  rw [escapes, List.tails_cons, List.countP_cons_of_pos hescape, ← hasterisk, escapes]

theorem escapes_append_of_not_mem {s : Text} (hs : '\\' ∉ s) (t : Text) : escapes (s ++ t) = escapes t := by
  induction s with
  | nil => rfl
  | cons c s ih =>
      obtain ⟨hc, hrest⟩ := not_or.mp (mt List.mem_cons.mpr hs)
      rw [List.cons_append, escapes_cons_of_not (Token.not_pair_of_ne (Ne.symm hc) _), ih hrest]

theorem Deletes.exists_eq_cons {n : Nat} {s t : Text} (h : Deletes n s ('*' :: t)) :
    ∃ rest, s = '*' :: rest := by
  cases h with
  | keep hescape h => exact ⟨_, rfl⟩
  | delete h => exact ⟨_, rfl⟩

/-- A deletion takes no escape away and makes none. -/
theorem Deletes.escapes_eq {n : Nat} {s t : Text} (h : Deletes n s t) : escapes t = escapes s := by
  induction h with
  | nil => rfl
  | escape h ih => rw [escapes_escape, escapes_escape, ih]
  | @keep c n s t hescape h ih =>
      have hbehind : ¬ ['\\', '*'] <+: c :: t := by
        rintro ⟨rest, hrest⟩
        obtain ⟨rfl, rfl⟩ := List.cons.inj hrest
        obtain ⟨before, rfl⟩ := h.exists_eq_cons
        exact hescape ⟨before, rfl⟩
      rw [escapes_cons_of_not hbehind, escapes_cons_of_not hescape, ih]
  | delete h ih => rw [ih, escapes_cons_of_not (Token.not_pair_of_ne (by decide) _)]

section Hidden

/-- A walk drops asterisks in pairs. -/
theorem exists_count_unwrap (isWord : Text → Bool) (pieces : List Text) : ∃ n,
    (['*'].intercalate pieces).count '*' = (['*'].intercalate (unwrap isWord pieces)).count '*' + 2 * n := by
  fun_induction unwrap isWord pieces with
  | case1 before word next pieces hword ih =>
      obtain ⟨n, ih⟩ := ih
      refine ⟨n + 1, ?_⟩
      have hne : unwrap isWord (next :: pieces) ≠ [] := unwrap_ne_nil isWord (by simp)
      rw [joinFirst_eq_appendFirst, intercalate_appendFirst _ _ _ hne, List.intercalate_cons_cons,
        List.intercalate_cons_cons]
      simp only [List.count_append, ih, List.count_cons_self, List.count_nil]
      omega
  | case2 before word next pieces hword ih =>
      obtain ⟨n, ih⟩ := ih
      refine ⟨n, ?_⟩
      have hne : unwrap isWord (word :: next :: pieces) ≠ [] := unwrap_ne_nil isWord (by simp)
      rw [List.intercalate_cons_of_ne_nil hne, List.intercalate_cons_cons]
      simp only [List.count_append, ih]
      omega
  | case3 pieces hpieces => exact ⟨0, rfl⟩

theorem exists_count_unmarked (t : Text) : ∃ n, t.count '*' = (unmarked t).count '*' + 2 * n := by
  obtain ⟨n, hspreads⟩ := exists_count_unwrap (isWordAfter ['.', '.', '.']) (cutAt '*' t)
  obtain ⟨m, hseparated⟩ := exists_count_unwrap (isWordAfter [';', '.', '.', '.'])
    (unwrap (isWordAfter ['.', '.', '.']) (cutAt '*' t))
  obtain ⟨k, hwords⟩ := exists_count_unwrap (isWordAfter []) (unwrap (isWordAfter [';', '.', '.', '.'])
    (unwrap (isWordAfter ['.', '.', '.']) (cutAt '*' t)))
  rw [intercalate_cutAt] at hspreads
  refine ⟨n + m + k, ?_⟩
  rw [unmarked, stripPieces]
  omega

theorem hideEscapes_cons_cases (c : Char) (t : Text) : (∃ rest, hideEscapes (c :: t) = standIn :: rest) ∨
    hideEscapes (c :: t) = c :: hideEscapes t := by
  by_cases hescape : ['\\', '*'] <+: c :: t
  · obtain ⟨rest, hrest⟩ := hescape
    rw [← hrest]
    exact .inl ⟨hideEscapes rest, rfl⟩
  · right
    rw [hideEscapes]
    rintro rest rfl rfl
    exact hescape ⟨rest, rfl⟩

theorem exists_eq_cons_of_hideEscapes {t rest : Text} (h : hideEscapes t = '*' :: rest) :
    ∃ behind, t = '*' :: behind := by
  cases t with
  | nil => cases h
  | cons c t =>
      rcases hideEscapes_cons_cases c t with ⟨hidden, hstandIn⟩ | hsame
      · rw [hstandIn] at h
        exact absurd (List.cons.inj h).1 (by decide)
      · rw [hsame] at h
        exact ⟨t, by rw [(List.cons.inj h).1]⟩

theorem not_escape_infix_hideEscapes (t : Text) : ¬ ['\\', '*'] <:+: hideEscapes t := by
  fun_induction hideEscapes t with
  | case1 rest ih =>
      rw [List.infix_cons_iff, not_or]
      exact ⟨Token.not_pair_of_ne (by decide) _, ih⟩
  | case2 c rest hnot ih =>
      rw [List.infix_cons_iff, not_or]
      refine ⟨?_, ih⟩
      rintro ⟨behind, hbehind⟩
      obtain ⟨rfl, hrest⟩ := List.cons.inj hbehind
      obtain ⟨behind', rfl⟩ := exists_eq_cons_of_hideEscapes hrest.symm
      exact hnot behind' rfl rfl
  | case3 => simp

theorem exists_eq_cons_of_showEscapes {t rest : Text} (h : showEscapes t = '*' :: rest) :
    ∃ behind, t = '*' :: behind := by
  cases t with
  | nil => cases h
  | cons c t =>
      rw [showEscapes_cons] at h
      split at h
      · exact absurd (List.cons.inj h).1 (by decide)
      · exact ⟨t, by rw [(List.cons.inj h).1]⟩

/-- What is lost between two texts of equal characters but for asterisks are asterisks. -/
theorem deletes_of_sublist {s t : Text} (hsublist : t.Sublist s)
    (hfilter : t.filter (· != '*') = s.filter (· != '*')) (hhidden : ¬ ['\\', '*'] <:+: s) :
    ∃ n, s.count '*' = t.count '*' + n ∧ Deletes n s t := by
  induction hsublist with
  | slnil => exact ⟨0, rfl, .nil⟩
  | @cons t s c hsublist ih =>
      rw [List.infix_cons_iff, not_or] at hhidden
      by_cases hc : c = '*'
      · subst hc
        obtain ⟨n, hcount, hdeletes⟩ := ih (by simpa using hfilter) hhidden.2
        refine ⟨n + 1, ?_, .delete hdeletes⟩
        rw [List.count_cons_self, hcount, Nat.add_assoc]
      · -- A lost character of another kind would leave the filtered texts of different lengths.
        exfalso
        have hlength := (hsublist.filter (· != '*')).length_le
        rw [hfilter, List.filter_cons_of_pos (by simpa using hc), List.length_cons] at hlength
        omega
  | @cons_cons t s c hsublist ih =>
      rw [List.infix_cons_iff, not_or] at hhidden
      have hrest : t.filter (· != '*') = s.filter (· != '*') := by
        rw [List.filter_cons, List.filter_cons] at hfilter
        split at hfilter
        · exact (List.cons.inj hfilter).2
        · exact hfilter
      obtain ⟨n, hcount, hdeletes⟩ := ih hrest hhidden.2
      refine ⟨n, ?_, .keep hhidden.1 hdeletes⟩
      rw [List.count_cons, List.count_cons, hcount]
      omega

theorem Deletes.showEscapes {n : Nat} {s t : Text} (h : Deletes n s t) :
    Deletes n (showEscapes s) (showEscapes t) := by
  induction h with
  | nil => exact .nil
  | escape h ih => exact .escape ih
  | @keep c n s t hescape h ih =>
      rw [showEscapes_cons, showEscapes_cons]
      split
      · exact .escape ih
      · refine .keep ?_ ih
        rintro ⟨behind, hbehind⟩
        obtain ⟨rfl, hs⟩ := List.cons.inj hbehind
        obtain ⟨behind', rfl⟩ := exists_eq_cons_of_showEscapes hs.symm
        exact hescape ⟨behind', rfl⟩
  | delete h ih => exact .delete ih

theorem deletes_showEscapes {s t : Text} (hsublist : t.Sublist s)
    (hfilter : t.filter (· != '*') = s.filter (· != '*')) (hhidden : ¬ ['\\', '*'] <:+: s) :
    ∃ n, s.count '*' = t.count '*' + n ∧ Deletes n (showEscapes s) (showEscapes t) := by
  obtain ⟨n, hcount, hdeletes⟩ := deletes_of_sublist hsublist hfilter hhidden
  exact ⟨n, hcount, hdeletes.showEscapes⟩

end Hidden

end Emphasis

namespace Token

open Emphasis

theorem Lexeme.escape_cases {previous : Option Kind} {text value rest : Text} {k : Kind}
    (h : Lexeme previous text k value rest) :
    k = .escapedAsterisk ∧ value = ['\\', '*'] ∨ k ≠ .escapedAsterisk ∧ '\\' ∉ value := by
  by_cases hbackslash : '\\' ∈ value
  · exact .inl (h.eq_of_backslash_mem hbackslash)
  · refine .inr ⟨?_, hbackslash⟩
    rintro rfl
    cases h with
    | escapedAsterisk => simp at hbackslash
    | punctuation hmark =>
        unfold Kind.ofPunctuation? at hmark
        split at hmark <;> cases hmark
    | @run c k word rest hkind hgap hmark harrow hword hstop =>
        rcases ofRun_cases previous (c :: (word ++ rest)) with hrun | hrun | hrun <;> simp [hrun] at hkind

theorem Skips.not_escape {previous : Option Kind} {c : Char} {rest : Text} (h : Skips previous c rest) :
    ¬ ['\\', '*'] <+: c :: rest := by
  rcases h with hgap | ⟨hescape, -⟩
  · exact not_pair_of_ne (ne_of_isGap hgap).1 rest
  · exact hescape

theorem countP_escapedAsterisk_scan (previous : Option Kind) (n : Nat) (text : Text) :
    (scan previous n text).countP (fun t => t.kind == .escapedAsterisk) = escapes text := by
  induction previous, n, text using scan_induction with
  | nil previous n => rfl
  | skip previous n c rest hskips ih => rw [escapes_cons_of_not hskips.not_escape, ih]
  | token previous n text k value rest hlexeme ih =>
      rw [hlexeme.text_eq]
      rcases hlexeme.escape_cases with ⟨rfl, rfl⟩ | ⟨hk, hbackslash⟩
      · rw [List.countP_cons_of_pos rfl, ih]
        exact (escapes_escape rest).symm
      · rw [List.countP_cons_of_neg (by simpa using hk), ih, escapes_append_of_not_mem hbackslash]

end Token

namespace Emphasis

open Text

/-- Stripping a text without stand-ins deletes an even number of asterisks, none of them escaped, and keeps
all else; the escapes are then read as so many tokens. -/
theorem strip_deletes_pairs {t : Text} (h : standIn ∉ t) :
    (∃ n, Deletes (2 * n) t (strip t)) ∧
      (Token.ofText (strip t)).countP (fun u => u.kind == .escapedAsterisk) = escapes t := by
  obtain ⟨n, hpairs⟩ := exists_count_unmarked (hideEscapes t)
  obtain ⟨m, hcount, hdeletes⟩ := deletes_showEscapes (unmarked_sublist (hideEscapes t))
    (filter_unmarked (by decide) (hideEscapes t)) (not_escape_infix_hideEscapes t)
  obtain rfl : m = 2 * n := by omega
  rw [showEscapes_hideEscapes, showEscapes_eq_self h, ← strip_eq_showEscapes_unmarked] at hdeletes
  refine ⟨⟨n, hdeletes⟩, ?_⟩
  rw [Token.ofText, Token.countP_escapedAsterisk_scan, hdeletes.escapes_eq]

/-- Words of each sort, an asterisk that two words share, and backslashes that stay apart from the asterisks. -/
theorem strip_deletes_pairs_of_shared_asterisk :
    ∃ t, t = "\\\\* *a* **...b* *\\**;...c*\\ *d*e*".toList ∧ standIn ∉ t ∧
      strip t = "\\\\* a *...b *\\*;...c\\ de*".toList ∧ (∃ n, Deletes (2 * n) t (strip t)) ∧
      (Token.ofText (strip t)).countP (fun u => u.kind == .escapedAsterisk) = 2 := by
  have hstandIn : standIn ∉ "\\\\* *a* **...b* *\\**;...c*\\ *d*e*".toList := by decide
  obtain ⟨hdeletes, hescapes⟩ := strip_deletes_pairs hstandIn
  refine ⟨_, rfl, hstandIn, by decide +kernel, hdeletes, ?_⟩
  rw [hescapes]
  decide +kernel

end Emphasis

end Synopsis
