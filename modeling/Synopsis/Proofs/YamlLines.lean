import Synopsis.Proofs.YamlEscapedText
import Synopsis.Proofs.YamlLeaves
import Synopsis.Proofs.YamlQuotedText

/-!
# Reading the lines of a written file

A written file is read to one mapping in the first column. Each line begins with a key or with the dash of
an item. Reading is followed from one state to the next: a key with its colon, a dash, and a scalar up to
the end of its line, behind which the next line begins.
-/

namespace Synopsis

namespace Yaml

namespace Lexer

theorem isMark_of_isLower {c : Char} (h : c.isLower = true) : isMark c = false := by
  have hmarks : "-?:,[]\x7b\x7d#&*!|>'\"%@\x60".toList.all (fun d => !d.isLower) = true := by decide
  rw [isMark, ← Bool.not_eq_true, List.contains_iff_mem]
  intro hc
  have hlower := List.all_eq_true.mp hmarks c hc
  rw [h] at hlower
  cases hlower

/-- All of the file is read, and these are its tokens. -/
def Finishes (l : Lexer) (ts : List Token) : Prop :=
  ∀ fuel, l.rest.length < fuel → run fuel l = (ts, none)

/-- Reading from the one state comes to the other one. -/
def Leads (l l' : Lexer) : Prop :=
  ∀ ts, l'.Finishes ts → l.Finishes ts

theorem Leads.trans {l l' l'' : Lexer} (h : l.Leads l') (h' : l'.Leads l'') : l.Leads l'' :=
  fun ts hts => h ts (h' ts hts)

theorem length_skipGaps_le (inFlow comment keyAllowed : Bool) (s : Input) :
    (skipGaps inFlow comment keyAllowed s).2.length ≤ s.length := by
  fun_induction skipGaps inFlow comment keyAllowed s <;> simp_all <;> omega

theorem rest_toNext {l s : Lexer} (h : l.toNext = some s) :
    s.rest = (skipGaps l.inFlow false l.keyAllowed l.rest).2 := by
  simp only [toNext, dropStale, Option.bind_eq_bind, Option.bind_eq_some_iff, Option.pure_def,
    Option.some.injEq] at h
  obtain ⟨l', ⟨candidate, -, outer, -, rfl⟩, rfl⟩ := h
  unfold unwind
  split <;> rfl

theorem leads_of_fetch {l s l' : Lexer} (hnext : l.toNext = some s) (hmore : s.rest.peek ≠ endMark)
    (hfetch : s.fetch = .ok l') (hlength : l'.rest.length < s.rest.length) : l.Leads l' := by
  intro ts hts fuel hfuel
  have hle : s.rest.length ≤ l.rest.length := by
    rw [rest_toNext hnext]
    exact length_skipGaps_le _ _ _ _
  cases fuel with
  | zero => omega
  | succ fuel =>
      have hadvance : l.advance = .ok (.inl l') := by
        simp only [advance, hnext, orElse, bind, Except.bind, if_neg hmore, hfetch]
        rfl
      rw [run, hadvance]
      exact hts fuel (by omega)

theorem finishes_of_finish {l s : Lexer} {tokens : Array Token} (hnext : l.toNext = some s)
    (hend : s.rest.peek = endMark) (hfinish : s.finish = some tokens) : l.Finishes tokens.toList := by
  intro fuel hfuel
  cases fuel with
  | zero => omega
  | succ fuel =>
      have hadvance : l.advance = .ok (.inr tokens) := by
        simp only [advance, hnext, orElse, bind, Except.bind, if_pos hend, hfinish]
        rfl
      rw [run, hadvance]

section Gaps

variable (inFlow keyAllowed : Bool) (offset line column : Nat) (t : Text)

theorem skipGaps_visible {c : Char} (hc : isVisible c = true) (hnumber : c ≠ '#') :
    skipGaps inFlow false keyAllowed (placeFrom offset line column (c :: t)) =
      (keyAllowed, placeFrom offset line column (c :: t)) := by
  have hend := ne_of_isVisible (d := endMark) hc (by decide)
  have hspace := ne_of_isVisible (d := ' ') hc (by decide)
  rw [placeFrom_visible hc, skipGaps]
  simp [isBreak_of_isVisible hc, hend, hspace, hnumber]

theorem skipGaps_space :
    skipGaps inFlow false keyAllowed (placeFrom offset line column (' ' :: t)) =
      skipGaps inFlow false keyAllowed (placeFrom (offset + 1) line (column + 1) t) := by
  rw [placeFrom_space, skipGaps]
  rfl

theorem skipGaps_feed :
    skipGaps inFlow false keyAllowed (placeFrom offset line column ('\n' :: t)) =
      skipGaps inFlow false (keyAllowed || !inFlow) (placeFrom (offset + 1) (line + 1) 0 t) := by
  rw [placeFrom_feed, skipGaps]
  rfl

theorem skipGaps_beginsLine {t : Text} (ht : BeginsLine t) :
    skipGaps inFlow false keyAllowed (placeFrom offset line column t) =
      (keyAllowed, placeFrom offset line column t) := by
  cases t with
  | nil => rfl
  | cons c t =>
      obtain ⟨hc, hnumber, -, -⟩ := ht c rfl
      exact skipGaps_visible inFlow keyAllowed offset line column t hc hnumber

end Gaps

theorem unwindFrom_of_le {column indent : Int} (h : indent ≤ column) (indents : List Int) :
    unwindFrom column indent indents = (indent, indents, 0) := by
  cases indents with
  | nil => rfl
  | cons i rest => rw [unwindFrom, if_neg (by omega)]

theorem column_placeFrom (offset line column : Nat) (t : Text) :
    Input.column (placeFrom offset line column t) = column := by
  rw [Input.column, here_placeFrom]

theorem unwind_of_le {l : Lexer} (h : l.outer = [] → l.indent ≤ l.column) : l.unwind l.column = l := by
  unfold unwind
  split
  · rfl
  next hflow =>
    have houter : l.outer = [] := by simpa [inFlow] using hflow
    rw [unwindFrom_of_le (h houter)]
    simp

/-- Where no collection ends, going on to the next token only skips what stands before it. -/
theorem toNext_of_le {l : Lexer} {s : Input} {keyAllowed : Bool} {candidate : Option Candidate}
    {outer : List (Option Candidate)} (hskip : skipGaps l.inFlow false l.keyAllowed l.rest = (keyAllowed, s))
    (hcandidate : refresh s.here l.candidate = some candidate)
    (houter : l.outer.mapM (refresh s.here) = some outer)
    (hcolumn : outer = [] → l.indent ≤ s.column) :
    l.toNext = some { l with rest := s, keyAllowed := keyAllowed, candidate := candidate, outer := outer } := by
  have hunwind := unwind_of_le (l := { l with
    rest := s, keyAllowed := keyAllowed, candidate := candidate, outer := outer }) hcolumn
  simp only [toNext, hskip, dropStale, hcandidate, houter, bind, Option.bind, pure]
  exact congrArg some hunwind

section Dispatch

variable {l : Lexer} {offset line column : Nat} {t : Text}

theorem peekAt_one_placeFrom {c : Char} (hc : isVisible c = true) :
    Input.peekAt 1 (placeFrom offset line column (c :: t)) = t.head?.getD endMark := by
  rw [Input.peekAt, drop_one_placeFrom hc, peek_placeFrom]

theorem fetch_plain {c : Char} (hc : isVisible c = true)
    (hmark : isMark c = false ∨ (c ∈ ['-', '?', ':'] ∧ endsWord (t.head?.getD endMark) = false))
    (hcolumn : column ≠ 0 ∨ (c ≠ '-' ∧ c ≠ '.')) (hrest : l.rest = placeFrom offset line column (c :: t))
    (houter : l.outer = []) : l.fetch = orElse .malformed l.plainScalar := by
  have hpeek : l.rest.peek = c := by rw [hrest, peek_placeFrom]; rfl
  have hnext : l.rest.peekAt 1 = t.head?.getD endMark := by rw [hrest, peekAt_one_placeFrom hc]
  have hplace : l.rest.column = column := by rw [hrest, column_placeFrom]
  have hflow : l.inFlow = false := by rw [inFlow, houter]; rfl
  have hword := endsWord_of_isVisible hc
  rcases hmark with hmark | ⟨hmark, halone⟩
  · simp only [isMark, List.contains_eq_any_beq] at hmark
    simp at hmark
    have hdot : c = '.' → column ≠ 0 := fun h => hcolumn.resolve_right fun hne => hne.2 h
    simp only [fetch, fetchMark, hpeek, hplace, startsPlain, hword]
    by_cases hc : c = '.'
    · simp [hc, hdot hc, isMark]
    · simp [hmark, hc, isMark]
  · simp only [List.mem_cons, List.not_mem_nil, or_false] at hmark
    simp only [fetch, fetchMark, hpeek, hnext, hplace, startsPlain, hflow, halone, hword]
    rcases hmark with rfl | rfl | rfl
    · have hplace : column ≠ 0 := hcolumn.resolve_right fun hne => hne.1 rfl
      simp [hplace]
    · simp
    · simp

theorem fetch_singleQuote (h : l.rest.peek = '\'') : l.fetch = orElse .malformed l.singleQuotedScalar := by
  simp [fetch, fetchMark, h]

theorem fetch_doubleQuote (h : l.rest.peek = '"') : l.fetch = l.doubleQuotedScalar := by
  simp [fetch, h]

end Dispatch

/-- A state inside the mapping of the file, outside of brackets. -/
def inBlock (rest : Input) (ts : List Token) (keyAllowed : Bool) (candidate : Option Candidate) : Lexer :=
  ⟨rest, ts.toArray, 0, [-1], keyAllowed, candidate, []⟩

/-- What may have been read before the first key, and what is put in before it. -/
inductive Opening : (indent : Int) → (indents : List Int) → List Token → Prop
  | first : Opening (-1) [] [.blockMappingStart]
  | later : Opening 0 [-1] []

/-- From the state, reading goes on to the beginning of a line of the mapping. -/
def ComesTo (l : Lexer) (ts : List Token) (t : Text) : Prop :=
  ∃ offset line, l.toNext = some (inBlock (placeFrom offset line 0 t) ts true none)

theorem insertIdx_length_append {α : Type} (ts us : List α) (a : α) :
    (ts ++ us).insertIdx ts.length a = ts ++ a :: us := by
  induction ts with
  | nil => rfl
  | cons b ts ih => rw [List.cons_append, List.length_cons, List.insertIdx_succ_cons, ih, List.cons_append]

theorem refresh_of_line_lt {here : Placed} {candidate : Option Candidate}
    (h : ∀ c ∈ candidate, c.required = false ∧ c.place.line < here.line) :
    refresh here candidate = some none := by
  cases candidate with
  | none => rfl
  | some c =>
      obtain ⟨hrequired, hline⟩ := h c rfl
      have hstale : isStale here c = true := by
        have hne : c.place.line ≠ here.line := by omega
        simp [isStale, hne]
      rw [refresh, if_pos hstale, hrequired]
      rfl

theorem comesTo_of_line {candidate : Option Candidate} {line : Nat} {t : Text} (ht : BeginsLine t)
    (ts : List Token) (offset : Nat) (h : ∀ c ∈ candidate, c.required = false ∧ c.place.line < line) :
    (inBlock (placeFrom offset line 0 t) ts true candidate).ComesTo ts t := by
  refine ⟨offset, line, toNext_of_le (skipGaps_beginsLine _ _ _ _ _ ht) (refresh_of_line_lt ?_) rfl ?_⟩
  · rw [here_placeFrom]
    exact h
  · intro _
    rw [column_placeFrom]
    exact Int.le_refl 0

theorem comesTo_of_feed {candidate : Option Candidate} {line : Nat} {t : Text} (ht : BeginsLine t)
    (ts : List Token) (keyAllowed : Bool) (offset column : Nat)
    (h : ∀ c ∈ candidate, c.required = false ∧ c.place.line ≤ line) :
    (inBlock (placeFrom offset line column ('\n' :: t)) ts keyAllowed candidate).ComesTo ts t := by
  refine ⟨offset + 1, line + 1, toNext_of_le (s := placeFrom (offset + 1) (line + 1) 0 t) ?_
    (refresh_of_line_lt ?_) rfl ?_⟩
  · have hflow :
        (inBlock (placeFrom offset line column ('\n' :: t)) ts keyAllowed candidate).inFlow = false := rfl
    rw [hflow]
    refine (skipGaps_feed _ _ _ _ _ _).trans ?_
    rw [skipGaps_beginsLine _ _ _ _ _ ht]
    simp
  · rw [here_placeFrom]
    exact fun c hc => ⟨(h c hc).1, Nat.lt_succ_of_le (h c hc).2⟩
  · intro _
    rw [column_placeFrom]
    exact Int.le_refl 0

def marked (l : Lexer) : Option Candidate :=
  if l.keyAllowed then some ⟨l.tokens.size, l.indent == l.column, l.rest.here⟩ else none

theorem markCandidate_of_none {l : Lexer} (hcandidate : l.candidate = none) (houter : l.outer = []) :
    l.markCandidate = some { l with candidate := l.marked } := by
  obtain ⟨rest, tokens, indent, indents, keyAllowed, candidate, outer⟩ := l
  dsimp only at hcandidate houter
  subst hcandidate houter
  cases keyAllowed <;> rfl

theorem plainScalar_of_none {l : Lexer} {t : Text} {rest : Input} {atLineStart : Bool}
    (hcandidate : l.candidate = none)
    (houter : l.outer = []) (hplain : plain false (l.indent + 1) .none [] l.rest = (⟨t, rest⟩, atLineStart)) :
    l.plainScalar = some { l with
      rest := rest, tokens := l.tokens.push (.scalar true (.ofText t)), keyAllowed := atLineStart,
      candidate := l.marked } := by
  have hflow : l.inFlow = false := by rw [inFlow, houter]; rfl
  rw [plainScalar, markCandidate_of_none hcandidate houter]
  simp [inFlow, houter, hplain, push]

theorem refresh_of_not_stale {here : Placed} {c : Candidate} (h : isStale here c = false) :
    refresh here (some c) = some (some c) := by
  rw [refresh, h]
  rfl

/-- A colon on the line of a candidate makes a key of it; the first key opens the mapping. -/
theorem leads_colon {indent : Int} {indents : List Int} {opening ts : List Token}
    (hopening : Opening indent indents opening)
    {u : Text} (hu : endsWord (u.head?.getD endMark) = true) {offset offset' line column : Nat}
    (hshort : offset' - offset ≤ maxKeyLength) (t : Token) (required : Bool) (c : Char) :
    Leads ⟨placeFrom offset' line column (':' :: u), (ts ++ [t]).toArray, indent, indents, false,
        some ⟨ts.length, required, ⟨c, offset, line, 0⟩⟩, []⟩
      (inBlock (placeFrom (offset' + 1) line (column + 1) u)
        (ts ++ opening ++ [.key, t, .value]) false none) := by
  have hcolon : isVisible ':' = true := by decide
  have hindent : indent ≤ 0 := by cases hopening <;> decide
  have hnext :=
    toNext_of_le (l := ⟨placeFrom offset' line column (':' :: u), (ts ++ [t]).toArray, indent, indents, false,
        some ⟨ts.length, required, ⟨c, offset, line, 0⟩⟩, []⟩)
      (skipGaps_visible _ _ _ _ _ _ hcolon (by decide))
      (refresh_of_not_stale (by simp [isStale, here_placeFrom, hshort])) rfl
      (fun _ => by rw [column_placeFrom]; dsimp only; omega)
  refine leads_of_fetch hnext ?_ ?_ (by simp [inBlock, length_placeFrom])
  · rw [peek_placeFrom]
    exact ne_of_isVisible hcolon (by decide)
  have hkey : (ts ++ [t]).insertIdx ts.length Token.key = ts ++ [.key, t] := insertIdx_length_append _ _ _
  have hstart :
      (ts ++ [.key, t]).insertIdx ts.length Token.blockMappingStart = ts ++ [.blockMappingStart, .key, t] :=
    insertIdx_length_append _ _ _
  have hdrop := drop_one_placeFrom hcolon offset' line column u
  cases hopening
  all_goals
    simp [fetch, fetchMark, peek_placeFrom, peekAt_one_placeFrom hcolon, hu, value, inFlow, openAt, push,
      drop, inBlock, orElse, hkey, hstart, hdrop]

theorem leads_key {l : Lexer} {k u : Text} {indent : Int} {indents : List Int} {opening ts : List Token}
    {offset line : Nat} (hopening : Opening indent indents opening) (hk : IsKey k)
    (hu : endsWord (u.head?.getD endMark) = true)
    (hl : l.toNext =
      some ⟨placeFrom offset line 0 (k ++ ':' :: u), ts.toArray, indent, indents, true, none, []⟩) :
    l.Leads (inBlock (placeFrom (offset + k.length + 1) line (k.length + 1) u)
      (ts ++ opening ++ [.key, .scalar true (.ofText k), .value]) false none) := by
  obtain ⟨c, w, hkc, hc⟩ := hk.first
  have hvisible := isVisible_of_isLower hc
  -- the name of the key is a plain scalar that may become a key
  have hscalar :=
    plain_word (fun d hd => isVisible_of_isKeyChar (hk.chars d hd)) (indent + 1) [] offset line 0 (':' :: u)
  rw [plain_colon hu, List.append_nil, List.reverse_reverse, Nat.zero_add] at hscalar
  have hfetch := (fetch_plain hvisible (.inl (isMark_of_isLower hc))
    (.inr ⟨ne_of_isLower hc (by decide), ne_of_isLower hc (by decide)⟩)
    (l := ⟨placeFrom offset line 0 (k ++ ':' :: u), ts.toArray, indent, indents, true, none, []⟩)
    (by rw [hkc]; rfl) rfl).trans (congrArg (orElse .malformed) (plainScalar_of_none rfl rfl hscalar))
  have hmarked : marked ⟨placeFrom offset line 0 (k ++ ':' :: u), ts.toArray, indent, indents, true, none, []⟩ =
      some ⟨ts.length, indent == 0, ⟨c, offset, line, 0⟩⟩ := by
    simp [marked, here_placeFrom, column, column_placeFrom, hkc]
  rw [hmarked, List.push_toArray] at hfetch
  have hname :=
    leads_of_fetch hl (by rw [peek_placeFrom, hkc]; exact ne_of_isVisible hvisible (by decide)) hfetch (by
    simp only [length_placeFrom, hkc, List.length_append, List.length_cons]
    omega)
  have hshort : offset + k.length - offset ≤ maxKeyLength := by
    have := hk.short
    omega
  exact hname.trans (leads_colon hopening hu hshort _ _ c)

theorem leads_dash {l : Lexer} {offset line : Nat} {t : Text} {ts : List Token}
    (hl : l.toNext = some (inBlock (placeFrom offset line 0 ('-' :: ' ' :: t)) ts true none)) :
    l.Leads (inBlock (placeFrom (offset + 1) line 1 (' ' :: t)) (ts ++ [.blockEntry]) true none) := by
  have hdash : isVisible '-' = true := by decide
  have hmark := (beginsLine_dash t).isDocumentMark offset line
  have halone : Input.peekAt 1 (placeFrom offset line 0 ('-' :: ' ' :: t)) = ' ' := rfl
  have htail :
      List.tail (placeFrom offset line 0 ('-' :: ' ' :: t)) = placeFrom (offset + 1) line 1 (' ' :: t) := rfl
  refine leads_of_fetch hl ?_ ?_ ?_
  · exact ne_of_isVisible hdash (by decide)
  · simp [fetch, fetchMark, inBlock, peek_placeFrom, halone, hmark, column_placeFrom, blockMark, inFlow, openAt,
      forgetCandidate, push, drop, orElse, htail, column, endsWord]
  · simp [inBlock, length_placeFrom]

theorem toNext_space {c : Char} (hc : isVisible c = true) (hnumber : c ≠ '#') (offset line column : Nat)
    (t : Text) (ts : List Token) (keyAllowed : Bool) :
    (inBlock (placeFrom offset line column (' ' :: c :: t)) ts keyAllowed none).toNext =
      some (inBlock (placeFrom (offset + 1) line (column + 1) (c :: t)) ts keyAllowed none) := by
  refine toNext_of_le ((skipGaps_space _ _ _ _ _ _).trans (skipGaps_visible _ _ _ _ _ _ hc hnumber)) rfl rfl
    fun _ => ?_
  rw [column_placeFrom]
  exact Int.natCast_nonneg _

/-- The first character of a plain text is no mark, unless a word goes on behind it. -/
theorem isMark_of_hasLeadingMark {c : Char} {t : Text} (h : hasLeadingMark (c :: t) = false) :
    c ≠ '#' ∧ (isMark c = false ∨ (c ∈ ['-', '?', ':'] ∧ atWordEnd t = false)) := by
  simp only [hasLeadingMark, Bool.or_eq_false_iff] at h
  obtain ⟨hmarks, hword⟩ := h
  simp at hmarks
  refine ⟨hmarks.1, ?_⟩
  by_cases hc : c ∈ ['-', '?', ':']
  · refine .inr ⟨hc, ?_⟩
    simp only [List.mem_cons, List.not_mem_nil, or_false] at hc
    rcases hc with rfl | rfl | rfl <;> simpa using hword
  · left
    simp only [List.mem_cons, List.not_mem_nil, or_false, not_or] at hc
    simp [isMark, hmarks, hc]

/-- What may be remembered inside the mapping need not be a key, as it is indented. -/
theorem marked_inBlock {place : Nat} (hplace : 0 < place) (offset line : Nat) (t : Text) (ts : List Token)
    (keyAllowed : Bool) (candidate : Option Candidate) :
    ∀ c ∈ (inBlock (placeFrom offset line place t) ts keyAllowed candidate).marked,
      c.required = false ∧ c.place.line = line := by
  intro c hc
  cases keyAllowed with
  | false => cases hc
  | true =>
      have hne : ¬ (0 : Int) = place := by omega
      cases hc
      simp [inBlock, column, column_placeFrom, here_placeFrom, hne]

section Scalars

variable {s rest : Input} (ts : List Token) (keyAllowed : Bool)

theorem plainScalar_inBlock {t : Text} {atLineStart : Bool}
    (h : plain false 1 .none [] s = (⟨t, rest⟩, atLineStart)) :
    (inBlock s ts keyAllowed none).plainScalar =
      some (inBlock rest (ts ++ [.scalar true (.ofText t)]) atLineStart
        (inBlock s ts keyAllowed none).marked) := by
  rw [plainScalar_of_none (l := inBlock s ts keyAllowed none) rfl rfl h]
  simp [inBlock]

theorem singleQuotedScalar_inBlock {t : Text} (h : singleQuoted .none [] (s.drop 1) = some ⟨t, rest⟩) :
    (inBlock s ts keyAllowed none).singleQuotedScalar =
      some (inBlock rest (ts ++ [.scalar false (.ofText t)]) false (inBlock s ts keyAllowed none).marked) := by
  rw [singleQuotedScalar, markCandidate_of_none rfl rfl]
  simp only [bind, Option.bind, inBlock, h]
  simp [push]

theorem doubleQuotedScalar_inBlock {c : Codes} (h : doubleQuoted .none [] (s.drop 1) = .ok (c, rest)) :
    (inBlock s ts keyAllowed none).doubleQuotedScalar =
      .ok (inBlock rest (ts ++ [.scalar false c]) false (inBlock s ts keyAllowed none).marked) := by
  rw [doubleQuotedScalar, markCandidate_of_none rfl rfl]
  simp only [bind, Except.bind, orElse, inBlock, h]
  simp [push, pure, Except.pure]

end Scalars

theorem leads_scalar {c : Char} (hc : isVisible c = true) (hnumber : c ≠ '#') {offset line place : Nat}
    {u : Text} {ts ts' : List Token} {keyAllowed keyAfter : Bool} {s : Input} {candidate : Option Candidate}
    (hfetch : fetch (inBlock (placeFrom (offset + 1) line (place + 1) (c :: u)) ts keyAllowed none) =
      .ok (inBlock s ts' keyAfter candidate))
    (hlength : s.length ≤ u.length + 1) :
    Leads (inBlock (placeFrom offset line place (' ' :: c :: u)) ts keyAllowed none)
      (inBlock s ts' keyAfter candidate) := by
  refine leads_of_fetch (toNext_space hc hnumber offset line place u ts keyAllowed) ?_ hfetch ?_
  · rw [inBlock, peek_placeFrom]
    exact ne_of_isVisible hc (by decide)
  · have hplaces := length_placeFrom (offset + 1) line (place + 1) (c :: u)
    rw [List.length_cons] at hplaces
    simp only [inBlock]
    omega

theorem leads_plain {t rest : Text} (ht : IsPlain t) (hrest : BeginsLine rest) (width offset line place : Nat)
    (ts : List Token) (keyAllowed : Bool) :
    ∃ l', Leads (inBlock (placeFrom offset line place (' ' :: plainFrom false width t ++ '\n' :: rest))
      ts keyAllowed none) l'
      ∧ l'.ComesTo (ts ++ [.scalar true (.ofText t)]) rest := by
  obtain ⟨c, t', rfl⟩ := List.exists_cons_of_ne_nil ht.ne_nil
  have hspace : c ≠ ' ' := fun h => ht.head (congrArg some h)
  have hc : isVisible c = true := (ht.ascii c List.mem_cons_self).resolve_left hspace
  have htext : plainFrom false width (c :: t') = c :: plainFrom false (width + 1) t' := by
    rw [plainFrom, if_neg (by simp [hspace]), beq_false_of_ne hspace]
  obtain ⟨hnumber, hmark⟩ := isMark_of_hasLeadingMark ht.leading
  have hmark := hmark.imp_right fun h => And.intro h.1
    (endsWord_plainFrom (fun d hd => ht.ascii d (List.mem_cons_of_mem c hd)) false (width + 1) rest h.2)
  obtain ⟨offset', line', hline, hscalar⟩ := ht.readsPlain hrest width (offset + 1) line (place + 1) (by omega)
  rw [htext, List.cons_append] at hscalar ⊢
  have hfetch := (fetch_plain hc hmark (.inl (Nat.succ_ne_zero place))
    (l := inBlock (placeFrom (offset + 1) line (place + 1)
      (c :: (plainFrom false (width + 1) t' ++ '\n' :: rest))) ts
      keyAllowed none) rfl rfl).trans (congrArg (orElse .malformed) (plainScalar_inBlock ts keyAllowed hscalar))
  refine ⟨_, leads_scalar hc hnumber hfetch (by simp [length_placeFrom]; omega), ?_⟩
  refine comesTo_of_line hrest _ offset' fun c hc => ?_
  obtain ⟨hrequired, hsame⟩ := marked_inBlock (Nat.succ_pos place) _ _ _ _ _ _ c hc
  exact ⟨hrequired, by omega⟩

theorem comesTo_of_quote {rest u : Text} (hrest : BeginsLine rest) {ts ts' : List Token} {keyAllowed : Bool}
    {offset line place offset' line' place' : Nat} (hline : line ≤ line') :
    (inBlock (placeFrom offset' line' place' ('\n' :: rest)) ts' false
      (inBlock (placeFrom (offset + 1) line (place + 1) u) ts keyAllowed none).marked).ComesTo ts' rest := by
  refine comesTo_of_feed hrest _ false offset' place' fun c hc => ?_
  obtain ⟨hrequired, hsame⟩ := marked_inBlock (Nat.succ_pos place) _ _ _ _ _ _ c hc
  exact ⟨hrequired, by omega⟩

theorem leads_singleQuoted {t rest : Text} (ht : admitsSingleQuotes t = true) (hrest : BeginsLine rest)
    (width offset line place : Nat) (ts : List Token) (keyAllowed : Bool) :
    ∃ l', Leads (inBlock (placeFrom offset line place
        (' ' :: '\'' :: (singleFrom '\'' width t ++ '\'' :: '\n' :: rest))) ts keyAllowed none) l'
      ∧ l'.ComesTo (ts ++ [.scalar false (.ofText t)]) rest := by
  have hc : isVisible '\'' = true := by decide
  obtain ⟨offset', line', place', hline, hscalar⟩ := readsSingle_of_admits ht rest width (offset + 1 + 1) line
    (place + 1 + 1)
  rw [← drop_one_placeFrom hc] at hscalar
  have hfetch := congrArg (orElse .malformed) (singleQuotedScalar_inBlock ts keyAllowed hscalar)
  rw [← fetch_singleQuote (by rw [inBlock, peek_placeFrom]; rfl)] at hfetch
  exact ⟨_, leads_scalar hc (by decide) hfetch (by simp [length_placeFrom]; omega),
    comesTo_of_quote hrest hline⟩

theorem leads_doubleQuoted {rest : Text} (hrest : BeginsLine rest) (t : Text) (width offset line place : Nat)
    (ts : List Token) (keyAllowed : Bool) :
    ∃ l', Leads (inBlock (placeFrom offset line place
        (' ' :: '"' :: (doubleFrom true false width t ++ '"' :: '\n' :: rest))) ts keyAllowed none) l'
      ∧ l'.ComesTo (ts ++ [.scalar false (.ofText t)]) rest := by
  have hc : isVisible '"' = true := by decide
  obtain ⟨offset', line', place', hline, hscalar⟩ :=
    readsDouble_text t ('\n' :: rest) width (offset + 1 + 1) line
    (place + 1 + 1)
  rw [← drop_one_placeFrom hc] at hscalar
  have hfetch := doubleQuotedScalar_inBlock ts keyAllowed hscalar
  rw [← fetch_doubleQuote (by rw [inBlock, peek_placeFrom]; rfl)] at hfetch
  exact ⟨_, leads_scalar hc (by decide) hfetch (by simp [length_placeFrom]; omega),
    comesTo_of_quote hrest hline⟩

theorem leads_text {rest : Text} (hrest : BeginsLine rest) (t : Text) (width offset line place : Nat)
    (ts : List Token) (keyAllowed : Bool) :
    ∃ l', Leads (inBlock (placeFrom offset line place (' ' :: textFrom width t ++ '\n' :: rest))
      ts keyAllowed none) l'
      ∧ l'.ComesTo (ts ++ [.scalar (admitsPlain t) (.ofText t)]) rest := by
  unfold textFrom
  by_cases hplain : admitsPlain t = true
  · rw [if_pos hplain, hplain]
    exact leads_plain (isPlain_of_admitsPlain hplain) hrest width offset line place ts keyAllowed
  · rw [if_neg hplain, Bool.eq_false_iff.mpr hplain]
    by_cases hsingle : admitsSingleQuotes t = true
    · obtain ⟨l', hleads, hcomes⟩ :=
        leads_singleQuoted hsingle hrest (width + 1) offset line place ts keyAllowed
      exact ⟨l', by simpa [hsingle] using hleads, hcomes⟩
    · obtain ⟨l', hleads, hcomes⟩ := leads_doubleQuoted hrest t (width + 1) offset line place ts keyAllowed
      exact ⟨l', by simpa [hsingle] using hleads, hcomes⟩

theorem leads_leaf {v : Value} (hv : IsLeaf v) {rest : Text} (hrest : BeginsLine rest)
    (width offset line place : Nat) (ts : List Token) (keyAllowed : Bool) :
    ∃ l', Leads (inBlock (placeFrom offset line place (' ' :: scalarFrom width v ++ '\n' :: rest))
      ts keyAllowed none) l'
      ∧ l'.ComesTo (ts ++ [leafToken v]) rest := by
  rcases hv.text_or_word with ⟨t, rfl⟩ | ⟨w, hw⟩
  · exact leads_text hrest t width offset line place ts keyAllowed
  · obtain ⟨l', hleads, hcomes⟩ := leads_plain hw.plain hrest width offset line place ts keyAllowed
    rw [plainFrom_of_not_mem hw.noSpace] at hleads
    rw [hw.written, hw.token]
    exact ⟨l', hleads, hcomes⟩

/-- The state between brackets, where the candidate around them is kept: there is none. -/
def inBrackets (s : Input) (ts : List Token) : Lexer :=
  { inBlock s ts true none with outer := [none] }

theorem leads_emptyList {rest : Text} (hrest : BeginsLine rest) (offset line place : Nat) (ts : List Token) :
    ∃ l', Leads (inBlock (placeFrom offset line place (' ' :: '[' :: ']' :: '\n' :: rest)) ts false none) l'
      ∧ l'.ComesTo (ts ++ [.flowSequenceStart, .flowSequenceEnd]) rest := by
  have hstart : isVisible '[' = true := by decide
  have hend : isVisible ']' = true := by decide
  have hfirst :
      fetch (inBlock (placeFrom (offset + 1) line (place + 1) ('[' :: ']' :: '\n' :: rest)) ts false none) =
        .ok (inBrackets (placeFrom (offset + 2) line (place + 2) (']' :: '\n' :: rest))
          (ts ++ [.flowSequenceStart])) := by
    have htail : List.tail (placeFrom (offset + 1) line (place + 1) ('[' :: ']' :: '\n' :: rest)) =
        placeFrom (offset + 2) line (place + 2) (']' :: '\n' :: rest) := rfl
    simp [fetch, fetchMark, inBrackets, inBlock, peek_placeFrom, flowStart, markCandidate, push, drop, orElse,
      htail]
  have hopened :=
    leads_of_fetch (toNext_space hstart (by decide) offset line place (']' :: '\n' :: rest) ts false)
      (by rw [inBlock, peek_placeFrom]; exact ne_of_isVisible hstart (by decide)) hfirst
      (by simp [inBrackets, inBlock, length_placeFrom])
  have hnext :
      toNext (inBrackets (placeFrom (offset + 2) line (place + 2) (']' :: '\n' :: rest))
        (ts ++ [.flowSequenceStart])) =
      some (inBrackets (placeFrom (offset + 2) line (place + 2) (']' :: '\n' :: rest))
        (ts ++ [.flowSequenceStart])) :=
    toNext_of_le (skipGaps_visible _ _ _ _ _ _ hend (by decide)) rfl rfl fun h => (by cases h)
  have hsecond :
      fetch (inBrackets (placeFrom (offset + 2) line (place + 2) (']' :: '\n' :: rest))
        (ts ++ [.flowSequenceStart])) =
      .ok (inBlock (placeFrom (offset + 3) line (place + 3) ('\n' :: rest))
        (ts ++ [.flowSequenceStart, .flowSequenceEnd]) false none) := by
    have htail : List.tail (placeFrom (offset + 2) line (place + 2) (']' :: '\n' :: rest)) =
        placeFrom (offset + 3) line (place + 3) ('\n' :: rest) := rfl
    simp [fetch, fetchMark, inBrackets, inBlock, peek_placeFrom, flowEnd, forgetCandidate, push, drop, orElse,
      htail]
  have hclosed :=
    leads_of_fetch hnext
      (by rw [inBrackets, inBlock, peek_placeFrom]; exact ne_of_isVisible hend (by decide)) hsecond
      (by simp [inBrackets, inBlock, length_placeFrom])
  exact ⟨_, hopened.trans hclosed, comesTo_of_feed hrest _ false _ _ fun c hc => (by cases hc)⟩

end Lexer

end Yaml

end Synopsis
