import Synopsis.Proofs.EmphasisPairs

/-!
# Stripping twice

A second stripping finds something to do exactly where the first one leaves an emphasised word behind. It can:
the piece before a word is tested before the word is joined to it, so two asterisks with nothing between them,
or with a beginning of `;...`, can come to enclose a word that the walk has already passed. Where no such
beginning stands between two asterisks, stripping twice is stripping once.
-/

namespace Synopsis

namespace Emphasis

open Text

/-- Whether a piece between two asterisks is an emphasised word, of any of the three forms. -/
def isEmphasised (piece : Text) : Bool :=
  [['.', '.', '.'], [';', '.', '.', '.'], []].any fun lead => isWordAfter lead piece

def inner (pieces : List Text) : List Text :=
  pieces.tail.dropLast

/-- What stands between two neighbouring asterisks of a text, its escapes being hidden. -/
def enclosed (t : Text) : List Text :=
  inner (cutAt '*' (hideEscapes t))

theorem isEmphasised_eq_false_iff {piece : Text} : isEmphasised piece = false ↔
    isWordAfter ['.', '.', '.'] piece = false ∧ isWordAfter [';', '.', '.', '.'] piece = false ∧
      isWordAfter [] piece = false := by
  simp [isEmphasised]

theorem isWordAfter_iff {lead t : Text} : isWordAfter lead t = true ↔
    ∃ rest, t = lead ++ rest ∧ rest ≠ [] ∧ ∀ c ∈ rest, isWordChar c = true := by
  unfold isWordAfter
  split
  · next rest hafter =>
      obtain rfl := after?_eq_some_iff.mp hafter
      simp
  · next hafter =>
      have hnot : ∀ rest, t ≠ lead ++ rest := fun rest ht => by
        rw [after?_eq_some_iff.mpr ht] at hafter
        cases hafter
      simp [hnot]

theorem isWordAfter_of_start {lead start t : Text} (ht : isWordAfter lead t = true) (hstart : start <+: t)
    (hlead : ¬ start <+: lead) : isWordAfter lead start = true := by
  obtain ⟨rest, rfl, hrest, hword⟩ := isWordAfter_iff.mp ht
  rcases List.prefix_or_prefix_of_prefix hstart (List.prefix_append lead rest) with hshort | ⟨beyond, rfl⟩
  · exact absurd hshort hlead
  · have hbeyond := (List.prefix_append_right_inj lead).mp hstart
    refine isWordAfter_iff.mpr ⟨beyond, rfl, ?_, fun c hc => hword c (hbeyond.subset hc)⟩
    rintro rfl
    exact hlead (by rw [List.append_nil])

theorem isWordAfter_nil_of_spread {t : Text} (h : isWordAfter ['.', '.', '.'] t = true) :
    isWordAfter [] t = true := by
  obtain ⟨rest, rfl, -, hword⟩ := isWordAfter_iff.mp h
  refine isWordAfter_nil_iff.mpr ⟨by simp, ?_⟩
  intro c hc
  rcases List.mem_append.mp hc with hdot | hrest
  · exact List.all_eq_true.mp (by decide : (['.', '.', '.'].all isWordChar) = true) c hdot
  · exact hword c hrest

theorem inner_cons_cons_cons (first piece next : Text) (pieces : List Text) :
    inner (first :: piece :: next :: pieces) = piece :: inner (piece :: next :: pieces) := rfl

theorem inner_of_length_le {pieces : List Text} (h : pieces.length ≤ 2) : inner pieces = [] := by
  rw [inner, ← List.length_eq_zero_iff, List.length_dropLast, List.length_tail]
  omega

theorem inner_appendFirst (s : Text) {pieces : List Text} (h : pieces ≠ []) :
    inner (appendFirst s pieces) = inner pieces := by
  cases pieces with
  | nil => exact absurd rfl h
  | cons t ts => rfl

theorem mem_inner_cons {first piece : Text} {pieces : List Text} (h : piece ∈ inner (first :: pieces)) :
    pieces.head? = some piece ∨ piece ∈ inner pieces := by
  match pieces with
  | [] => cases h
  | [_] => cases h
  | second :: third :: rest =>
      rw [inner_cons_cons_cons] at h
      rcases List.mem_cons.mp h with rfl | hinner
      · exact .inl rfl
      · exact .inr hinner

theorem length_appendFirst (s : Text) {pieces : List Text} (h : pieces ≠ []) :
    (appendFirst s pieces).length = pieces.length := by
  cases pieces with
  | nil => exact absurd rfl h
  | cons t ts => rfl

theorem length_le_two_of_not {pieces : List Text}
    (h : ∀ before word next rest, pieces = before :: word :: next :: rest → False) : pieces.length ≤ 2 := by
  match pieces with
  | [] => simp
  | [_] => simp
  | [_, _] => simp
  | before :: word :: next :: rest => exact (h before word next rest rfl).elim

section Walk

variable (isWord : Text → Bool)

/-- A walk that changes anything has fewer pieces in the end. -/
theorem unwrap_eq_self_or_lt (pieces : List Text) :
    unwrap isWord pieces = pieces ∨ (unwrap isWord pieces).length < pieces.length := by
  fun_induction unwrap isWord pieces with
  | case1 before word next pieces hword ih =>
      right
      rw [joinFirst_eq_appendFirst, length_appendFirst _ (unwrap_ne_nil isWord (List.cons_ne_nil _ _))]
      have hle : (unwrap isWord (next :: pieces)).length ≤ (next :: pieces).length := by
        rcases ih with hsame | hlt
        · rw [hsame]
        · exact hlt.le
      simp only [List.length_cons] at hle ⊢
      omega
  | case2 before word next pieces hword ih =>
      rcases ih with hsame | hlt
      · exact .inl (congrArg _ hsame)
      · exact .inr (Nat.succ_lt_succ hlt)
  | case3 pieces hpieces => exact .inl rfl

theorem length_unwrap_le (pieces : List Text) : (unwrap isWord pieces).length ≤ pieces.length := by
  rcases unwrap_eq_self_or_lt isWord pieces with hsame | hlt
  · rw [hsame]
  · exact hlt.le

theorem unwrap_eq_self_of_length_le {pieces : List Text} (h : pieces.length ≤ (unwrap isWord pieces).length) :
    unwrap isWord pieces = pieces := by
  rcases unwrap_eq_self_or_lt isWord pieces with hsame | hlt
  · exact hsame
  · exact absurd h (Nat.not_le.mpr hlt)

/-- A walk leaves the pieces as they are exactly when none of the inner ones is a word. -/
theorem unwrap_eq_self_iff (pieces : List Text) :
    unwrap isWord pieces = pieces ↔ ∀ piece ∈ inner pieces, isWord piece = false := by
  fun_induction unwrap isWord pieces with
  | case1 before word next pieces hword ih =>
      constructor
      · intro hsame
        have hle := length_unwrap_le isWord (next :: pieces)
        rw [joinFirst_eq_appendFirst] at hsame
        have hlength := congrArg List.length hsame
        rw [length_appendFirst _ (unwrap_ne_nil isWord (List.cons_ne_nil _ _))] at hlength
        simp only [List.length_cons] at hle hlength
        omega
      · intro hnone
        rw [hnone word List.mem_cons_self] at hword
        cases hword
  | case2 before word next pieces hword ih =>
      rw [List.cons_inj_right, ih, inner_cons_cons_cons, List.forall_mem_cons]
      simp only [Bool.not_eq_true] at hword
      exact ⟨fun h => ⟨hword, h⟩, fun h => h.2⟩
  | case3 pieces hpieces =>
      rw [inner_of_length_le (length_le_two_of_not hpieces)]
      simp

theorem not_mem_of_mem_unwrap {c : Char} {pieces : List Text} (h : ∀ piece ∈ pieces, c ∉ piece) :
    ∀ piece ∈ unwrap isWord pieces, c ∉ piece := by
  intro piece hpiece hc
  have hmem : c ∈ (unwrap isWord pieces).flatMap (List.filter (· == c)) :=
    List.mem_flatMap.mpr ⟨piece, hpiece, List.mem_filter.mpr ⟨hc, beq_self_eq_true c⟩⟩
  rw [flatMap_filter_unwrap] at hmem
  obtain ⟨before, hbefore, hin⟩ := List.mem_flatMap.mp hmem
  exact h before hbefore (List.mem_of_mem_filter hin)

theorem prefix_of_unwrap_eq_cons {first start : Text} {pieces rest : List Text}
    (h : unwrap isWord (first :: pieces) = start :: rest) : first <+: start := by
  have hfirst : first :: pieces = appendFirst first ([] :: pieces) := by simp [appendFirst]
  rw [hfirst, unwrap_appendFirst] at h
  cases hrest : unwrap isWord ([] :: pieces) with
  | nil => exact absurd hrest (unwrap_ne_nil isWord (List.cons_ne_nil _ _))
  | cons t ts =>
      rw [hrest] at h
      exact ⟨t, (List.cons.inj h).1⟩

/-- An inner piece after a walk begins with one from before it that is no word. -/
theorem exists_prefix_of_mem_inner_unwrap (pieces : List Text) : ∀ piece ∈ inner (unwrap isWord pieces),
    ∃ start ∈ inner pieces, isWord start = false ∧ start <+: piece := by
  fun_induction unwrap isWord pieces with
  | case1 before word next pieces hword ih =>
      intro piece hpiece
      rw [joinFirst_eq_appendFirst, inner_appendFirst _ (unwrap_ne_nil isWord (List.cons_ne_nil _ _))] at hpiece
      obtain ⟨start, hstart, hnot, hstarts⟩ := ih piece hpiece
      refine ⟨start, ?_, hnot, hstarts⟩
      rw [inner_cons_cons_cons]
      cases pieces with
      | nil => cases hstart
      | cons behind rest => exact List.mem_cons_of_mem _ (List.mem_cons_of_mem _ hstart)
  | case2 before word next pieces hword ih =>
      intro piece hpiece
      rw [inner_cons_cons_cons]
      rcases mem_inner_cons hpiece with hhead | hinner
      · refine ⟨word, List.mem_cons_self, by simpa using hword, ?_⟩
        obtain ⟨rest, hrest⟩ := List.head?_eq_some_iff.mp hhead
        exact prefix_of_unwrap_eq_cons isWord hrest
      · obtain ⟨start, hstart, hnot, hstarts⟩ := ih piece hinner
        exact ⟨start, List.mem_cons_of_mem _ hstart, hnot, hstarts⟩
  | case3 pieces hpieces =>
      rw [inner_of_length_le (length_le_two_of_not hpieces)]
      simp

theorem not_prefix_of_mem_inner_unwrap {lead : Text} {pieces : List Text}
    (h : ∀ piece ∈ inner pieces, ¬ piece <+: lead) :
    ∀ piece ∈ inner (unwrap isWord pieces), ¬ piece <+: lead := by
  intro piece hpiece hlead
  obtain ⟨start, hstart, -, hstarts⟩ := exists_prefix_of_mem_inner_unwrap isWord pieces piece hpiece
  exact h start hstart (hstarts.trans hlead)

end Walk

theorem stripPieces_eq_self_iff (pieces : List Text) :
    stripPieces pieces = pieces ↔ ∀ piece ∈ inner pieces, isEmphasised piece = false := by
  unfold stripPieces
  constructor
  · intro hsame
    have hlength := congrArg List.length hsame
    have hwords := length_unwrap_le (isWordAfter [])
      (unwrap (isWordAfter [';', '.', '.', '.']) (unwrap (isWordAfter ['.', '.', '.']) pieces))
    have hseparated :=
      length_unwrap_le (isWordAfter [';', '.', '.', '.']) (unwrap (isWordAfter ['.', '.', '.']) pieces)
    -- No walk has taken anything, one after the other.
    have hfirst : unwrap (isWordAfter ['.', '.', '.']) pieces = pieces :=
      unwrap_eq_self_of_length_le _ (by omega)
    rw [hfirst] at hsame hlength hwords
    have hsecond : unwrap (isWordAfter [';', '.', '.', '.']) pieces = pieces :=
      unwrap_eq_self_of_length_le _ (by omega)
    rw [hsecond] at hsame
    intro piece hpiece
    exact isEmphasised_eq_false_iff.mpr ⟨(unwrap_eq_self_iff _ pieces).mp hfirst piece hpiece,
      (unwrap_eq_self_iff _ pieces).mp hsecond piece hpiece,
      (unwrap_eq_self_iff _ pieces).mp hsame piece hpiece⟩
  · intro hnone
    have hforms := fun piece hpiece => isEmphasised_eq_false_iff.mp (hnone piece hpiece)
    rw [(unwrap_eq_self_iff _ pieces).mpr fun piece hpiece => (hforms piece hpiece).1,
      (unwrap_eq_self_iff _ pieces).mpr fun piece hpiece => (hforms piece hpiece).2.1,
      (unwrap_eq_self_iff _ pieces).mpr fun piece hpiece => (hforms piece hpiece).2.2]

/-- Where no inner piece is a beginning of `;...`, no emphasised word is left: a piece that becomes one
begins with a piece that was one already, or with such a beginning. -/
theorem not_isEmphasised_of_mem_stripPieces {pieces : List Text}
    (h : ∀ piece ∈ inner pieces, ¬ piece <+: [';', '.', '.', '.']) :
    ∀ piece ∈ inner (stripPieces pieces), isEmphasised piece = false := by
  have hfirst := not_prefix_of_mem_inner_unwrap (isWordAfter ['.', '.', '.']) h
  have hsecond := not_prefix_of_mem_inner_unwrap (isWordAfter [';', '.', '.', '.']) hfirst
  intro piece hpiece
  obtain ⟨start, hstart, hnotWord, hstarts⟩ := exists_prefix_of_mem_inner_unwrap _ _ piece hpiece
  obtain ⟨origin, horigin, hnotSeparated, hbegins⟩ := exists_prefix_of_mem_inner_unwrap _ _ start hstart
  have hword : isWordAfter [] piece = false := by
    rw [Bool.eq_false_iff]
    intro hpiece'
    have hne : ¬ start <+: [] := fun hnil => hsecond start hstart (hnil.trans List.nil_prefix)
    rw [isWordAfter_of_start hpiece' hstarts hne] at hnotWord
    cases hnotWord
  have hseparated : isWordAfter [';', '.', '.', '.'] piece = false := by
    rw [Bool.eq_false_iff]
    intro hpiece'
    rw [isWordAfter_of_start hpiece' (hbegins.trans hstarts) (hfirst origin horigin)] at hnotSeparated
    cases hnotSeparated
  have hspread : isWordAfter ['.', '.', '.'] piece = false := by
    rw [Bool.eq_false_iff]
    intro hpiece'
    rw [isWordAfter_nil_of_spread hpiece'] at hword
    cases hword
  exact isEmphasised_eq_false_iff.mpr ⟨hspread, hseparated, hword⟩

section Hidden

theorem escapes_eq_zero_iff {t : Text} : escapes t = 0 ↔ ¬ ['\\', '*'] <:+: t := by
  rw [escapes, List.countP_eq_zero, List.infix_iff_prefix_suffix]
  simp only [List.mem_tails, startsWith_iff]
  constructor
  · rintro hnone ⟨s, hstarts, hsuffix⟩
    exact hnone s hsuffix hstarts
  · intro hnone s hsuffix hstarts
    exact hnone ⟨s, hstarts, hsuffix⟩

theorem cutAt_unmarked (t : Text) : cutAt '*' (unmarked t) = stripPieces (cutAt '*' t) := by
  refine cutAt_intercalate (stripPieces_ne_nil (cutAt_ne_nil '*' t)) ?_
  exact not_mem_of_mem_unwrap _ (not_mem_of_mem_unwrap _
    (not_mem_of_mem_unwrap _ fun piece => sep_not_mem_piece))

theorem unmarked_eq_self_iff (t : Text) :
    unmarked t = t ↔ ∀ piece ∈ inner (cutAt '*' t), isEmphasised piece = false := by
  rw [← stripPieces_eq_self_iff]
  constructor
  · intro hsame
    rw [← cutAt_unmarked, hsame]
  · intro hsame
    rw [unmarked, hsame, intercalate_cutAt]

theorem length_eq_count_add (t : Text) : t.length = t.count '*' + (t.filter (· != '*')).length := by
  induction t with
  | nil => rfl
  | cons c t ih =>
      by_cases hc : c = '*'
      · subst hc
        rw [List.length_cons, List.count_cons_self, List.filter_cons_of_neg (by simp)]
        omega
      · rw [List.length_cons, List.count_cons_of_ne hc, List.filter_cons_of_pos (by simpa using hc),
          List.length_cons]
        omega

theorem unmarked_eq_self_of_count {t : Text} (h : (unmarked t).count '*' = t.count '*') : unmarked t = t := by
  refine (unmarked_sublist t).eq_of_length ?_
  rw [length_eq_count_add (unmarked t), length_eq_count_add t, h, filter_unmarked (by decide)]

theorem not_escape_infix_unmarked {t : Text} (h : ¬ ['\\', '*'] <:+: t) : ¬ ['\\', '*'] <:+: unmarked t := by
  obtain ⟨n, -, hdeletes⟩ := deletes_of_sublist (unmarked_sublist t) (filter_unmarked (by decide) t) h
  rw [← escapes_eq_zero_iff, hdeletes.escapes_eq, escapes_eq_zero_iff]
  exact h

theorem hideEscapes_cons_of_not {c : Char} {t : Text} (h : ¬ ['\\', '*'] <+: c :: t) :
    hideEscapes (c :: t) = c :: hideEscapes t := by
  rw [hideEscapes]
  rintro rest rfl rfl
  exact h ⟨rest, rfl⟩

theorem hideEscapes_showEscapes {t : Text} (h : ¬ ['\\', '*'] <:+: t) : hideEscapes (showEscapes t) = t := by
  induction t with
  | nil => rfl
  | cons c t ih =>
      rw [List.infix_cons_iff, not_or] at h
      rw [showEscapes_cons]
      split
      · next hc => rw [hc, List.cons_append, List.cons_append, List.nil_append, hideEscapes, ih h.2]
      · have hshown : ¬ ['\\', '*'] <+: c :: showEscapes t := by
          rintro ⟨rest, hrest⟩
          obtain ⟨rfl, ht⟩ := List.cons.inj hrest
          obtain ⟨behind, rfl⟩ := exists_eq_cons_of_showEscapes ht.symm
          exact h.1 ⟨behind, rfl⟩
        rw [List.singleton_append, hideEscapes_cons_of_not hshown, ih h.2]

theorem hideEscapes_strip (t : Text) : hideEscapes (strip t) = unmarked (hideEscapes t) := by
  have hhidden := not_escape_infix_unmarked (not_escape_infix_hideEscapes t)
  rw [strip_eq_showEscapes_unmarked, hideEscapes_showEscapes hhidden]

end Hidden

theorem standIn_not_mem_showEscapes (t : Text) : standIn ∉ showEscapes t := by
  induction t with
  | nil => exact List.not_mem_nil
  | cons c t ih =>
      rw [showEscapes_cons, List.mem_append, not_or]
      refine ⟨?_, ih⟩
      split
      · decide
      · next hc => simpa using Ne.symm hc

theorem strip_strip_of_unmarked {t : Text} (h : unmarked (hideEscapes (strip t)) = hideEscapes (strip t)) :
    strip (strip t) = strip t := by
  have hstandIn : standIn ∉ strip t := standIn_not_mem_showEscapes _
  rw [strip_eq_showEscapes_unmarked (strip t), h, showEscapes_hideEscapes, showEscapes_eq_self hstandIn]

/-- Stripping again changes nothing exactly where no emphasised word is left. -/
theorem strip_strip_iff_not_isEmphasised (t : Text) :
    strip (strip t) = strip t ↔ ∀ piece ∈ enclosed (strip t), isEmphasised piece = false := by
  rw [enclosed, ← unmarked_eq_self_iff]
  constructor
  · intro hsame
    rw [← hideEscapes_strip, hsame]
  · exact strip_strip_of_unmarked

theorem strip_strip_of_enclosed {t : Text} (h : ∀ piece ∈ enclosed t, ¬ piece <+: [';', '.', '.', '.']) :
    strip (strip t) = strip t := by
  rw [strip_strip_iff_not_isEmphasised, enclosed, hideEscapes_strip, cutAt_unmarked]
  exact not_isEmphasised_of_mem_stripPieces h

/-- Stripping again and again comes to rest: each time takes two asterisks more, or nothing from then on. -/
theorem strip_iterate_of_count {t : Text} {n : Nat} (h : (hideEscapes t).count '*' < 2 * n) :
    strip^[n + 1] t = strip^[n] t := by
  induction n generalizing t with
  | zero => exact absurd h (Nat.not_lt_zero _)
  | succ n ih =>
      rw [Function.iterate_succ_apply, Function.iterate_succ_apply]
      by_cases hrest : unmarked (hideEscapes (strip t)) = hideEscapes (strip t)
      · rw [Function.iterate_succ_apply, strip_strip_of_unmarked hrest]
      · apply ih
        obtain ⟨k, hcount⟩ := exists_count_unmarked (hideEscapes t)
        rw [hideEscapes_strip] at hrest ⊢
        have hne : (unmarked (hideEscapes t)).count '*' ≠ (hideEscapes t).count '*' := by
          intro hsame
          have hself := unmarked_eq_self_of_count hsame
          rw [hself] at hrest
          exact hrest hself
        omega

end Emphasis

namespace Token

open Emphasis

theorem not_admits_asterisk (k : Kind) : k.admits '*' = false := by
  cases k <;> decide

theorem Skips.ne_asterisk {previous : Option Kind} {c : Char} {rest : Text} (h : Skips previous c rest) :
    c ≠ '*' := by
  rintro rfl
  rcases h with hgap | ⟨-, hmark, -⟩
  · exact absurd hgap (by decide)
  · cases hmark

theorem Lexeme.count_asterisk {previous : Option Kind} {text value rest : Text} {k : Kind}
    (h : Lexeme previous text k value rest) (hbackslash : '\\' ∉ value) :
    value.count '*' = if k == .operator then 1 else 0 := by
  cases h with
  | escapedAsterisk => simp at hbackslash
  | arrow => rfl
  | @punctuation c k hmark =>
      by_cases hc : c = '*'
      · subst hc
        cases hmark
        rfl
      · have hk : k ≠ .operator := fun hk => hc (eq_asterisk_of_ofPunctuation? hmark (.inl hk))
        simp [hc, hk]
  | @run c k word rest hkind hgap hmark harrow hword hstop =>
      have hk : k ≠ .operator := by
        rcases ofRun_cases previous (c :: (word ++ rest)) with hrun | hrun | hrun <;> simp [← hkind, hrun]
      have hnot : '*' ∉ c :: word := fun hmem => by
        have hadmits := hword '*' hmem
        rw [not_admits_asterisk] at hadmits
        cases hadmits
      simp [List.count_eq_zero.mpr hnot, hk]

theorem countP_operator_scan (previous : Option Kind) (n : Nat) (text : Text) :
    (scan previous n text).countP (fun t => t.kind == .operator) = (hideEscapes text).count '*' := by
  induction previous, n, text using scan_induction with
  | nil previous n => rfl
  | skip previous n c rest hskips ih =>
      rw [hideEscapes_cons_of_not hskips.not_escape, List.count_cons_of_ne hskips.ne_asterisk, ih]
  | token previous n text k value rest hlexeme ih =>
      rw [hlexeme.text_eq, List.countP_cons, ih]
      rcases hlexeme.escape_cases with ⟨rfl, rfl⟩ | ⟨-, hbackslash⟩
      · rfl
      · rw [hideEscapes_append hbackslash, List.count_append, hlexeme.count_asterisk hbackslash, Nat.add_comm]

end Token

namespace Emphasis

open Text

/-- Equal tokens have equally many operators, so no asterisk is taken between them. -/
theorem strip_eq_self_of_ofText {t : Text} (hstandIn : standIn ∉ t)
    (h : Token.ofText (strip t) = Token.ofText t) :
    strip t = t := by
  have hcount := congrArg (List.countP fun u : Token => u.kind == .operator) h
  rw [Token.ofText, Token.ofText, Token.countP_operator_scan, Token.countP_operator_scan,
    hideEscapes_strip] at hcount
  rw [strip_eq_showEscapes_unmarked, unmarked_eq_self_of_count hcount, showEscapes_hideEscapes,
    showEscapes_eq_self hstandIn]

/-- Stripping twice gives the text of stripping once, and its tokens, exactly where the first time leaves no
emphasised word; it leaves none where no beginning of `;...` stands between two asterisks. -/
theorem strip_twice (t : Text) :
    (strip (strip t) = strip t ↔ ∀ piece ∈ enclosed (strip t), isEmphasised piece = false) ∧
      (Token.ofText (strip (strip t)) = Token.ofText (strip t) ↔ strip (strip t) = strip t) ∧
      ((∀ piece ∈ enclosed t, ¬ piece <+: [';', '.', '.', '.']) → strip (strip t) = strip t) :=
  ⟨strip_strip_iff_not_isEmphasised t,
    ⟨strip_eq_self_of_ofText (standIn_not_mem_showEscapes _), congrArg Token.ofText⟩, strip_strip_of_enclosed⟩

/-- Words of each form, an asterisk that two words share, an escape, and a blank between two asterisks. -/
theorem strip_twice_of_shared_asterisk :
    ∃ t, t = "*a* *...b*c* \\* *;...d* * *".toList ∧ strip t = "a ...bc* \\* ;...d * *".toList ∧
      (∀ piece ∈ enclosed t, ¬ piece <+: [';', '.', '.', '.']) ∧ strip (strip t) = strip t := by
  have h : ∀ piece ∈ enclosed "*a* *...b*c* \\* *;...d* * *".toList, ¬ piece <+: [';', '.', '.', '.'] := by
    decide +kernel
  exact ⟨_, rfl, by decide +kernel, h, (strip_twice _).2.2 h⟩

/-- Two pairs of asterisks around one word: the first time takes one of them, and the second time the other. -/
theorem exists_strip_strip_ne :
    ∃ t, t = "**w**".toList ∧ strip t = "*w*".toList ∧ strip (strip t) = "w".toList ∧
      strip (strip t) ≠ strip t ∧ Token.ofText (strip (strip t)) ≠ Token.ofText (strip t) := by
  refine ⟨_, rfl, by decide +kernel, by decide +kernel, by decide +kernel, ?_⟩
  intro h
  exact absurd (strip_eq_self_of_ofText (by decide +kernel) h) (by decide +kernel)

end Emphasis

end Synopsis
