import Synopsis.Proofs.YamlPlaces

/-!
# Text in double quotes written and read

Every escape reads back as the character it was written for: one of a letter, or one of the hexadecimal digits
of its code point. Line breaks of the text are escaped too, so that each break that is written is one that a
backslash joins, behind which the indentation counts for nothing.
-/

namespace Synopsis

namespace Yaml

theorem hexDigit?_digitChar {d : Nat} (h : d < 16) : hexDigit? (Nat.digitChar d).toUpper = some d := by
  have hall : ∀ d < 16, hexDigit? (Nat.digitChar d).toUpper = some d := by decide
  exact hall d h

theorem isVisible_digitChar {d : Nat} (h : d < 16) : isVisible (Nat.digitChar d).toUpper = true := by
  have hall : ∀ d < 16, isVisible (Nat.digitChar d).toUpper = true := by decide
  exact hall d h

def codeDigits (width n : Nat) : Text :=
  (Text.hexadecimal width n).map Char.toUpper

theorem codeDigits_succ (width n : Nat) :
    codeDigits (width + 1) n = codeDigits width (n / 16) ++ [(Nat.digitChar (n % 16)).toUpper] := by
  rw [codeDigits, Text.hexadecimal, List.map_append]
  rfl

theorem length_codeDigits (width n : Nat) : (codeDigits width n).length = width := by
  induction width generalizing n with
  | zero => rfl
  | succ width ih => rw [codeDigits_succ, List.length_append, ih, List.length_singleton]

theorem isVisible_codeDigits (width n : Nat) : ∀ c ∈ codeDigits width n, isVisible c = true := by
  induction width generalizing n with
  | zero => simp [codeDigits, Text.hexadecimal]
  | succ width ih =>
      intro c hc
      rw [codeDigits_succ, List.mem_append, List.mem_singleton] at hc
      rcases hc with hc | rfl
      · exact ih (n / 16) c hc
      · exact isVisible_digitChar (by omega)

theorem mapM_hexDigit?_codeDigits {width n : Nat} (h : n < Nat.pow 16 width) :
    ∃ digits, (codeDigits width n).mapM hexDigit? = some digits ∧ digits.length = width ∧
      digits.foldl (fun n d => 16 * n + d) 0 = n := by
  induction width generalizing n with
  | zero =>
      have hzero : n < 1 := h
      exact ⟨[], rfl, rfl, by rw [List.foldl_nil]; omega⟩
  | succ width ih =>
      have hhigh : n / 16 < Nat.pow 16 width := by
        have hsucc : n < Nat.pow 16 width * 16 := h
        omega
      obtain ⟨digits, hread, hlength, hvalue⟩ := ih hhigh
      refine ⟨digits ++ [n % 16], ?_, ?_, ?_⟩
      · rw [codeDigits_succ, List.mapM_append, hread]
        simp [hexDigit?_digitChar (Nat.mod_lt n (by omega : 0 < 16))]
      · rw [List.length_append, hlength, List.length_singleton]
      · rw [List.foldl_append, hvalue, List.foldl_cons, List.foldl_nil]
        omega

theorem map_char_take_placeFrom (n offset line place : Nat) {t : Text} (h : n ≤ t.length) :
    ((placeFrom offset line place t).take n).map Placed.char = t.take n := by
  induction t generalizing n offset line place with
  | nil =>
      obtain rfl : n = 0 := by simpa using h
      rfl
  | cons c t ih =>
      cases n with
      | zero => rfl
      | succ n =>
          have hn : n ≤ t.length := by simpa using h
          rw [placeFrom, List.take_succ_cons, List.map_cons, List.take_succ_cons]
          split
          · rw [ih n _ _ _ hn]
          · rw [ih n _ _ _ hn]

theorem drop_placeFrom {w : Text} (hw : ∀ c ∈ w, isVisible c = true) (offset line place : Nat) (t : Text) :
    (placeFrom offset line place (w ++ t)).drop w.length =
      placeFrom (offset + w.length) line (place + w.length) t := by
  induction w generalizing offset place with
  | nil => rfl
  | cons c w ih =>
      obtain ⟨hc, hw⟩ := List.forall_mem_cons.mp hw
      rw [List.cons_append, placeFrom_visible hc, List.length_cons, List.drop_succ_cons, ih hw]
      congr 1 <;> omega

theorem codePoint_codeDigits {width n : Nat} (hwidth : n < Nat.pow 16 width) (hn : n < 0x110000)
    (offset line place : Nat)
    (t : Text) : codePoint width (placeFrom offset line place (codeDigits width n ++ t)) = .ok n := by
  obtain ⟨digits, hread, hlength, hvalue⟩ := mapM_hexDigit?_codeDigits hwidth
  have hchars := map_char_take_placeFrom width offset line place (t := codeDigits width n ++ t)
    (by rw [List.length_append, length_codeDigits]; omega)
  rw [List.take_left' (length_codeDigits width n)] at hchars
  have hmap :
      ((placeFrom offset line place (codeDigits width n ++ t)).take width).mapM (hexDigit? ∘ Placed.char) =
        some digits := by
    rw [← List.mapM_map, hchars, hread]
  have hdigits : ¬ digits.length < width := by omega
  change (orElse .malformed (List.mapM (hexDigit? ∘ Placed.char) _) >>= _) = _
  rw [hmap]
  simp only [orElse, bind, Except.bind, if_neg hdigits, hvalue, if_pos hn]
  rfl

theorem toNat_lt (c : Char) : c.toNat < 0x110000 := by
  have h : c.toNat < 0xD800 ∨ (0xDFFF < c.toNat ∧ c.toNat < 0x110000) := c.valid
  omega

/-- An escape of a code point has enough digits for it, and a letter that tells how many. -/
theorem codeEscape_cases (c : Char) :
    ∃ letter width, codeEscape c = '\\' :: letter :: codeDigits width c.toNat ∧ escaped? letter = none ∧
      escapeWidth? letter = some width ∧ isVisible letter = true ∧ c.toNat < Nat.pow 16 width := by
  have hc := toNat_lt c
  unfold codeEscape
  by_cases hbyte : c.toNat ≤ 0xFF
  · have hwidth : c.toNat < 256 := by omega
    exact ⟨'x', 2, by rw [if_pos hbyte]; rfl, rfl, rfl, rfl, hwidth⟩
  · by_cases hplane : c.toNat ≤ 0xFFFF
    · have hwidth : c.toNat < 65536 := by omega
      exact ⟨'u', 4, by rw [if_neg hbyte, if_pos hplane]; rfl, rfl, rfl, rfl, hwidth⟩
    · have hwidth : c.toNat < 4294967296 := by omega
      exact ⟨'U', 8, by rw [if_neg hbyte, if_neg hplane]; rfl, rfl, rfl, rfl, hwidth⟩

theorem escaped?_escapeLetter? {c letter : Char} (h : escapeLetter? c = some letter) :
    escaped? letter = some c ∧ isVisible letter = true := by
  unfold escapeLetter? at h
  split at h
  all_goals
    cases h
    try exact ⟨rfl, rfl⟩

theorem escape?_eq_none {c : Char} (h : escape? c = none) :
    c = ' ' ∨ (isVisible c = true ∧ c ≠ '"' ∧ c ≠ '\\') := by
  unfold escape? at h
  split at h
  next => cases h
  next hletter =>
    split at h
    next hascii =>
      have hquote : c ≠ '"' := by
        rintro rfl
        cases hletter
      have hslash : c ≠ '\\' := by
        rintro rfl
        cases hletter
      have hfeed : c ≠ '\n' := by
        rintro rfl
        cases hletter
      have hplain : isPlainAscii c = true := by
        rw [isPlainAscii, hascii, Bool.or_true]
      rcases isPlainAscii_cases hplain with hc | hc | hc
      · exact absurd hc hfeed
      · exact .inl hc
      · exact .inr ⟨hc, hquote, hslash⟩
    next => cases h

theorem extendCodes_append_singleton (acc : Codes) (t : Text) (c : Char) :
    extendCodes acc (t ++ [c]) = c.toNat :: extendCodes acc t := by
  simp [extendCodes, Codes.ofText]

theorem extendCodes_joined (acc : Codes) (t u : Text) :
    extendCodes (extendCodes acc t) (Gap.text (.lines none []) ++ u) = extendCodes acc (t ++ u) := by
  simp [extendCodes, Codes.ofText, Gap.text]

theorem reverse_extendCodes (acc : Codes) (t : Text) (c : Char) (u : Text) :
    (extendCodes acc (t ++ [c])).reverse ++ Codes.ofText u = acc.reverse ++ Codes.ofText (t ++ c :: u) := by
  simp [extendCodes, Codes.ofText]

/-- What is written from any place on, and the closing quote behind it, is read as the codes of a text. -/
def ReadsDouble (gap : Gap) (acc : Codes) (written : Text) (codes : Codes) (rest : Text) : Prop :=
  ∀ offset line place, ∃ offset' line' place', line ≤ line' ∧
    doubleQuoted gap acc (placeFrom offset line place (written ++ '"' :: rest)) =
      .ok (codes, placeFrom offset' line' place' rest)

namespace ReadsDouble

variable {gap : Gap} {acc codes : Codes} {w rest : Text}

theorem close (gap : Gap) (acc : Codes) (rest : Text) :
    ReadsDouble gap acc [] (acc.reverse ++ Codes.ofText gap.text) rest := by
  have hc : isVisible '"' = true := by decide
  intro offset line place
  refine ⟨offset + 1, line, place + 1, Nat.le_refl line, ?_⟩
  rw [List.nil_append, placeFrom_visible hc, doubleQuoted.eq_def]
  simp [extendCodes, endMark, isBreak_of_isVisible hc]

theorem word {c : Char} (hc : isVisible c = true) (hquote : c ≠ '"') (hslash : c ≠ '\\')
    (h : ReadsDouble .none (extendCodes acc (gap.text ++ [c])) w codes rest) :
    ReadsDouble gap acc (c :: w) codes rest := by
  have hend := ne_of_isVisible (d := endMark) hc (by decide)
  have hspace := ne_of_isVisible (d := ' ') hc (by decide)
  have htab := ne_of_isVisible (d := '\t') hc (by decide)
  intro offset line place
  obtain ⟨offset', line', place', hline, hread⟩ := h (offset + 1) line (place + 1)
  refine ⟨offset', line', place', hline, ?_⟩
  rw [List.cons_append, placeFrom_visible hc, doubleQuoted.eq_def]
  simp [hend, hspace, htab, isBreak_of_isVisible hc, hquote, hslash, hread]

theorem space (h : ReadsDouble (gap.addSpace ' ') acc w codes rest) :
    ReadsDouble gap acc (' ' :: w) codes rest := by
  intro offset line place
  obtain ⟨offset', line', place', hline, hread⟩ := h (offset + 1) line (place + 1)
  refine ⟨offset', line', place', hline, ?_⟩
  rw [List.cons_append, placeFrom_space, doubleQuoted.eq_def]
  exact hread

theorem letter {c letter : Char} (hc : escaped? letter = some c)
    (hletter : isVisible letter = true ∨ letter = ' ')
    (h : ReadsDouble .none (extendCodes acc (gap.text ++ [c])) w codes rest) :
    ReadsDouble gap acc ('\\' :: letter :: w) codes rest := by
  have hslash : isVisible '\\' = true := by decide
  intro offset line place
  obtain ⟨offset', line', place', hline, hread⟩ := h (offset + 2) line (place + 2)
  have hplaces : placeFrom (offset + 1) line (place + 1) (letter :: (w ++ '"' :: rest)) =
      ⟨letter, offset + 1, line, place + 1⟩ :: placeFrom (offset + 2) line (place + 2) (w ++ '"' :: rest) := by
    rcases hletter with hletter | rfl
    · exact placeFrom_visible hletter _ _ _ _
    · exact placeFrom_space _ _ _ _
  refine ⟨offset', line', place', hline, ?_⟩
  rw [List.cons_append, List.cons_append, placeFrom_visible hslash, hplaces, doubleQuoted]
  simp [isBreak_of_isVisible hslash, endMark, hc, hread]

theorem code {c : Char} (h : ReadsDouble .none (extendCodes acc (gap.text ++ [c])) w codes rest) :
    ReadsDouble gap acc (codeEscape c ++ w) codes rest := by
  have hslash : isVisible '\\' = true := by decide
  obtain ⟨letter, width, hescape, hletter, hwidth, hvisible, hn⟩ := codeEscape_cases c
  intro offset line place
  have hdrop :=
    drop_placeFrom (isVisible_codeDigits width c.toNat) (offset + 2) line (place + 2) (w ++ '"' :: rest)
  rw [length_codeDigits] at hdrop
  obtain ⟨offset', line', place', hline, hread⟩ := h (offset + 2 + width) line (place + 2 + width)
  refine ⟨offset', line', place', hline, ?_⟩
  rw [List.append_assoc, hescape, List.cons_append, List.cons_append, placeFrom_visible hslash,
    placeFrom_visible hvisible, doubleQuoted]
  simp only [isBreak_of_isVisible hslash, hletter, hwidth, codePoint_codeDigits hn (toNat_lt c), hdrop]
  rw [if_neg (by decide), if_neg (by decide), if_neg (by decide), if_neg (by decide), if_pos trivial,
    ← extendCodes_append_singleton]
  exact hread

/-- Every escape that is written reads as the character it stands for. -/
theorem escape {c : Char} {e : Text} (he : escape? c = some e)
    (h : ReadsDouble .none (extendCodes acc (gap.text ++ [c])) w codes rest) :
    ReadsDouble gap acc (e ++ w) codes rest := by
  unfold escape? at he
  split at he
  next hletter =>
    cases he
    obtain ⟨hread, hvisible⟩ := escaped?_escapeLetter? hletter
    exact letter hread (.inl hvisible) h
  next =>
    split at he
    next => cases he
    next =>
      cases he
      exact code h

/-- A line that a backslash breaks goes on two columns deep; the break reads as nothing. -/
theorem joined (h : ReadsDouble (.lines none []) (extendCodes acc gap.text) w codes rest) :
    ReadsDouble gap acc ('\\' :: indentText ++ w) codes rest := by
  have hslash : isVisible '\\' = true := by decide
  intro offset line place
  have hmark := isDocumentMark_cons (show ' ' ≠ '-' by decide) (by decide) (offset + 2) (line + 1) 0
    (' ' :: w ++ '"' :: rest)
  have hspaces : ReadsDouble (.lines none []) (extendCodes acc gap.text) (' ' :: ' ' :: w) codes rest :=
    space (space h)
  obtain ⟨offset', line', place', hline, hread⟩ := hspaces (offset + 2) (line + 1) 0
  refine ⟨offset', line', place', Nat.le_of_succ_le hline, ?_⟩
  rw [show '\\' :: indentText ++ w ++ '"' :: rest = '\\' :: '\n' :: ' ' :: (' ' :: w ++ '"' :: rest) from rfl,
    placeFrom_visible hslash, placeFrom_feed, doubleQuoted.eq_def]
  simp only [isBreak_of_isVisible hslash, hmark, escaped?, escapeWidth?]
  rw [if_neg (by decide), if_neg (by decide), if_neg (by decide), if_neg (by decide), if_pos trivial,
    if_pos (by decide)]
  exact hread

end ReadsDouble

/-- The gap before what is left of a text in double quotes, and a backslash already written for the space that
begins it. -/
inductive DoubleGap : (column : Nat) → (lead : Text) → Gap → Text → Prop
  | word (column : Nat) (t : Text) : DoubleGap column [] .none t
  | spaces (column : Nat) (u t : Text) : DoubleGap column [] (.spaces u) t
  | joined (column : Nat) {t : Text} (h : t.head? ≠ some ' ') : DoubleGap column [] (.lines none []) t
  | escaped {column : Nat} (t : Text) (h : column ≤ bestWidth) :
      DoubleGap column ['\\'] (.lines none []) (' ' :: t)

theorem DoubleGap.lead_cases {column : Nat} {lead : Text} {gap : Gap} {c : Char} {t : Text}
    (h : DoubleGap column lead gap (c :: t)) :
    (lead = ['\\'] ∧ c = ' ' ∧ column ≤ bestWidth) ∨
      (lead = [] ∧ (c = ' ' → gap.addSpace ' ' = .spaces (gap.text ++ [' ']))) := by
  cases h with
  | word => exact .inr ⟨rfl, fun _ => rfl⟩
  | spaces => exact .inr ⟨rfl, fun _ => rfl⟩
  | joined hc => exact .inr ⟨rfl, fun h => absurd (congrArg some h) hc⟩
  | escaped _ hcolumn => exact .inl ⟨rfl, rfl, hcolumn⟩

/-- Behind a broken line a space is written with a backslash. -/
theorem DoubleGap.exists_of_broken (t : Text) : ∃ column lead, DoubleGap column lead (.lines none []) t ∧
    (if t.head? = some ' ' then '\\' :: doubleFrom false true (indentColumn + 1) t
      else doubleFrom false true indentColumn t) = lead ++ doubleFrom false true column t := by
  by_cases hspace : t.head? = some ' '
  · obtain ⟨u, rfl⟩ := List.head?_eq_some_iff.mp hspace
    exact ⟨indentColumn + 1, ['\\'], .escaped u (by decide), if_pos hspace⟩
  · exact ⟨indentColumn, [], .joined indentColumn hspace, if_neg hspace⟩

/-- From any state that writing and reading reach together before it, a text is read back up to the closing
quote. -/
def DoubleReads (t rest : Text) : Prop :=
  ∀ ⦃column : Nat⦄ ⦃lead : Text⦄ ⦃gap : Gap⦄, DoubleGap column lead gap t →
    ∀ (first afterEscape : Bool) (acc : Codes),
      ReadsDouble gap acc (lead ++ doubleFrom first afterEscape column t)
      (acc.reverse ++ Codes.ofText (gap.text ++ t)) rest

namespace DoubleReads

variable {c : Char} {t rest : Text}

theorem nil (rest : Text) : DoubleReads [] rest := by
  intro column lead gap hgap first afterEscape acc
  cases hgap <;> (rw [List.append_nil]; exact .close _ acc rest)

theorem after (h : DoubleReads t rest) (gap : Gap) (acc : Codes) (first afterEscape : Bool) (column : Nat) :
    ReadsDouble .none (extendCodes acc (gap.text ++ [c])) (doubleFrom first afterEscape column t)
      (acc.reverse ++ Codes.ofText (gap.text ++ c :: t)) rest := by
  have hread := h (.word column t) first afterEscape (extendCodes acc (gap.text ++ [c]))
  rwa [show Gap.text .none ++ t = t from rfl, List.nil_append, reverse_extendCodes] at hread

/-- Behind an escape the line may be broken. -/
theorem escape {e : Text} (he : escape? c = some e) (h : DoubleReads t rest) : DoubleReads (c :: t) rest := by
  intro column lead gap hgap first afterEscape acc
  rcases hgap.lead_cases with ⟨-, rfl, -⟩ | ⟨rfl, -⟩
  · cases he
  rw [doubleFrom, he, List.nil_append]
  dsimp only
  split
  next hfold =>
    obtain ⟨column', lead', hgap', htext⟩ := DoubleGap.exists_of_broken t
    have hrest := h hgap' false true (extendCodes acc (gap.text ++ [c]))
    rw [show Gap.text (.lines none []) ++ t = t from rfl, reverse_extendCodes] at hrest
    rw [List.append_assoc, htext]
    exact .escape he (.joined hrest)
  next hfold => exact .escape he (h.after _ _ _ _ _)

theorem space (h : DoubleReads t rest) : DoubleReads (' ' :: t) rest := by
  intro column lead gap hgap first afterEscape acc
  rw [doubleFrom, show escape? ' ' = none from rfl]
  dsimp only
  rcases hgap.lead_cases with ⟨rfl, -, hcolumn⟩ | ⟨rfl, hgapSpace⟩
  · -- the backslash before the space has been written
    have hfold : ¬ bestWidth < column := by omega
    rw [if_neg (by simp [hfold])]
    exact .letter rfl (.inr rfl) (h.after _ _ _ _ _)
  · rw [List.nil_append]
    split
    next hfold =>
      refine .joined (.letter rfl (.inr rfl) ?_)
      rw [extendCodes_joined]
      exact h.after _ _ _ _ _
    next hfold =>
      have hspaces := h (.spaces (column + 1) (gap.text ++ [' ']) t) false false acc
      refine .space ?_
      rw [hgapSpace rfl]
      simpa [Gap.text] using hspaces

theorem word (hc : escape? c = none) (hspace : c ≠ ' ') (h : DoubleReads t rest) :
    DoubleReads (c :: t) rest := by
  intro column lead gap hgap first afterEscape acc
  rcases hgap.lead_cases with ⟨-, hlead, -⟩ | ⟨rfl, -⟩
  · exact absurd hlead hspace
  obtain ⟨hvisible, hquote, hslash⟩ := (escape?_eq_none hc).resolve_left hspace
  rw [doubleFrom, hc, List.nil_append]
  dsimp only
  split
  next hfold =>
    rw [if_neg (by simpa using hspace)]
    refine .joined (.word hvisible hquote hslash ?_)
    rw [extendCodes_joined]
    exact h.after _ _ _ _ _
  next hfold => exact .word hvisible hquote hslash (h.after _ _ _ _ _)

end DoubleReads

theorem doubleReads (t rest : Text) : DoubleReads t rest := by
  induction t with
  | nil => exact .nil rest
  | cons c t ih =>
      cases hescape : escape? c with
      | some e => exact .escape hescape ih
      | none =>
          by_cases hspace : c = ' '
          · subst hspace
            exact .space ih
          · exact .word hescape hspace ih

/-- Any text is read back from between double quotes. -/
theorem readsDouble_text (t rest : Text) (column : Nat) :
    ReadsDouble .none [] (doubleFrom true false column t) (Codes.ofText t) rest :=
  doubleReads t rest (.word column t) true false []

end Yaml

end Synopsis
