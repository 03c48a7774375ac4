import Synopsis.Proofs.YamlValues

/-!
# Written files read back

A file is written in line feeds and printable ASCII characters, whatever the texts in it hold. Reading it goes
through its tokens, its nodes and its data back to the object that was written.
-/

namespace Synopsis

namespace Yaml

def isWritten (t : Text) : Bool :=
  t.all isPlainAscii

theorem isWritten_cons (c : Char) (t : Text) : isWritten (c :: t) = (isPlainAscii c && isWritten t) := rfl

theorem isWritten_append (t u : Text) : isWritten (t ++ u) = (isWritten t && isWritten u) :=
  List.all_append

theorem isWritten_flatMap {α : Type} {f : α → Text} {as : List α} (h : ∀ a ∈ as, isWritten (f a) = true) :
    isWritten (as.flatMap f) = true := by
  induction as with
  | nil => rfl
  | cons a as ih =>
      obtain ⟨ha, has⟩ := List.forall_mem_cons.mp h
      rw [List.flatMap_cons, isWritten_append, ha, ih has]
      rfl

theorem isWritten_of_isVisible {t : Text} (h : ∀ c ∈ t, isVisible c = true) : isWritten t = true :=
  List.all_eq_true.mpr fun c hc => isPlainAscii_of_isVisible (h c hc)

theorem isWritten_indentText : isWritten indentText = true := by decide

theorem isWritten_plainFrom {t : Text} (h : isWritten t = true) (afterSpace : Bool) (column : Nat) :
    isWritten (plainFrom afterSpace column t) = true := by
  induction t generalizing afterSpace column with
  | nil => rfl
  | cons c t ih =>
      rw [isWritten_cons, Bool.and_eq_true] at h
      rw [plainFrom]
      split
      · rw [isWritten_append, isWritten_indentText, ih h.2]
        rfl
      · rw [isWritten_cons, h.1, ih h.2]
        rfl

theorem isWritten_singleFrom {t : Text} (h : isWritten t = true) (previous : Char) (column : Nat) :
    isWritten (singleFrom previous column t) = true := by
  induction t generalizing previous column with
  | nil => rfl
  | cons c t ih =>
      rw [isWritten_cons, Bool.and_eq_true] at h
      rw [singleFrom]
      split
      · have hfeeds : isWritten (if previous == '\n' then ['\n'] else ['\n', '\n']) = true := by split <;> rfl
        have hspaces : isWritten (if t.head? = some '\n' then [] else [' ', ' ']) = true := by split <;> rfl
        rw [isWritten_append, isWritten_append, hfeeds, hspaces, ih h.2]
        rfl
      · split
        · rw [isWritten_cons, isWritten_cons, h.1, ih h.2]
          rfl
        · split
          · rw [isWritten_append, isWritten_indentText, ih h.2]
            rfl
          · rw [isWritten_cons, h.1, ih h.2]
            rfl

theorem isWritten_escape {c : Char} {e : Text} (h : escape? c = some e) : isWritten e = true := by
  have hslash : isPlainAscii '\\' = true := by decide
  unfold escape? at h
  split at h
  next letter hletter =>
    cases h
    have hvisible := isPlainAscii_of_isVisible (escaped?_escapeLetter? hletter).2
    rw [isWritten_cons, isWritten_cons, hslash, hvisible]
    rfl
  next =>
    split at h
    next => cases h
    next =>
      cases h
      obtain ⟨letter, width, hescape, -, -, hletter, -⟩ := codeEscape_cases c
      rw [hescape, isWritten_cons, isWritten_cons, hslash, isPlainAscii_of_isVisible hletter,
        isWritten_of_isVisible (isVisible_codeDigits width c.toNat)]
      rfl

theorem isPlainAscii_of_escape?_eq_none {c : Char} (h : escape? c = none) : isPlainAscii c = true := by
  rcases escape?_eq_none h with rfl | ⟨hc, -, -⟩
  · rfl
  · exact isPlainAscii_of_isVisible hc

theorem isWritten_doubleFrom (first afterEscape : Bool) (column : Nat) (t : Text) :
    isWritten (doubleFrom first afterEscape column t) = true := by
  have hslash : isPlainAscii '\\' = true := by decide
  induction t generalizing first afterEscape column with
  | nil => rfl
  | cons c t ih =>
      rw [doubleFrom]
      cases hescape : escape? c with
      | some e =>
          have he := isWritten_escape hescape
          dsimp only
          split
          · simp only [isWritten_append, isWritten_cons, he, hslash, isWritten_indentText]
            split <;> simp [isWritten_cons, hslash, ih]
          · rw [isWritten_append, he, ih]
            rfl
      | none =>
          have hc := isPlainAscii_of_escape?_eq_none hescape
          dsimp only
          split
          · simp only [isWritten_append, isWritten_cons, hslash, isWritten_indentText]
            split <;> simp [isWritten_cons, hslash, hc, ih]
          · rw [isWritten_cons, hc, ih]
            rfl

theorem isWritten_textFrom (column : Nat) (t : Text) : isWritten (textFrom column t) = true := by
  unfold textFrom
  split
  next h =>
    simp only [admitsPlain, Bool.and_eq_true] at h
    exact isWritten_plainFrom h.1.1.1.2 _ _
  next =>
    split
    next h =>
      simp only [admitsSingleQuotes, Bool.and_eq_true] at h
      rw [isWritten_append, isWritten_cons, isWritten_singleFrom h.1.1]
      rfl
    next =>
      rw [isWritten_append, isWritten_cons, isWritten_doubleFrom]
      rfl

theorem isWritten_leaf {v : Value} (h : IsLeaf v) (column : Nat) : isWritten (scalarFrom column v) = true := by
  rcases h.text_or_word with ⟨t, rfl⟩ | ⟨w, hw⟩
  · exact isWritten_textFrom column t
  · rw [hw.written]
    refine List.all_eq_true.mpr fun c hc => ?_
    rcases hw.plain.ascii c hc with rfl | hvisible
    · rfl
    · exact isPlainAscii_of_isVisible hvisible

theorem isWritten_field {e : Text × Value} (hkey : IsKey e.1) (hvalue : IsFlat e.2) :
    isWritten (fieldText e) = true := by
  obtain ⟨key, value⟩ := e
  have hname : isWritten key = true :=
    isWritten_of_isVisible fun c hc => (isVisible_of_isKeyChar (hkey.chars c hc)).1
  dsimp only at hvalue
  cases hvalue with
  | leaf hleaf =>
      rw [fieldText, entryText_leaf hleaf, isWritten_append, isWritten_append, isWritten_cons,
        isWritten_cons, hname, isWritten_leaf hleaf]
      rfl
  | @list items hitems =>
      cases items with
      | nil =>
          rw [fieldText, entryText, isWritten_append, hname]
          rfl
      | cons v items =>
          have hlines : isWritten ((v :: items).flatMap itemLine) = true := by
            refine isWritten_flatMap fun v hv => ?_
            rw [itemLine, isWritten_append, isWritten_cons, isWritten_cons, isWritten_leaf (hitems v hv)]
            rfl
          have htext :
              fieldText (key, .list (v :: items)) = key ++ ':' :: '\n' :: (v :: items).flatMap itemLine := rfl
          rw [htext, isWritten_append, isWritten_cons, isWritten_cons, hname, hlines]
          rfl

theorem isWritten_write {fields : List (Text × Value)} (h : IsFile fields) :
    isWritten (write (fileOf fields)) = true := by
  rw [write_fileOf]
  exact isWritten_flatMap fun e he => isWritten_field (h.key e he) (h.value e he)

theorem isAdmitted_of_isPlainAscii {c : Char} (h : isPlainAscii c = true) : isAdmitted c = true := by
  simp only [isPlainAscii, Bool.or_eq_true, beq_iff_eq, Bool.and_eq_true, decide_eq_true_eq] at h
  rcases h with rfl | h
  · rfl
  · simp [isAdmitted, h]

/-- What is written is read back. -/
theorem read_write {fields : List (Text × Value)} (h : IsFile fields) :
    read (write (fileOf fields)) = .ok (fileOf fields) := by
  have hadmitted : (write (fileOf fields)).all isAdmitted = true :=
    List.all_eq_true.mpr fun c hc => isAdmitted_of_isPlainAscii (List.all_eq_true.mp (isWritten_write h) c hc)
  rw [read, hadmitted, if_neg (by decide), tokens_write h]
  simp only [ofTokens_fileTokens h, data_fileNodes h, bind, Except.bind]
  rw [valueOf_fileData]
  rfl

end Yaml

end Synopsis
