import Synopsis.Proofs.YamlLines

/-!
# Tokens of a written file

An object of scalars and of lists of scalars is written entry by entry, and each entry has its tokens. Reading
the file gives the tokens of all entries in their order, as those of one mapping.
-/

namespace Synopsis

namespace Yaml

/-- A value that an entry may hold: a scalar, or a list of scalars. -/
inductive IsFlat : Value → Prop
  | leaf {v : Value} (h : IsLeaf v) : IsFlat v
  | list {items : List Value} (h : ∀ v ∈ items, IsLeaf v) : IsFlat (.list items)

/-- Entries with texts for their keys that can be written and read back. -/
structure IsFile (fields : List (Text × Value)) : Prop where
  key : ∀ e ∈ fields, IsKey e.1
  value : ∀ e ∈ fields, IsFlat e.2
  distinct : (fields.map Prod.fst).Nodup
  nonempty : fields ≠ []

def fileOf (fields : List (Text × Value)) : Value :=
  .object (fields.map fun e => (.text e.1, e.2))

def fieldText (e : Text × Value) : Text :=
  entryText e.1 e.2

def itemTokens (v : Value) : List Token :=
  [.blockEntry, leafToken v]

def valueTokens : Value → List Token
  | .list [] => [.flowSequenceStart, .flowSequenceEnd]
  | .list items => items.flatMap itemTokens
  | v => [leafToken v]

def fieldTokens (e : Text × Value) : List Token :=
  .key :: .scalar true (.ofText e.1) :: .value :: valueTokens e.2

theorem write_fileOf (fields : List (Text × Value)) : write (fileOf fields) = fields.flatMap fieldText := by
  rw [fileOf, write, List.flatMap_map]
  rfl

theorem entryText_leaf {v : Value} (h : IsLeaf v) (key : Text) :
    entryText key v = key ++ ':' :: ' ' :: scalarFrom (key.length + 2) v ++ ['\n'] := by
  cases h <;> rfl

theorem valueTokens_leaf {v : Value} (h : IsLeaf v) : valueTokens v = [leafToken v] := by
  cases h <;> rfl

theorem beginsLine_items (items : List Value) {rest : Text} (hrest : BeginsLine rest) :
    BeginsLine (items.flatMap itemLine ++ rest) := by
  cases items with
  | nil => exact hrest
  | cons v items => exact beginsLine_dash _

theorem beginsLine_fields {fields : List (Text × Value)} (h : ∀ e ∈ fields, IsKey e.1) :
    BeginsLine (fields.flatMap fieldText) := by
  cases fields with
  | nil => exact beginsLine_nil
  | cons e fields =>
      have hkey : IsKey e.1 := h e List.mem_cons_self
      obtain ⟨tail, htail⟩ : ∃ tail, fieldText e = e.1 ++ tail := by
        unfold fieldText entryText
        split
        · exact ⟨_, rfl⟩
        · exact ⟨_, rfl⟩
        · exact ⟨_, by rw [List.append_assoc]⟩
      rw [List.flatMap_cons, htail, List.append_assoc]
      exact hkey.beginsLine _

namespace Lexer

theorem Leads.refl (l : Lexer) : l.Leads l :=
  fun _ h => h

theorem leads_items {items : List Value} (hitems : ∀ v ∈ items, IsLeaf v) {rest : Text}
    (hrest : BeginsLine rest)
    {l : Lexer} {ts : List Token} (hl : l.ComesTo ts (items.flatMap itemLine ++ rest)) :
    ∃ l', l.Leads l' ∧ l'.ComesTo (ts ++ items.flatMap itemTokens) rest := by
  induction items generalizing l ts with
  | nil => exact ⟨l, .refl l, by simpa using hl⟩
  | cons v items ih =>
      obtain ⟨hv, hitems⟩ := List.forall_mem_cons.mp hitems
      obtain ⟨offset, line, hnext⟩ := hl
      have htext : (v :: items).flatMap itemLine ++ rest =
          '-' :: ' ' :: (scalarFrom 2 v ++ '\n' :: (items.flatMap itemLine ++ rest)) := by
        simp [itemLine]
      rw [htext] at hnext
      obtain ⟨l₁, hleaf, hcomes⟩ := leads_leaf hv (beginsLine_items items hrest) 2 (offset + 1) line 1
        (ts ++ [.blockEntry]) true
      obtain ⟨l₂, hleads, hcomes⟩ := ih hitems hcomes
      refine ⟨l₂, (leads_dash hnext).trans (hleaf.trans hleads), ?_⟩
      simpa [itemTokens] using hcomes

/-- One entry, from the beginning of its line to the beginning of the next one. -/
theorem leads_field {e : Text × Value} (hkey : IsKey e.1) (hvalue : IsFlat e.2) {rest : Text}
    (hrest : BeginsLine rest)
    {indent : Int} {indents : List Int} {opening : List Token} (hopening : Opening indent indents opening)
    (ts : List Token) {l : Lexer} {offset line : Nat}
    (hl : l.toNext =
      some ⟨placeFrom offset line 0 (fieldText e ++ rest), ts.toArray, indent, indents, true, none, []⟩) :
    ∃ l', l.Leads l' ∧ l'.ComesTo (ts ++ opening ++ fieldTokens e) rest := by
  obtain ⟨key, value⟩ := e
  dsimp only at hkey hvalue
  cases hvalue with
  | leaf hleaf =>
      have htext : fieldText (key, value) ++ rest =
          key ++ ':' :: ' ' :: (scalarFrom (key.length + 2) value ++ '\n' :: rest) := by
        simp [fieldText, entryText_leaf hleaf]
      rw [htext] at hl
      have hcolon := leads_key hopening hkey (by rfl) hl
      obtain ⟨l', hleads, hcomes⟩ :=
        leads_leaf hleaf hrest (key.length + 2) (offset + key.length + 1) line (key.length + 1)
        (ts ++ opening ++ [.key, .scalar true (.ofText key), .value]) false
      refine ⟨l', hcolon.trans hleads, ?_⟩
      simpa [fieldTokens, valueTokens_leaf hleaf] using hcomes
  | @list items hitems =>
      cases items with
      | nil =>
          have htext : fieldText (key, .list []) ++ rest = key ++ ':' :: ' ' :: '[' :: ']' :: '\n' :: rest := by
            simp [fieldText, entryText]
          rw [htext] at hl
          have hcolon := leads_key hopening hkey (by rfl) hl
          obtain ⟨l', hleads, hcomes⟩ := leads_emptyList hrest (offset + key.length + 1) line (key.length + 1)
            (ts ++ opening ++ [.key, .scalar true (.ofText key), .value])
          refine ⟨l', hcolon.trans hleads, ?_⟩
          simpa [fieldTokens, valueTokens] using hcomes
      | cons v items =>
          have htext : fieldText (key, .list (v :: items)) ++ rest =
              key ++ ':' :: '\n' :: ((v :: items).flatMap itemLine ++ rest) := by
            simp [fieldText, entryText]
          rw [htext] at hl
          have hcolon := leads_key hopening hkey (by rfl) hl
          have hfeed : (inBlock (placeFrom (offset + key.length + 1) line (key.length + 1)
              ('\n' :: ((v :: items).flatMap itemLine ++ rest)))
              (ts ++ opening ++ [.key, .scalar true (.ofText key), .value]) false none).ComesTo _ _ :=
            comesTo_of_feed (beginsLine_items (v :: items) hrest) _ _ _ _ fun c hc => (by cases hc)
          obtain ⟨l', hleads, hcomes⟩ := leads_items hitems hrest hfeed
          refine ⟨l', hcolon.trans hleads, ?_⟩
          simpa [fieldTokens, valueTokens] using hcomes

theorem finishes_of_comesTo_nil {l : Lexer} {ts : List Token} (h : l.ComesTo ts []) :
    l.Finishes (ts ++ [.blockEnd, .streamEnd]) := by
  obtain ⟨offset, line, hnext⟩ := h
  have hfinish : (inBlock (placeFrom offset line 0 []) ts true none).finish =
      some (ts ++ [Token.blockEnd, Token.streamEnd]).toArray := by
    simp [finish, inBlock, unwind, inFlow, unwindFrom, forgetCandidate, push]
  exact finishes_of_finish hnext rfl hfinish

theorem finishes_of_comesTo_fields {fields : List (Text × Value)} (hkey : ∀ e ∈ fields, IsKey e.1)
    (hvalue : ∀ e ∈ fields, IsFlat e.2) {l : Lexer} {ts : List Token}
    (h : l.ComesTo ts (fields.flatMap fieldText)) :
    l.Finishes (ts ++ fields.flatMap fieldTokens ++ [.blockEnd, .streamEnd]) := by
  induction fields generalizing l ts with
  | nil => simpa using finishes_of_comesTo_nil h
  | cons e fields ih =>
      obtain ⟨hkeyHead, hkey⟩ := List.forall_mem_cons.mp hkey
      obtain ⟨hvalueHead, hvalue⟩ := List.forall_mem_cons.mp hvalue
      obtain ⟨offset, line, hnext⟩ := h
      rw [List.flatMap_cons] at hnext
      obtain ⟨l', hleads, hcomes⟩ := leads_field hkeyHead hvalueHead (beginsLine_fields hkey) .later _ hnext
      simpa using hleads _ (ih hkey hvalue hcomes)

end Lexer

/-- The tokens of a file are those of one mapping. -/
def fileTokens (fields : List (Text × Value)) : List Token :=
  .blockMappingStart :: fields.flatMap fieldTokens ++ [.blockEnd, .streamEnd]

theorem dropLead_of_beginsLine {t : Text} (h : BeginsLine t) : Text.dropLead [byteOrderMark] t = t := by
  cases t with
  | nil => rfl
  | cons c t =>
      have hne : byteOrderMark ≠ c := (ne_of_isVisible (h c rfl).1 (by decide)).symm
      simp [Text.dropLead, Text.after?, hne]

theorem tokens_write {fields : List (Text × Value)} (h : IsFile fields) :
    tokens (write (fileOf fields)) = (fileTokens fields, none) := by
  obtain ⟨e, fields, rfl⟩ := List.exists_cons_of_ne_nil h.nonempty
  obtain ⟨hkey, hkeys⟩ := List.forall_mem_cons.mp h.key
  obtain ⟨hvalue, hvalues⟩ := List.forall_mem_cons.mp h.value
  have hline := beginsLine_fields h.key
  have hnext : Lexer.toNext ⟨placeFrom 0 0 0 ((e :: fields).flatMap fieldText), #[], -1, [], true, none, []⟩ =
      some ⟨placeFrom 0 0 0 ((e :: fields).flatMap fieldText), #[], -1, [], true, none, []⟩ :=
    Lexer.toNext_of_le (Lexer.skipGaps_beginsLine _ _ _ _ _ hline) rfl rfl fun _ => by
      rw [Lexer.column_placeFrom]
      exact (by decide : (-1 : Int) ≤ 0)
  obtain ⟨l', hleads, hcomes⟩ := Lexer.leads_field hkey hvalue (beginsLine_fields hkeys) .first [] hnext
  have hfinish := hleads _ (Lexer.finishes_of_comesTo_fields hkeys hvalues hcomes)
  have hrun := hfinish (placeFrom 0 0 0 ((e :: fields).flatMap fieldText)).length.succ (Nat.lt_succ_self _)
  rw [write_fileOf, tokens, dropLead_of_beginsLine hline]
  exact hrun.trans (by simp [fileTokens])

end Yaml

end Synopsis
