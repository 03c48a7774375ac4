import Synopsis.Proofs.DeclarationReading
import Synopsis.Proofs.VariantSections

/-!
# Reading undoes writing

The text of a well-formed declaration falls into its three sections, because its items hold no parenthesis
and no mark between variants. Trimming takes the spaces around the items away and nothing else. So the
inside gives the parameters of the items, and the tail gives the return type.
-/

namespace Synopsis

namespace Item

open Declaration Text

/-- What the text of items holds beside ordinary characters. -/
def itemMarks : Text := "*:; \x7b\x7d".toList

theorem all_itemMarks_parameterText {name type : Text} (hname : IsName name) (htype : IsType type)
    (first spread emphasised : Bool) :
    (parameterText first name type spread emphasised).all (isOrdinaryOr itemMarks) = true := by
  have hlabel := all_isOrdinaryOr itemMarks (isOrdinary_of_mem_labelText hname spread)
  have hlabelled : (if emphasised then emphasise (labelText name spread) else labelText name spread).all
      (isOrdinaryOr itemMarks) = true := by
    cases emphasised with
    | true =>
        change ('*' :: labelText name spread ++ ['*']).all (isOrdinaryOr itemMarks) = true
        rw [List.all_append, List.all_cons, hlabel]
        decide
    | false => exact hlabel
  rw [parameterText, List.all_append, List.all_append, List.all_append, hlabelled,
    all_isOrdinaryOr itemMarks htype.isOrdinary]
  cases first <;> decide

mutual

theorem all_itemMarks_text (first : Bool) (i : Item) (h : WellFormed i) :
    (text first i).all (isOrdinaryOr itemMarks) = true := by
  cases i with
  | parameter name type spread emphasised => exact all_itemMarks_parameterText h.1 h.2 first spread emphasised
  | block items =>
      have hitems := all_itemMarks_texts first items h
      rw [text, List.all_append, List.all_append, hitems]
      decide

theorem all_itemMarks_texts (first : Bool) (items : List Item) (h : AllWellFormed items) :
    ([' '].intercalate (texts first items)).all (isOrdinaryOr itemMarks) = true := by
  cases items with
  | nil => rfl
  | cons i items =>
      have hi := all_itemMarks_text first i h.1
      have hitems := all_itemMarks_texts (first && !declaresParameter i) items h.2
      cases items with
      | nil => simpa [texts] using hi
      | cons j items =>
          rw [texts, texts, List.intercalate_cons_cons, ← texts, List.all_append, List.all_append, hi, hitems]
          decide

end

theorem tight_text (first : Bool) (i : Item) (h : WellFormed i) : Tight (text first i) := by
  cases i with
  | parameter name type spread emphasised =>
      obtain ⟨hname, htype⟩ := h
      have hlabel : Tight (labelText name spread) :=
        tight_of_isOrdinary (labelText_ne_nil hname spread) (isOrdinary_of_mem_labelText hname spread)
      have htypeTight : Tight type := tight_of_isOrdinary htype.ne_nil htype.isOrdinary
      have hasterisk : Tight ['*'] := tight_singleton (by decide)
      have hlabelled :
          Tight (if emphasised then emphasise (labelText name spread) else labelText name spread) := by
        cases emphasised with
        | true => exact tight_append hasterisk hasterisk (labelText name spread)
        | false => exact hlabel
      have hrest := tight_append hlabelled htypeTight " : ".toList
      rw [text, parameterText, List.append_assoc, List.append_assoc]
      cases first with
      | true => exact hrest
      | false => exact tight_append (tight_singleton (c := ';') (by decide)) hrest [' ']
  | block items =>
      have hopen : Tight ['{'] := tight_singleton (by decide)
      have hclose : Tight ['}'] := tight_singleton (by decide)
      have h := tight_append hopen hclose (' ' :: ([' '].intercalate (texts first items) ++ [' ']))
      simpa [text] using h

theorem tight_of_mem_texts {first : Bool} {items : List Item} (h : AllWellFormed items) :
    ∀ t ∈ texts first items, Tight t := by
  induction items generalizing first with
  | nil =>
      intro t ht
      cases ht
  | cons i items ih =>
      intro t ht
      rcases List.mem_cons.mp ht with rfl | hrest
      · exact tight_text first i h.1
      · exact ih h.2 t hrest

end Item

namespace Declaration

open Item Text Variant

/-- The head goes on to the parenthesis that the text adds, and all names and types are well formed. -/
structure WellFormed (d : Declaration) : Prop where
  open_not_mem : '(' ∉ d.head
  head_uncut : ¬ separator <:+: d.head
  items : AllWellFormed d.items
  returnType : ∀ r ∈ d.returnType, IsReturn r

theorem tokens_body {d : Declaration} (h : d.WellFormed) :
    (Variant.tokens d.body).map Token.unplaced = allTokens true d.items := by
  have hspelled := spelled_texts true d.items h.items [] Emphasis.stops_nil
  rw [List.append_nil, Emphasis.strip_nil, Token.spelled_nil, List.append_nil] at hspelled
  rw [Variant.tokens, Token.map_unplaced_ofText]
  exact hspelled

theorem trim_body {d : Declaration} (h : d.WellFormed) : trim (' ' :: (d.body ++ [' '])) = d.body := by
  unfold body
  cases hitems : d.items with
  | nil => decide
  | cons i items =>
      have htight : Tight ([' '].intercalate (texts true (i :: items))) :=
        tight_intercalate [' '] (by simp [texts]) (tight_of_mem_texts (hitems ▸ h.items))
      exact htight.trim_spaced

/-- Inside the parentheses stand the items between two spaces. -/
theorem text_eq_enclose (d : Declaration) :
    d.text = enclose (d.head ++ [' ']) (' ' :: (d.body ++ [' '])) (' ' :: tailText d.returnType) := by
  simp [text, enclose]

theorem not_mem_body {d : Declaration} (h : d.WellFormed) {c : Char} (hc : isOrdinaryOr itemMarks c = false) :
    c ∉ ' ' :: (d.body ++ [' ']) := by
  apply not_mem_of_all_isOrdinaryOr ?_ hc
  rw [List.all_cons, List.all_append, body, all_itemMarks_texts true d.items h.items]
  decide

theorem tight_tailText {r : ReturnType} (h : IsReturn r) : Tight (tailText (some r)) := by
  have hdash : Tight ['-'] := tight_singleton (by decide)
  have hcolon : Tight [':'] := tight_singleton (by decide)
  cases h with
  | named hname => exact tight_append hdash (tight_of_isOrdinary hname.ne_nil hname.isOrdinary) "> ".toList
  | typed htype => exact tight_append hcolon (tight_of_isOrdinary htype.ne_nil htype.isOrdinary) [' ']
  | @both name type hname htype =>
      have h := tight_append hdash (tight_of_isOrdinary htype.ne_nil htype.isOrdinary)
        ("> ".toList ++ (name ++ " : ".toList))
      simpa [tailText] using h

/-- What a tail holds beside ordinary characters. -/
def tailMarks : Text := "-> :".toList

theorem all_tailMarks_tailText {r : ReturnType} (h : IsReturn r) :
    (tailText (some r)).all (isOrdinaryOr tailMarks) = true := by
  cases h with
  | named hname =>
      rw [tailText, List.all_append, all_isOrdinaryOr tailMarks hname.isOrdinary]
      decide
  | typed htype =>
      rw [tailText, List.all_append, all_isOrdinaryOr tailMarks htype.isOrdinary]
      decide
  | both hname htype =>
      rw [tailText, List.all_append, List.all_append, List.all_append,
        all_isOrdinaryOr tailMarks hname.isOrdinary, all_isOrdinaryOr tailMarks htype.isOrdinary]
      decide

theorem not_mem_tail {d : Declaration} (h : d.WellFormed) {c : Char} (hc : isOrdinaryOr tailMarks c = false) :
    c ∉ ' ' :: tailText d.returnType := by
  apply not_mem_of_all_isOrdinaryOr ?_ hc
  cases hr : d.returnType with
  | none => decide
  | some r =>
      rw [List.all_cons, all_tailMarks_tailText (h.returnType r hr)]
      decide

theorem sectioned {d : Declaration} (h : d.WellFormed) :
    Sectioned (d.head ++ [' ']) (' ' :: (d.body ++ [' '])) (' ' :: tailText d.returnType) where
  open_not_mem := by simp [h.open_not_mem]
  balanced := Enclosure.balanced_of_not_mem (not_mem_body h (by decide)) (not_mem_body h (by decide))
  head_uncut := not_separator_infix_append_cons (by decide) h.head_uncut (by decide)
  inside_uncut := not_separator_infix_of_not_mem (not_mem_body h (by decide))
  tail_uncut := not_separator_infix_of_not_mem (not_mem_tail h (by decide))

theorem ofTokens_tailText {d : Declaration} (h : d.WellFormed) :
    ReturnType.ofTokens (Variant.tokens (trimEnd (' ' :: tailText d.returnType))) = d.returnType := by
  have hplain : Emphasis.Plain (' ' :: tailText d.returnType) :=
    ⟨not_mem_tail h (by decide), not_mem_tail h (by decide), not_mem_tail h (by decide)⟩
  cases hr : d.returnType with
  | none =>
      have hblank : trimEnd (' ' :: tailText none) = [] := by decide
      rw [hblank, Variant.tokens, Emphasis.strip_nil, Token.ofText_nil, ReturnType.ofTokens]
  | some r =>
      have hreturn := h.returnType r hr
      rw [hr] at hplain
      rw [(tight_tailText hreturn).trimEnd_cons, ← ReturnType.ofTokens_map_unplaced, Variant.tokens,
        Emphasis.strip_of_plain hplain, Token.map_unplaced_ofText, spelled_tailText hreturn,
        ofTokens_tailTokens hreturn]

/-- Reading the text of a declaration gives the declaration back. -/
theorem parse_text {d : Declaration} (h : d.WellFormed) : parse {} d.text = [d.variant] := by
  have hparse := (sectioned h).parse_enclose {}
  have htrim : trim d.text = enclose (trimStart (d.head ++ [' '])) (' ' :: (d.body ++ [' ']))
      (trimEnd (' ' :: tailText d.returnType)) := by
    rw [text_eq_enclose, trim_enclose]
  have hparameters : Parameter.ofTokens (Variant.tokens d.body) = d.parameters := by
    rw [← Parameter.ofTokens_map_unplaced, tokens_body h, ofTokens_allTokens h.items]
    rfl
  have hmalformation : malformationOf {} (Variant.tokens d.body) = none := by
    rw [← malformationOf_map_unplaced, tokens_body h, malformationOf_allTokens h.items]
  rw [text_eq_enclose, hparse, ← htrim, trim_body h, hparameters, hmalformation, ofTokens_tailText h]
  rfl

theorem parse_text_nested :
    ∃ d : Declaration, d.WellFormed ∧
      d.text =
        "Do <br/ ( *...a.b* : text \x7b ; c-1 : cs.Local.Item,4D.File \x7b  \x7d \x7d ) -> r : Real".toList ∧
      parse {} d.text = [d.variant] ∧
      d.parameters = [⟨"a.b".toList, "text".toList, false, true⟩,
        ⟨"c-1".toList, "cs.Local.Item,4D.File".toList, true, false⟩] := by
  let d : Declaration := ⟨"Do <br/".toList,
    [.parameter "a.b".toList "text".toList true true,
      .block [.parameter "c-1".toList "cs.Local.Item,4D.File".toList false false, .block []]],
    some ⟨some "r".toList, some "Real".toList⟩⟩
  have hfirst : IsName "a.b".toList ∧ IsType "text".toList := by decide
  have hsecond : IsName "c-1".toList ∧ IsType "cs.Local.Item,4D.File".toList := by decide
  have hreturn : IsReturn ⟨some "r".toList, some "Real".toList⟩ := .both (by decide) (by decide)
  have hd : d.WellFormed :=
    { open_not_mem := by decide
      head_uncut := by decide
      items := ⟨hfirst, ⟨hsecond, trivial, trivial⟩, trivial⟩
      returnType := by
        intro r hr
        rw [← Option.mem_some_iff.mp hr]
        exact hreturn }
  exact ⟨d, hd, by decide, parse_text hd, by decide⟩

end Declaration

end Synopsis
