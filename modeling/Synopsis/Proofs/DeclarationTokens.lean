import Synopsis.Proofs.DeclarationWords
import Synopsis.Proofs.TokenSpelling

/-!
# The tokens of a declaration

Reading the text of an item gives the tokens that one expects of it, whatever stands behind it after a
space: the asterisks are gone, a name is one token, and so is a type. The proof follows the items, with
the text behind them as a parameter.
-/

namespace Synopsis

namespace Token

open Declaration Emphasis

/-- What begins a text that goes on with a space begins it before the space. -/
theorem prefix_of_prefix_append_stops {lead word rest : Text} (hspace : ' ' ∉ lead) (hrest : Stops rest)
    (h : lead <+: word ++ rest) : lead <+: word := by
  refine (prefix_append_iff (p := fun d => d != ' ') ?_ ?_).mp h
  · intro d hd
    exact bne_iff_ne.mpr fun hspaces => hspace (hspaces ▸ hd)
  · intro d hd
    simp [hrest d hd]

theorem not_admits_space (k : Kind) : k.admits ' ' = false := by
  cases k <;> decide

/-- A word before a space is one token. -/
theorem spelled_word {afterColon : Bool} {k : Kind} {word rest : Text} (hne : word ≠ [])
    (hordinary : ∀ c ∈ word, isOrdinary c = true) (hadmits : ∀ c ∈ word, k.admits c = true)
    (hrest : Stops rest)
    (hkind : Kind.ofRun (if afterColon then some .colon else none) (word ++ rest) = k) :
    spelled afterColon (word ++ rest) = ⟨k, word, 0⟩ :: spelled (k == .colon) rest := by
  cases word with
  | nil => exact absurd rfl hne
  | cons c word =>
      have hc := hordinary c List.mem_cons_self
      have harrow : ¬ ['-', '>'] <+: (c :: word) ++ rest := by
        intro h
        have hword := prefix_of_prefix_append_stops (by decide) hrest h
        exact ne_of_isOrdinary (hordinary '>' (hword.subset (by simp))) (by decide) rfl
      have hstop : ∀ d ∈ rest.head?, k.admits d = false := by
        intro d hd
        rw [hrest d hd]
        exact not_admits_space k
      have hlexeme :
          Lexeme (if afterColon then some .colon else none) (c :: (word ++ rest)) k (c :: word) rest :=
        .run hkind (not_isGap_of_isOrdinary hc) (ofPunctuation?_of_isOrdinary hc) harrow hadmits hstop
      have h := spelled_of_lexeme hlexeme
      cases afterColon <;> exact h

end Token

namespace Item

open Token Declaration Emphasis

def labelToken (name : Text) (spread : Bool) : Token :=
  ⟨if spread then .spread else .parameterName, labelText name spread, 0⟩

/-- The colon and the type of a parameter. -/
def typeTokens (type : Text) : List Token :=
  [⟨.colon, [':'], 0⟩, ⟨.typeName, type, 0⟩]

def parameterTokens (first : Bool) (name type : Text) (spread : Bool) : List Token :=
  (if first then [] else [⟨.semicolon, [';'], 0⟩]) ++ labelToken name spread :: typeTokens type

mutual

def tokens (first : Bool) : Item → List Token
  | .parameter name type spread _ => parameterTokens first name type spread
  | .block items => ⟨.openBrace, ['{'], 0⟩ :: (allTokens first items ++ [⟨.closeBrace, ['}'], 0⟩])

def allTokens (first : Bool) : List Item → List Token
  | [] => []
  | i :: rest => tokens first i ++ allTokens (first && !declaresParameter i) rest

end

mutual

def WellFormed : Item → Prop
  | .parameter name type _ _ => IsName name ∧ IsType type
  | .block items => AllWellFormed items

def AllWellFormed : List Item → Prop
  | [] => True
  | i :: rest => WellFormed i ∧ AllWellFormed rest

end

theorem isNameChar_of_mem_labelText {name : Text} (h : IsName name) (spread : Bool) :
    ∀ c ∈ labelText name spread, isNameChar c = true := by
  have hdots : ∀ c ∈ ellipsis, isNameChar c = true := List.all_eq_true.mp (by decide)
  intro c hc
  rcases List.mem_append.mp hc with hdot | hname
  · cases spread with
    | true => exact hdots c hdot
    | false => cases hdot
  · exact h.isNameChar c hname

theorem isOrdinary_of_mem_labelText {name : Text} (h : IsName name) (spread : Bool) :
    ∀ c ∈ labelText name spread, isOrdinary c = true :=
  fun c hc => isOrdinary_of_isNameChar (isNameChar_of_mem_labelText h spread c hc)

theorem labelText_ne_nil {name : Text} (h : IsName name) (spread : Bool) : labelText name spread ≠ [] := by
  simp [labelText, h.ne_nil]

theorem ofRun_labelText {name rest : Text} (h : IsName name) (spread : Bool) (hrest : Stops rest) :
    Kind.ofRun none (labelText name spread ++ rest) = if spread then .spread else .parameterName := by
  have hlead : Text.startsWith ellipsis (labelText name spread ++ rest) = spread := by
    cases spread with
    | true =>
        rw [Text.startsWith_iff, labelText, if_pos rfl, List.append_assoc]
        exact List.prefix_append _ _
    | false =>
        rw [Bool.eq_false_iff, Ne, Text.startsWith_iff]
        intro hdots
        exact h.no_spread (prefix_of_prefix_append_stops (by decide) hrest hdots)
  rw [Kind.ofRun, hlead]
  cases spread <;> simp

theorem spelled_labelText {name rest : Text} (h : IsName name) (spread : Bool) (hrest : Stops rest) :
    spelled false (labelText name spread ++ rest) = labelToken name spread :: spelled false rest := by
  have hkind := ofRun_labelText h spread hrest
  have hadmits :
      ∀ c ∈ labelText name spread, (if spread then Kind.spread else .parameterName).admits c = true :=
    fun c hc => admits_of_isWordChar (isWordChar_of_isNameChar (isNameChar_of_mem_labelText h spread c hc))
  have hword := @spelled_word false _ _ rest (labelText_ne_nil h spread) (isOrdinary_of_mem_labelText h spread)
    hadmits hrest hkind
  rw [hword]
  cases spread <;> rfl

theorem spelled_type {type rest : Text} (h : IsType type) (hrest : Stops rest) :
    spelled true (type ++ rest) = ⟨.typeName, type, 0⟩ :: spelled false rest := by
  have hlead : Text.startsWith ellipsis (type ++ rest) = false := by
    rw [Bool.eq_false_iff, Ne, Text.startsWith_iff]
    intro hdots
    exact h.no_spread (prefix_of_prefix_append_stops (by decide) hrest hdots)
  have hkind : Kind.ofRun (some .colon) (type ++ rest) = .typeName := by simp [Kind.ofRun, hlead]
  have hadmits : ∀ c ∈ type, Kind.typeName.admits c = true :=
    fun c hc => (Bool.and_eq_true_iff.mp (h.isTypeChar c hc)).2
  exact spelled_word h.ne_nil h.isOrdinary hadmits hrest hkind

theorem spelled_typeTokens {type rest : Text} (h : IsType type) (hrest : Stops rest) :
    spelled false (" : ".toList ++ (type ++ rest)) = typeTokens type ++ spelled false rest := by
  have hcolon := spelled_punctuation (c := ':') (k := .colon) rfl false (' ' :: (type ++ rest))
  have htype := spelled_type h hrest
  calc spelled false (" : ".toList ++ (type ++ rest)) = spelled false (':' :: ' ' :: (type ++ rest)) :=
        spelled_cons_of_isGap (by decide) false _
    _ = ⟨.colon, [':'], 0⟩ :: spelled true (' ' :: (type ++ rest)) := hcolon
    _ = ⟨.colon, [':'], 0⟩ :: spelled true (type ++ rest) := by rw [spelled_cons_of_isGap (by decide)]
    _ = typeTokens type ++ spelled false rest := by rw [htype]; rfl

/-- A label loses its asterisks, emphasised or not. -/
theorem strip_labelText {name rest : Text} (h : IsName name) (spread emphasised : Bool) (hrest : Stops rest) :
    strip ((if emphasised then emphasise (labelText name spread) else labelText name spread) ++ rest) =
      labelText name spread ++ strip rest := by
  have hordinary := isOrdinary_of_mem_labelText h spread
  have hplain := plain_of_isOrdinary hordinary
  cases emphasised with
  | true =>
      have hword := strip_emphasised (labelText_ne_nil h spread)
        (fun c hc => isWordChar_of_isOrdinary (hordinary c hc)) hplain hrest
      simpa [emphasise] using hword
  | false => exact strip_append hplain rest

theorem strip_parameterText {name type rest : Text} (hname : IsName name) (htype : IsType type)
    (first spread emphasised : Bool) :
    strip (parameterText first name type spread emphasised ++ rest) =
      (if first then [] else [';', ' ']) ++
        (labelText name spread ++ (" : ".toList ++ (type ++ strip rest))) := by
  have hlead : Plain (if first then [] else [';', ' ']) := by cases first <;> decide
  have hcolon : Stops (" : ".toList ++ (type ++ rest)) := stops_cons _
  have htypePlain := plain_of_isOrdinary htype.isOrdinary
  unfold parameterText
  simp only [List.append_assoc]
  rw [strip_append hlead, strip_labelText hname spread emphasised hcolon, strip_append (by decide),
    strip_append htypePlain]

theorem spelled_parameterText {name type rest : Text} (hname : IsName name) (htype : IsType type)
    (first spread emphasised : Bool) (hrest : Stops rest) :
    spelled false (strip (parameterText first name type spread emphasised ++ rest)) =
      parameterTokens first name type spread ++ spelled false (strip rest) := by
  have hcolon : Stops (" : ".toList ++ (type ++ strip rest)) := stops_cons _
  have hlabel : spelled false (labelText name spread ++ (" : ".toList ++ (type ++ strip rest))) =
      labelToken name spread :: typeTokens type ++ spelled false (strip rest) := by
    rw [spelled_labelText hname spread hcolon, spelled_typeTokens htype (stops_strip hrest)]
    rfl
  rw [strip_parameterText hname htype]
  cases first with
  | true => exact hlabel
  | false =>
      calc spelled false (';' :: ' ' :: (labelText name spread ++ (" : ".toList ++ (type ++ strip rest)))) =
          ⟨.semicolon, [';'], 0⟩ :: spelled false (' ' :: (labelText name spread ++
            (" : ".toList ++ (type ++ strip rest)))) := spelled_punctuation (k := .semicolon) rfl false _
        _ = ⟨.semicolon, [';'], 0⟩ :: spelled false (labelText name spread ++
            (" : ".toList ++ (type ++ strip rest))) := by rw [spelled_cons_of_isGap (by decide)]
        _ = parameterTokens false name type spread ++ spelled false (strip rest) := by rw [hlabel]; rfl

theorem spelled_openBrace (rest : Text) :
    spelled false (strip ("\x7b ".toList ++ rest)) = ⟨.openBrace, ['{'], 0⟩ :: spelled false (strip rest) := by
  rw [strip_append (by decide)]
  calc spelled false ('{' :: ' ' :: strip rest) =
      ⟨.openBrace, ['{'], 0⟩ :: spelled false (' ' :: strip rest) :=
        spelled_punctuation (k := .openBrace) rfl false _
    _ = ⟨.openBrace, ['{'], 0⟩ :: spelled false (strip rest) := by rw [spelled_cons_of_isGap (by decide)]

theorem spelled_closeBrace (rest : Text) :
    spelled false (strip (" \x7d".toList ++ rest)) = ⟨.closeBrace, ['}'], 0⟩ :: spelled false (strip rest) := by
  rw [strip_append (by decide)]
  calc spelled false (' ' :: '}' :: strip rest) = spelled false ('}' :: strip rest) :=
        spelled_cons_of_isGap (by decide) false _
    _ = ⟨.closeBrace, ['}'], 0⟩ :: spelled false (strip rest) :=
      spelled_punctuation (k := .closeBrace) rfl false _

mutual

/-- The text of an item gives the item's tokens, whatever stands behind it after a space. -/
theorem spelled_text (first : Bool) (i : Item) (h : WellFormed i) (rest : Text) (hrest : Stops rest) :
    spelled false (strip (text first i ++ rest)) = tokens first i ++ spelled false (strip rest) := by
  cases i with
  | parameter name type spread emphasised =>
      obtain ⟨hname, htype⟩ := h
      exact spelled_parameterText hname htype first spread emphasised hrest
  | block items =>
      have hitems := spelled_texts first items h (" \x7d".toList ++ rest) (stops_cons _)
      simp only [text, tokens, List.append_assoc, List.cons_append]
      rw [spelled_openBrace, hitems, spelled_closeBrace]
      rfl

theorem spelled_texts (first : Bool) (items : List Item) (h : AllWellFormed items) (rest : Text)
    (hrest : Stops rest) :
    spelled false (strip ([' '].intercalate (texts first items) ++ rest)) =
      allTokens first items ++ spelled false (strip rest) := by
  cases items with
  | nil => rfl
  | cons i items =>
      obtain ⟨hi, hitems⟩ := h
      have hrec := spelled_texts (first && !declaresParameter i) items hitems rest hrest
      cases items with
      | nil =>
          simp only [texts, List.intercalate_singleton, allTokens, List.append_nil]
          exact spelled_text first i hi rest hrest
      | cons j items =>
          have hjoin : [' '].intercalate (texts first (i :: j :: items)) ++ rest = text first i ++
              ' ' :: ([' '].intercalate (texts (first && !declaresParameter i) (j :: items)) ++ rest) := by
            rw [texts, texts, List.intercalate_cons_cons]
            simp
          have hspace := spelled_text first i hi (' ' :: ([' '].intercalate
            (texts (first && !declaresParameter i) (j :: items)) ++ rest)) (stops_cons _)
          rw [strip_cons (by decide), spelled_cons_of_isGap (by decide), hrec] at hspace
          rw [hjoin, hspace, ← List.append_assoc]
          rfl

end

end Item

namespace Declaration

open Token Emphasis Item

/-- A return type that is written out: it has a name or a type, or both. -/
inductive IsReturn : ReturnType → Prop
  | named {name : Text} (hname : IsName name) : IsReturn ⟨some name, none⟩
  | typed {type : Text} (htype : IsType type) : IsReturn ⟨none, some type⟩
  | both {name type : Text} (hname : IsName name) (htype : IsType type) : IsReturn ⟨some name, some type⟩

def tailTokens : ReturnType → List Token
  | ⟨some name, some type⟩ => ⟨.arrow, ['-', '>'], 0⟩ :: labelToken name false :: typeTokens type
  | ⟨some name, none⟩ => [⟨.arrow, ['-', '>'], 0⟩, labelToken name false]
  | ⟨none, some type⟩ => typeTokens type
  | ⟨none, none⟩ => []

theorem spelled_arrow_name {name rest : Text} (h : IsName name) (hrest : Stops rest) :
    spelled false (" -> ".toList ++ (name ++ rest)) =
      ⟨.arrow, ['-', '>'], 0⟩ :: labelToken name false :: spelled false rest := by
  have hlabel := spelled_labelText h false hrest
  calc spelled false (" -> ".toList ++ (name ++ rest)) = spelled false ('-' :: '>' :: ' ' :: (name ++ rest)) :=
        spelled_cons_of_isGap (by decide) false _
    _ = ⟨.arrow, ['-', '>'], 0⟩ :: spelled false (' ' :: (name ++ rest)) := spelled_arrow _
    _ = ⟨.arrow, ['-', '>'], 0⟩ :: spelled false (name ++ rest) := by
        rw [spelled_cons_of_isGap (by decide)]
    _ = ⟨.arrow, ['-', '>'], 0⟩ :: labelToken name false :: spelled false rest := congrArg _ hlabel

theorem spelled_tailText {r : ReturnType} (h : IsReturn r) :
    spelled false (' ' :: tailText (some r)) = tailTokens r := by
  cases h with
  | named hname =>
      have h := spelled_arrow_name hname stops_nil
      rw [List.append_nil, spelled_nil] at h
      exact h
  | typed htype =>
      have h := spelled_typeTokens htype stops_nil
      rw [List.append_nil, spelled_nil, List.append_nil] at h
      exact h
  | @both name type hname htype =>
      have hstops : Stops (" : ".toList ++ type) := stops_cons _
      have hjoin : ' ' :: tailText (some ⟨some name, some type⟩) =
          " -> ".toList ++ (name ++ (" : ".toList ++ type)) := by simp [tailText]
      have h := spelled_typeTokens htype stops_nil
      rw [List.append_nil, spelled_nil, List.append_nil] at h
      rw [hjoin, spelled_arrow_name hname hstops, h]
      rfl

end Declaration

end Synopsis
