import Mathlib.Data.List.Flatten
import Synopsis.Proofs.CleanVariants
import Synopsis.Proofs.EmphasisPieces

/-!
# Nothing is invented

Stripping takes asterisks away and adds nothing, except that a stand-in character in the text turns into an
escaped asterisk. Reading tokens drops characters and adds none, and every name is a part of one token. So
what is read of a variant stands in its source text, letter after letter, when no stand-in does; with
stand-ins in it, only asterisks and escapes can be read that were not written.
-/

namespace Synopsis

namespace Emphasis

open Text

theorem showEscapes_cons (c : Char) (t : Text) :
    showEscapes (c :: t) = (if c = standIn then ['\\', '*'] else [c]) ++ showEscapes t := rfl

theorem showEscapes_hideEscapes (t : Text) : showEscapes (hideEscapes t) = showEscapes t := by
  fun_induction hideEscapes t with
  | case1 rest ih =>
      have hbackslash : '\\' ≠ standIn := by decide
      have hasterisk : '*' ≠ standIn := by decide
      rw [showEscapes_cons, if_pos rfl, ih, showEscapes_cons, if_neg hbackslash, showEscapes_cons,
        if_neg hasterisk]
      rfl
  | case2 c rest hnot ih => rw [showEscapes_cons, ih, ← showEscapes_cons]
  | case3 => rfl

theorem showEscapes_sublist {s t : Text} (h : s.Sublist t) : (showEscapes s).Sublist (showEscapes t) :=
  h.flatMap _

theorem intercalate_unwrap_sublist (isWord : Text → Bool) (pieces : List Text) :
    (['*'].intercalate (unwrap isWord pieces)).Sublist (['*'].intercalate pieces) := by
  fun_induction unwrap isWord pieces with
  | case1 before word next pieces hword ih =>
      have hne : unwrap isWord (next :: pieces) ≠ [] := unwrap_ne_nil isWord (by simp)
      rw [joinFirst_eq_appendFirst, intercalate_appendFirst _ _ _ hne, List.intercalate_cons_cons,
        List.intercalate_cons_cons]
      simp only [List.append_assoc]
      have hrest := ih.trans (List.sublist_append_right ['*'] _)
      have hword := (List.Sublist.refl word).append hrest
      exact (List.Sublist.refl before).append (hword.trans (List.sublist_append_right ['*'] _))
  | case2 before word next pieces hword ih =>
      have hne : unwrap isWord (word :: next :: pieces) ≠ [] := unwrap_ne_nil isWord (by simp)
      rw [List.intercalate_cons_of_ne_nil hne, List.intercalate_cons_cons]
      exact (List.Sublist.refl _).append ih
  | case3 pieces hpieces => exact List.Sublist.refl _

theorem intercalate_stripPieces_sublist (pieces : List Text) :
    (['*'].intercalate (stripPieces pieces)).Sublist (['*'].intercalate pieces) :=
  ((intercalate_unwrap_sublist _ _).trans (intercalate_unwrap_sublist _ _)).trans
    (intercalate_unwrap_sublist _ _)

/-- The text without the asterisks around its words, its escapes being hidden. -/
def unmarked (t : Text) : Text :=
  ['*'].intercalate (stripPieces (cutAt '*' t))

theorem strip_eq_showEscapes_unmarked (t : Text) : strip t = showEscapes (unmarked (hideEscapes t)) := rfl

theorem unmarked_sublist (t : Text) : (unmarked t).Sublist t := by
  have h := intercalate_stripPieces_sublist (cutAt '*' t)
  rwa [intercalate_cutAt] at h

/-- Stripping adds nothing but the escapes that it shows. -/
theorem strip_sublist_showEscapes (t : Text) : (strip t).Sublist (showEscapes t) := by
  have h := showEscapes_sublist (unmarked_sublist (hideEscapes t))
  rwa [showEscapes_hideEscapes] at h

/-- A stand-in gives an asterisk that was not written. -/
theorem count_asterisk_showEscapes (t : Text) : (showEscapes t).count '*' = t.count '*' + t.count standIn := by
  induction t with
  | nil => rfl
  | cons c t ih =>
      rw [showEscapes_cons, List.count_append, ih]
      by_cases hc : c = standIn
      · have hasterisk : standIn ≠ '*' := by decide
        have hshown : List.count '*' ['\\', '*'] = 1 := by decide
        rw [if_pos hc, hc, hshown, List.count_cons_of_ne hasterisk, List.count_cons_self]
        omega
      · rw [if_neg hc, List.count_cons_of_ne hc, List.count_singleton, List.count_cons]
        omega

/-- Text without asterisks and backslashes takes nothing from the escapes. -/
theorem sublist_of_sublist_showEscapes {s t : Text} (h : s.Sublist (showEscapes t)) (hasterisk : '*' ∉ s)
    (hbackslash : '\\' ∉ s) : s.Sublist t := by
  induction t generalizing s with
  | nil => exact h
  | cons c t ih =>
      rw [showEscapes_cons] at h
      obtain ⟨front, rest, rfl, hfront, hrest⟩ := List.sublist_append_iff.mp h
      rw [List.mem_append, not_or] at hasterisk hbackslash
      have hbehind := ih hrest hasterisk.2 hbackslash.2
      by_cases hc : c = standIn
      · rw [if_pos hc] at hfront
        have hnil : front = [] := by
          rw [List.eq_nil_iff_forall_not_mem]
          intro d hd
          rcases List.mem_pair.mp (hfront.subset hd) with rfl | rfl
          · exact hbackslash.1 hd
          · exact hasterisk.1 hd
        rw [hnil]
        exact hbehind.cons c
      · rw [if_neg hc] at hfront
        exact hfront.append hbehind

end Emphasis

namespace Token

theorem flatMap_value_scan_sublist (previous : Option Kind) (n : Nat) (text : Text) :
    ((scan previous n text).flatMap value).Sublist text := by
  induction previous, n, text using scan_induction with
  | nil previous n => exact List.Sublist.refl _
  | skip previous n c rest hskip ih => exact ih.cons c
  | token previous n text k value rest hlexeme ih =>
      rw [hlexeme.text_eq, List.flatMap_cons]
      exact (List.Sublist.refl value).append ih

theorem value_sublist_of_mem {ts : List Token} {t : Token} (h : t ∈ ts) :
    t.value.Sublist (ts.flatMap value) := by
  rw [List.flatMap_def]
  exact List.sublist_flatten_of_mem (List.mem_map_of_mem h)

theorem eq_asterisk_of_ofPunctuation? {c : Char} {k : Kind} (h : Kind.ofPunctuation? c = some k)
    (hk : k = .operator ∨ k = .escapedAsterisk) : c = '*' := by
  unfold Kind.ofPunctuation? at h
  split at h <;> cases h <;> first | rfl | simp at hk

theorem Lexeme.asterisk_mem {previous : Option Kind} {text value rest : Text} {k : Kind}
    (h : Lexeme previous text k value rest) (hk : k = .operator ∨ k = .escapedAsterisk) : '*' ∈ value := by
  cases h with
  | escapedAsterisk => simp
  | arrow => simp at hk
  | punctuation hmark =>
      rw [eq_asterisk_of_ofPunctuation? hmark hk]
      exact List.mem_singleton.mpr rfl
  | @run c k word rest hkind hgap hmark harrow hword hstop =>
      rcases ofRun_cases previous (c :: (word ++ rest)) with hrun | hrun | hrun <;> simp [← hkind, hrun] at hk

theorem asterisk_mem_of_mem_scan {previous : Option Kind} {n : Nat} {text : Text} {t : Token}
    (h : t ∈ scan previous n text) (hk : t.kind = .operator ∨ t.kind = .escapedAsterisk) : '*' ∈ t.value := by
  obtain ⟨_, _, _, hlexeme⟩ := exists_lexeme_of_mem_scan h
  exact hlexeme.asterisk_mem hk

theorem parameterLabel_sublist (t : Token) : t.parameterLabel.Sublist t.value := by
  unfold parameterLabel
  split
  · unfold Text.dropLead
    cases hafter : Text.after? ellipsis t.value with
    | none => exact List.Sublist.refl _
    | some rest =>
        rw [Text.after?_eq_some_iff.mp hafter]
        exact List.sublist_append_right ellipsis rest
  · exact List.Sublist.refl _

end Token

namespace Parameter

def isAsterisk (p : Parameter) : Bool :=
  p.name == ['*']

/-- A parameter of the list is an operator or has the label of a token that starts one. -/
theorem operator_or_label_of_mem_ofTokens {ts : List Token} {p : Parameter} (h : p ∈ ofTokens ts) :
    (∃ optional, p = operator optional) ∨
      ∃ t ∈ ts, t.startsParameter = true ∧ p.name = t.parameterLabel := by
  rw [← Started.map_parameter_ofTokens] at h
  obtain ⟨a, ha, rfl⟩ := List.mem_map.mp h
  obtain ⟨rfl, -, hparameter⟩ := Started.declared_of_mem_ofTokens ha
  rw [hparameter]
  by_cases hstart : a.site.token.startsParameter = true
  · right
    refine ⟨a.site.token, a.site.token_mem_tokens, hstart, ?_⟩
    rw [ofSite, if_pos hstart]
    rfl
  · left
    rw [ofSite, if_neg hstart]
    exact ⟨_, rfl⟩

theorem countP_close {pending : Option Parameter} (h : ∀ p, pending = some p → isAsterisk p = false) :
    (close pending).countP isAsterisk = 0 := by
  rw [List.countP_eq_zero]
  intro p hp
  rw [h p (mem_close_iff.mp hp).1]
  simp

theorem not_isAsterisk_nextPending {t : Token} (ht : t.startsParameter = true → t.parameterLabel ≠ ['*'])
    (depth : Int) (afterColon : Bool) {pending : Option Parameter}
    (h : ∀ p, pending = some p → isAsterisk p = false) :
    ∀ p, nextPending depth afterColon pending t = some p → isAsterisk p = false := by
  have hbegun : t.startsParameter = true → isAsterisk (begun depth t) = false := by
    intro hstart
    simpa [isAsterisk, begun] using ht hstart
  intro p hp
  unfold nextPending at hp
  split at hp
  · next hk =>
      cases hp
      exact hbegun (Token.startsParameter_iff.mpr (.inl hk))
  · next hk =>
      cases hp
      exact hbegun (Token.startsParameter_iff.mpr (.inr hk))
  · split at hp
    · obtain ⟨q, hq, rfl⟩ := Option.map_eq_some_iff.mp hp
      exact h q hq
    · exact h p hp
  · cases hp
  · exact h p hp

theorem countP_emitted_le (depth : Int) {pending : Option Parameter} {t : Token}
    (h : ∀ p, pending = some p → isAsterisk p = false)
    (ht : t.kind = .operator ∨ t.kind = .escapedAsterisk → '*' ∈ t.value) :
    (emitted depth pending t).countP isAsterisk ≤ t.value.count '*' := by
  have hclose := countP_close h
  unfold emitted
  split
  · omega
  · omega
  · omega
  · next hk => exact List.one_le_count_iff.mpr (ht (.inl hk))
  · next hk => exact List.one_le_count_iff.mpr (ht (.inr hk))
  · exact Nat.zero_le _

/-- There are no more asterisks among the parameters than among the letters of the tokens. -/
theorem countP_assemble_le {ts : List Token}
    (hstart : ∀ t ∈ ts, t.startsParameter = true → t.parameterLabel ≠ ['*'])
    (hoperator : ∀ t ∈ ts, t.kind = .operator ∨ t.kind = .escapedAsterisk → '*' ∈ t.value) (depth : Int)
    (afterColon : Bool) {pending : Option Parameter} (h : ∀ p, pending = some p → isAsterisk p = false) :
    (assemble depth afterColon pending ts).countP isAsterisk ≤ (ts.flatMap Token.value).count '*' := by
  induction ts generalizing depth afterColon pending with
  | nil =>
      rw [assemble_nil, countP_close h]
      exact Nat.zero_le _
  | cons t ts ih =>
      have hhere := countP_emitted_le depth h (hoperator t List.mem_cons_self)
      have hpending := not_isAsterisk_nextPending (hstart t List.mem_cons_self) depth afterColon h
      have hrest := ih (fun u hu => hstart u (List.mem_cons_of_mem t hu))
        (fun u hu => hoperator u (List.mem_cons_of_mem t hu)) (nextDepth depth t) (t.kind == .colon) hpending
      rw [assemble_cons, List.countP_append, List.flatMap_cons, List.count_append]
      omega

end Parameter

namespace ReturnType

theorem exists_token_of_ofTokens {ts : List Token} {r : ReturnType} (h : ofTokens ts = some r) {field : Text}
    (hfield : r.name = some field ∨ r.type = some field) : ∃ t ∈ ts, field = trimmedValue t := by
  have hparts : ∀ name type : Option Token,
      (∀ t, name = some t → t ∈ ts) → (∀ t, type = some t → t ∈ ts) →
      ofParts (name.map trimmedValue) (type.map trimmedValue) = some r →
        ∃ t ∈ ts, field = trimmedValue t := by
    intro name type hname htype hr
    obtain ⟨hrname, hrtype, -⟩ := ofParts_eq_some hr
    rcases hfield with hf | hf
    · rw [hrname] at hf
      obtain ⟨t, ht, rfl⟩ := Option.map_eq_some_iff.mp (nonempty_eq_some_iff.mp hf).1
      exact ⟨t, hname t ht, rfl⟩
    · rw [hrtype] at hf
      obtain ⟨t, ht, rfl⟩ := Option.map_eq_some_iff.mp (nonempty_eq_some_iff.mp hf).1
      exact ⟨t, htype t ht, rfl⟩
  cases ts with
  | nil => cases h
  | cons t rest =>
      have hbehind : ∀ u, rest.head? = some u → u ∈ t :: rest := by
        intro u hu
        exact List.mem_cons_of_mem t (List.mem_of_head? hu)
      rw [ofTokens] at h
      split at h
      · refine hparts _ _ ?_ ?_ h
        · intro u hu
          exact hbehind u (Option.filter_eq_some_iff.mp hu).1
        · intro u hu
          have hmem := List.mem_of_mem_tail (List.mem_of_head? hu)
          exact List.mem_cons_of_mem t ((List.dropWhile_sublist _).subset hmem)
      · refine hparts none _ ?_ hbehind h
        intro u hu
        cases hu
      · cases h

end ReturnType

namespace Enclosure

theorem sublist_of_ofText_eq_enclosed {t head inside tail : Text} (h : ofText t = .enclosed head inside tail) :
    inside.Sublist t ∧ tail.Sublist t := by
  rw [ofText_eq_enclosed h]
  constructor
  · have hopen := (List.sublist_cons_self '(' inside).trans (List.sublist_append_right head _)
    exact hopen.trans (List.sublist_append_left _ _)
  · exact (List.sublist_cons_self ')' tail).trans (List.sublist_append_right _ _)

end Enclosure

namespace Variant

open Emphasis Parameter

theorem flatMap_value_tokens_sublist (t : Text) : ((tokens t).flatMap Token.value).Sublist (showEscapes t) :=
  (Token.flatMap_value_scan_sublist none 0 (strip t)).trans (strip_sublist_showEscapes t)

theorem not_mem_of_isWordChar {t : Text} (h : ∀ c ∈ t, Token.isWordChar c = true) {d : Char}
    (hd : Token.isWordChar d = false) : d ∉ t := by
  intro hmem
  rw [h d hmem] at hd
  cases hd

theorem parameterLabel_sublist_of_mem_tokens {t : Text} {u : Token} (hu : u ∈ tokens t)
    (hstart : u.startsParameter = true) : u.parameterLabel.Sublist t := by
  have hword := isWordChar_of_mem_parameterLabel (Token.isWordChar_of_mem_scan hu hstart)
  have hshown : u.parameterLabel.Sublist (showEscapes t) :=
    (u.parameterLabel_sublist.trans (Token.value_sublist_of_mem hu)).trans (flatMap_value_tokens_sublist t)
  exact sublist_of_sublist_showEscapes hshown (not_mem_of_isWordChar hword (by decide))
    (not_mem_of_isWordChar hword (by decide))

theorem countP_parseParameters_le (t : Text) :
    (parseParameters t).countP isAsterisk ≤ t.count '*' + t.count standIn := by
  have hlabel : ∀ u ∈ tokens t, u.startsParameter = true → u.parameterLabel ≠ ['*'] := by
    intro u hu hstart heq
    have hword := isWordChar_of_mem_parameterLabel (Token.isWordChar_of_mem_scan hu hstart)
    rw [heq] at hword
    exact not_mem_of_isWordChar hword (d := '*') (by decide) (List.mem_singleton.mpr rfl)
  have hcount : (parseParameters t).countP isAsterisk ≤ ((tokens t).flatMap Token.value).count '*' :=
    countP_assemble_le hlabel (fun u hu => Token.asterisk_mem_of_mem_scan hu) 0 false (by simp)
  rw [← count_asterisk_showEscapes]
  exact hcount.trans ((flatMap_value_tokens_sublist t).count_le '*')

theorem name_sublist_of_mem_parseParameters {t : Text} {p : Parameter} (h : p ∈ parseParameters t)
    (hp : isAsterisk p = false) : p.name.Sublist t := by
  rcases operator_or_label_of_mem_ofTokens h with ⟨optional, rfl⟩ | ⟨u, hu, hstart, hname⟩
  · cases hp
  · rw [hname]
    exact parameterLabel_sublist_of_mem_tokens hu hstart

theorem field_sublist_of_ofTokens {t : Text} {r : ReturnType} (h : ReturnType.ofTokens (tokens t) = some r)
    {field : Text} (hfield : r.name = some field ∨ r.type = some field) : field.Sublist (showEscapes t) := by
  obtain ⟨u, hu, rfl⟩ := ReturnType.exists_token_of_ofTokens h hfield
  have hvalue : (ReturnType.trimmedValue u).Sublist u.value := (Text.isInfix_trim u.value).sublist
  exact (hvalue.trans (Token.value_sublist_of_mem hu)).trans (flatMap_value_tokens_sublist t)

/-- What was read of a source text is written there. -/
structure Written (v : Variant) : Prop where
  asterisks : v.parameters.countP isAsterisk ≤ v.sourceText.count '*'
  names : ∀ p ∈ v.parameters, isAsterisk p = false → p.name.Sublist v.sourceText
  returnType : ∀ r, v.returnType = some r → ∀ field, r.name = some field ∨ r.type = some field →
    field.Sublist v.sourceText

/-- What was read of a source text is written there, where a stand-in counts as an escaped asterisk. -/
structure WrittenUpToEscapes (v : Variant) : Prop where
  asterisks : v.parameters.countP isAsterisk ≤ v.sourceText.count '*' + v.sourceText.count standIn
  names : ∀ p ∈ v.parameters, isAsterisk p = false → p.name.Sublist v.sourceText
  returnType : ∀ r, v.returnType = some r → ∀ field, r.name = some field ∨ r.type = some field →
    field.Sublist (showEscapes v.sourceText)

theorem writtenUpToEscapes_ofText (policy : Policy) (t : Text) : WrittenUpToEscapes (ofText policy t) := by
  unfold ofText
  split
  · exact ⟨Nat.zero_le _, by simp, by simp⟩
  · exact ⟨Nat.zero_le _, by simp, by simp⟩
  · next head inside tail hform =>
      obtain ⟨hinside, htail⟩ := Enclosure.sublist_of_ofText_eq_enclosed hform
      have htrim : (Text.trim inside).Sublist t := (Text.isInfix_trim inside).sublist.trans hinside
      refine ⟨?_, ?_, ?_⟩
      · have hcount := countP_parseParameters_le (Text.trim inside)
        have hasterisk := htrim.count_le '*'
        have hstandIn := htrim.count_le standIn
        exact hcount.trans (Nat.add_le_add hasterisk hstandIn)
      · intro p hp hname
        exact (name_sublist_of_mem_parseParameters hp hname).trans htrim
      · intro r hr field hfield
        exact (field_sublist_of_ofTokens hr hfield).trans (showEscapes_sublist htail)

theorem WrittenUpToEscapes.written {v : Variant} (h : WrittenUpToEscapes v)
    (hstandIn : standIn ∉ v.sourceText) :
    Written v where
  asterisks := by
    have hcount := h.asterisks
    rwa [List.count_eq_zero.mpr hstandIn] at hcount
  names := h.names
  returnType := by
    have hfields := h.returnType
    rwa [showEscapes_eq_self hstandIn] at hfields

/-- Every asterisk among the parameters is written or stands for a stand-in, every other name is written, and
so is the return type but for escapes in the place of stand-ins. Without stand-ins nothing is invented. -/
theorem written_of_mem_parse {policy : Policy} {t : Text} {v : Variant} (h : v ∈ parse policy t) :
    WrittenUpToEscapes v ∧ (standIn ∉ v.sourceText → Written v) := by
  obtain ⟨piece, -, -, rfl⟩ := mem_parse_iff.mp h
  have hescapes := writtenUpToEscapes_ofText policy (Text.trim piece)
  exact ⟨hescapes, hescapes.written⟩

theorem exists_written_of_asterisks :
    ∃ v ∈ parse {} "f(*a* : Text \x7b ; \\* ; *...b* : Text \x7d ; *) -> *r* : Text <br/> \uE000".toList,
      v.parameters.countP isAsterisk = 2 ∧ WrittenUpToEscapes v ∧ (standIn ∉ v.sourceText → Written v) ∧
        standIn ∉ v.sourceText := by
  have h : ⟨"f(*a* : Text \x7b ; \\* ; *...b* : Text \x7d ; *) -> *r* : Text".toList,
      [⟨['a'], "Text".toList, false, false⟩, operator true, ⟨['b'], "Text".toList, true, true⟩,
        operator false],
      some ⟨some ['r'], some "Text".toList⟩, none⟩ ∈
        parse {} "f(*a* : Text \x7b ; \\* ; *...b* : Text \x7d ; *) -> *r* : Text <br/> \uE000".toList := by
    decide +kernel
  obtain ⟨hescapes, hwritten⟩ := written_of_mem_parse h
  exact ⟨_, h, by decide, hescapes, hwritten, by decide⟩

/-- A stand-in that is written comes out as an asterisk, and as an escape in the return type. -/
theorem exists_not_written :
    ∃ v ∈ parse {} "f(\uE000) -> \uE000".toList,
      v.parameters = [operator false] ∧ v.returnType = some ⟨some ['\\', '*'], none⟩ ∧ ¬ Written v := by
  have h : ⟨"f(\uE000) -> \uE000".toList, [operator false], some ⟨some ['\\', '*'], none⟩, none⟩ ∈
      parse {} "f(\uE000) -> \uE000".toList := by decide +kernel
  refine ⟨_, h, rfl, rfl, ?_⟩
  intro hwritten
  exact absurd hwritten.asterisks (by decide)

end Variant

end Synopsis
