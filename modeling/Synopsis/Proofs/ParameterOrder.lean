import Synopsis.Proofs.ParameterNames

/-!
# The order of parameters

A parameter is put into the list where it ends: an operator at its own token, every other one behind its extent.
So the list follows the places of the ends, in which an operator overtakes the parameter that it stands in. The
parameters of each of the two sorts keep the order of their sites, and each is what its site declares, read off
from the braces before it and from the types that a colon introduces in its extent.
-/

namespace Synopsis

namespace Parameter

open Token (Site)

def opensMore (ts : List Token) : Bool :=
  ts.countP (fun t => t.kind == .closeBrace) < ts.countP fun t => t.kind == .openBrace

def introducedTypes (s : Site) : List Text :=
  (((s.token :: extent s.after).zip (extent s.after)).filter fun p =>
    p.1.kind == .colon && p.2.kind == .typeName).map fun p => p.2.value

/-- The number of tokens before the end of the extent of the parameter that starts at a site. -/
def extentEnd (s : Site) : Nat :=
  s.before.length + 1 + (extent s.after).length

def declaresOperator (s : Site) : Bool :=
  s.token.kind == .operator || s.token.kind == .escapedAsterisk

/-- The parameter that a site declares, said without a walk over the tokens. -/
def declaredAt (s : Site) : Parameter :=
  if s.token.startsParameter then
    ⟨s.token.parameterLabel, (introducedTypes s).getLastD unknownType, opensMore s.before,
      s.token.kind == .spread⟩
  else operator (opensMore s.before)

/-- `as` are the parameters of `ts` with the sites they come from: the named ones and the operators each in the
order of their sites, and an operator before a named one if it stands before the end of its extent. -/
structure Described (ts : List Token) (as : List Started) : Prop where
  named : (as.filter fun a => a.site.token.startsParameter).map Started.site = (Token.sites ts).filter declares
  operators : (as.filter fun a => !a.site.token.startsParameter).map Started.site =
    (Token.sites ts).filter declaresOperator
  parameter : ∀ a ∈ as, a.parameter = declaredAt a.site
  merged : ∀ (i j : Nat) (a b : Started), as[i]? = some a → as[j]? = some b →
    a.site.token.startsParameter = false → b.site.token.startsParameter = true →
    (i < j ↔ a.site.before.length < extentEnd b.site)

theorem depthOf_eq_sub (ts : List Token) :
    depthOf ts = ts.countP (fun t => t.kind == .openBrace) - ts.countP fun t => t.kind == .closeBrace := by
  induction ts using List.reverseRecOn with
  | nil => rfl
  | append_singleton ts t ih =>
      rw [depthOf_concat, ih, List.countP_append, List.countP_append, nextDepth]
      cases ht : t.kind <;> simp [ht] <;> omega

theorem opensMore_eq (ts : List Token) : opensMore ts = decide (0 < depthOf ts) := by
  rw [opensMore, depthOf_eq_sub, decide_eq_decide]
  omega

theorem typesIn_eq_zip (t : Token) (ts : List Token) :
    typesIn (t.kind == .colon) ts =
      (((t :: ts).zip ts).filter fun p => p.1.kind == .colon && p.2.kind == .typeName).map
        fun p => p.2.value := by
  induction ts generalizing t with
  | nil => rfl
  | cons u rest ih =>
      rw [typesIn, ih u, List.zip_cons_cons, List.filter_cons]
      split <;> rfl

theorem lastType_eq_introducedTypes {s : Site} (hs : s.token.startsParameter = true) :
    lastType false unknownType s.after = (introducedTypes s).getLastD unknownType := by
  have hcolon : (s.token.kind == .colon) = false := by
    rcases Token.startsParameter_iff.mp hs with hk | hk <;> rw [hk] <;> rfl
  rw [lastType, introducedTypes, ← typesIn_eq_zip, hcolon]

theorem ofSite_eq_declaredAt (s : Site) : ofSite s = declaredAt s := by
  unfold ofSite declaredAt
  split
  · next hs =>
      rw [lastType_eq_introducedTypes hs, opensMore_eq]
      rfl
  · rw [opensMore_eq]

namespace Started

section Operators

def operatorSites (as : List Started) : List Site :=
  (as.filter fun a => !a.site.token.startsParameter).map site

theorem operatorSites_append (as bs : List Started) :
    operatorSites (as ++ bs) = operatorSites as ++ operatorSites bs := by
  simp [operatorSites]

variable {all before : List Token} {depth : Int} {afterColon : Bool} {pending : Option Started}

theorem Reached.operatorSites_close {ts : List Token} (h : Reached all before depth afterColon pending ts) :
    operatorSites (close pending) = [] := by
  rw [operatorSites, List.map_eq_nil_iff, List.filter_eq_nil_iff]
  intro a ha
  simp [(h.pending a (mem_close_iff.mp ha).1).starts]

theorem Reached.operatorSites_emitted {t : Token} {rest : List Token}
    (h : Reached all before depth afterColon pending (t :: rest)) :
    operatorSites (emitted depth pending ⟨before, t, rest⟩) =
      if declaresOperator ⟨before, t, rest⟩ then [⟨before, t, rest⟩] else [] := by
  have hoperator : t.startsParameter = false →
      operatorSites [⟨⟨before, t, rest⟩, operator (0 < depth)⟩] = [⟨before, t, rest⟩] := by
    intro ht
    simp [operatorSites, ht]
  unfold emitted declaresOperator
  cases ht : t.kind with
  | parameterName => simpa [ht] using h.operatorSites_close
  | spread => simpa [ht] using h.operatorSites_close
  | semicolon => simpa [ht] using h.operatorSites_close
  | operator => simpa [ht] using hoperator (by simp [Token.startsParameter, ht])
  | escapedAsterisk => simpa [ht] using hoperator (by simp [Token.startsParameter, ht])
  | _ => simp [operatorSites]

theorem Reached.operatorSites_assemble {ts : List Token} (h : Reached all before depth afterColon pending ts) :
    operatorSites (assemble before depth afterColon pending ts) =
      (Token.sitesFrom before ts).filter declaresOperator := by
  induction ts generalizing before depth afterColon pending with
  | nil => exact h.operatorSites_close
  | cons t rest ih =>
      rw [assemble, operatorSites_append, h.operatorSites_emitted, ih h.next, Token.sitesFrom, List.filter_cons]
      split <;> rfl

end Operators

section Order

def place (s : Site) : Nat :=
  if s.token.startsParameter then extentEnd s else s.before.length

/-- The parameter that has begun ends where the extent of the tokens to come does. -/
def EndsWith (before ts : List Token) (pending : Option Started) : Prop :=
  ∀ a, pending = some a → place a.site = before.length + (extent ts).length

theorem length_extent_of_endsExtent {t : Token} (ht : endsExtent t = true) (rest : List Token) :
    (extent (t :: rest)).length = 0 := by
  simp [extent, ht]

theorem length_extent_cons {t : Token} (ht : endsExtent t = false) (rest : List Token) :
    (extent (t :: rest)).length = (extent rest).length + 1 := by
  simp [extent, ht]

variable {before rest : List Token} {t : Token} {pending : Option Started}

theorem EndsWith.next (h : EndsWith before (t :: rest) pending) (depth : Int) (afterColon : Bool) :
    EndsWith (before ++ [t]) rest (next depth afterColon pending ⟨before, t, rest⟩) := by
  have hkeep : endsExtent t = false → EndsWith (before ++ [t]) rest pending := by
    intro ht a ha
    rw [h a ha, length_extent_cons ht, List.length_append, List.length_singleton]
    omega
  intro a ha
  rcases next_cases ha with ⟨hstart, rfl⟩ | ⟨-, hk, b, hb, rfl⟩ | ⟨hends, -, hpending⟩
  · rw [place, if_pos hstart, extentEnd, List.length_append]
    rfl
  · exact hkeep (endsExtent_of_typeName hk) b hb
  · exact hkeep hends a hpending

theorem EndsWith.place_of_mem_emitted (h : EndsWith before (t :: rest) pending) {depth : Int} {a : Started}
    (ha : a ∈ emitted depth pending ⟨before, t, rest⟩) : place a.site = before.length := by
  rcases mem_emitted_cases ha with ⟨hends, hclose⟩ | ⟨-, hstart, rfl⟩
  · rw [h a (mem_close_iff.mp hclose).1, length_extent_of_endsExtent hends, Nat.add_zero]
  · rw [place, if_neg (by simp [hstart])]

theorem pairwise_close (r : Started → Started → Prop) (pending : Option Started) :
    (close pending).Pairwise r := by
  unfold close
  cases pending.filter fun a => !isPlaceholder a.parameter.name <;> simp

theorem pairwise_emitted (r : Started → Started → Prop) (depth : Int) (pending : Option Started) (s : Site) :
    (emitted depth pending s).Pairwise r := by
  unfold emitted
  cases s.token.kind <;> simp [pairwise_close]

/-- The parameters stand in the order of their places, none of which lies before the tokens to come. -/
theorem ordered_assemble {ts : List Token} (h : EndsWith before ts pending) (depth : Int) (afterColon : Bool) :
    (assemble before depth afterColon pending ts).Pairwise (fun a b => place a.site < place b.site) ∧
      ∀ a ∈ assemble before depth afterColon pending ts, before.length ≤ place a.site := by
  induction ts generalizing before depth afterColon pending with
  | nil =>
      rw [assemble]
      constructor
      · exact pairwise_close _ pending
      · intro a ha
        rw [h a (mem_close_iff.mp ha).1]
        exact Nat.le_add_right _ _
  | cons t rest ih =>
      obtain ⟨hpairwise, hle⟩ := ih (h.next depth afterColon) (nextDepth depth t) (t.kind == .colon)
      have hhere : ∀ a ∈ emitted depth pending ⟨before, t, rest⟩, place a.site = before.length :=
        fun a ha => h.place_of_mem_emitted ha
      rw [assemble]
      constructor
      · refine List.pairwise_append.mpr ⟨pairwise_emitted _ depth pending _, hpairwise, ?_⟩
        intro a ha b hb
        have hb := hle b hb
        rw [List.length_append, List.length_singleton] at hb
        rw [hhere a ha]
        omega
      · intro a ha
        rcases List.mem_append.mp ha with hemitted | hrest
        · exact (hhere a hemitted).ge
        · have ha := hle a hrest
          rw [List.length_append] at ha
          omega

end Order

theorem reached_start (ts : List Token) : Reached ts [] 0 false none ts :=
  ⟨rfl, rfl, by simp⟩

end Started

/-- In a list that follows some numbers, the positions compare as the numbers do. -/
theorem lt_iff_of_pairwise {α : Type} {f : α → Nat} {as : List α} (h : as.Pairwise fun a b => f a < f b)
    {i j : Nat} {a b : α} (ha : as[i]? = some a) (hb : as[j]? = some b) : i < j ↔ f a < f b := by
  obtain ⟨hi, rfl⟩ := List.getElem?_eq_some_iff.mp ha
  obtain ⟨hj, rfl⟩ := List.getElem?_eq_some_iff.mp hb
  have hlt := List.pairwise_iff_getElem.mp h
  constructor
  · exact hlt i j hi hj
  · intro hf
    rcases Nat.lt_trichotomy i j with hij | rfl | hji
    · exact hij
    · exact absurd hf (Nat.lt_irrefl _)
    · exact absurd (hlt j i hj hi hji) (Nat.lt_asymm hf)

/-- The parameters of any tokens, described without the walk that assembles them. -/
theorem exists_described_ofTokens (ts : List Token) :
    ∃ as : List Started, as.map Started.parameter = ofTokens ts ∧ Described ts as := by
  have hreached := Started.reached_start ts
  refine ⟨Started.ofTokens ts, Started.map_parameter_ofTokens ts, ?_, ?_, ?_, ?_⟩
  · exact Started.namedSites_ofTokens ts
  · exact hreached.operatorSites_assemble
  · intro a ha
    rw [(Started.declared_of_mem_ofTokens ha).parameter, ofSite_eq_declaredAt]
  · intro i j a b ha hb hoperator hnamed
    have hends : Started.EndsWith [] ts none := by
      intro a ha
      cases ha
    have h := lt_iff_of_pairwise (Started.ordered_assemble hends 0 false).1 ha hb
    rwa [Started.place, if_neg (by simp [hoperator]), Started.place, if_pos hnamed] at h

/-- The first asterisk overtakes `a`, in whose extent it stands; the second one comes behind the semicolon. -/
example : (ofTokens (Token.ofText "a * : Text ; *".toList)).map name = [['*'], ['a'], ['*']] := by
  decide +kernel

end Parameter

end Synopsis
