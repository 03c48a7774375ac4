import Synopsis.Proofs.ParameterSteps
import Synopsis.Proofs.TokenScan

/-!
# Where parameters start

An assembly can keep, with every parameter, the site of the token that started it. Forgetting the sites
gives the parameters back. The site alone determines the parameter: its name is the label of the token,
whether it is optional depends on the braces before the token, and its type on the tokens behind it, up to
the next start of a parameter or the next semicolon.
-/

namespace Synopsis

namespace Token

/-- A token of a list with what stands before it and behind it. -/
structure Site where
  before : List Token
  token : Token
  after : List Token
  deriving DecidableEq

def Site.tokens (s : Site) : List Token :=
  s.before ++ s.token :: s.after

end Token

namespace Parameter

open Token (Site)

def endsExtent (t : Token) : Bool :=
  t.startsParameter || t.kind == .semicolon

/-- The tokens from which a parameter that has begun can get its type. -/
def extent (ts : List Token) : List Token :=
  ts.takeWhile fun t => !endsExtent t

def typesIn (afterColon : Bool) : List Token → List Text
  | [] => []
  | t :: rest =>
    (if afterColon && t.kind == .typeName then [t.value] else []) ++ typesIn (t.kind == .colon) rest

/-- The type that a parameter has at its end, if it has the type `current` before these tokens. -/
def lastType (afterColon : Bool) (current : Text) (ts : List Token) : Text :=
  (typesIn afterColon (extent ts)).getLastD current

def depthOf (ts : List Token) : Int :=
  ts.foldl nextDepth 0

def ofSite (s : Site) : Parameter :=
  if s.token.startsParameter then
    { begun (depthOf s.before) s.token with type := lastType false unknownType s.after }
  else operator (0 < depthOf s.before)

theorem depthOf_concat (ts : List Token) (t : Token) : depthOf (ts ++ [t]) = nextDepth (depthOf ts) t := by
  simp [depthOf]

theorem lastType_of_endsExtent {t : Token} (ht : endsExtent t = true) (afterColon : Bool) (current : Text)
    (rest : List Token) : lastType afterColon current (t :: rest) = current := by
  simp [lastType, extent, ht, typesIn]

theorem endsExtent_of_typeName {t : Token} (ht : t.kind = .typeName) : endsExtent t = false := by
  simp [endsExtent, Token.startsParameter, ht]

theorem lastType_of_typeName {t : Token} (ht : t.kind = .typeName) (current : Text) (rest : List Token) :
    lastType true current (t :: rest) = lastType false t.value rest := by
  have hends := endsExtent_of_typeName ht
  have htypes : typesIn true (extent (t :: rest)) = t.value :: typesIn false (extent rest) := by
    simp only [extent, List.takeWhile_cons, hends, Bool.not_false, if_true, typesIn, ht]
    rfl
  rw [lastType, htypes, List.getLastD_cons]
  rfl

theorem lastType_cons {t : Token} (hends : endsExtent t = false) {afterColon : Bool}
    (ht : afterColon = true → t.kind ≠ .typeName) (current : Text) (rest : List Token) :
    lastType afterColon current (t :: rest) = lastType (t.kind == .colon) current rest := by
  have htypes : typesIn afterColon (extent (t :: rest)) = typesIn (t.kind == .colon) (extent rest) := by
    simp only [extent, List.takeWhile_cons, hends, Bool.not_false, if_true, typesIn]
    cases afterColon with
    | false => rfl
    | true => simp [ht rfl]
  rw [lastType, htypes]
  rfl

/-- A parameter with the site of the token that started it. -/
structure Started where
  site : Site
  parameter : Parameter
  deriving DecidableEq

namespace Started

def close (pending : Option Started) : List Started :=
  (pending.filter fun a => !isPlaceholder a.parameter.name).toList

def next (depth : Int) (afterColon : Bool) (pending : Option Started) (s : Site) : Option Started :=
  match s.token.kind with
  | .parameterName | .spread => some ⟨s, begun depth s.token⟩
  | .typeName =>
    if afterColon then pending.map fun a => { a with parameter := { a.parameter with type := s.token.value } }
    else pending
  | .semicolon => none
  | _ => pending

def emitted (depth : Int) (pending : Option Started) (s : Site) : List Started :=
  match s.token.kind with
  | .parameterName | .spread | .semicolon => close pending
  | .operator | .escapedAsterisk => [⟨s, operator (0 < depth)⟩]
  | _ => []

/-- The assembly of parameters that keeps their sites. -/
def assemble (before : List Token) (depth : Int) (afterColon : Bool) (pending : Option Started) :
    List Token → List Started
  | [] => close pending
  | t :: rest =>
    emitted depth pending ⟨before, t, rest⟩ ++
      assemble (before ++ [t]) (nextDepth depth t) (t.kind == .colon)
        (next depth afterColon pending ⟨before, t, rest⟩) rest

def ofTokens (ts : List Token) : List Started :=
  assemble [] 0 false none ts

theorem map_parameter_close (pending : Option Started) :
    (close pending).map parameter = Parameter.close (pending.map parameter) := by
  cases pending with
  | none => rfl
  | some a =>
      by_cases ha : isPlaceholder a.parameter.name = true
      · simp [close, Parameter.close, Option.filter, ha]
      · simp [close, Parameter.close, Option.filter, ha]

theorem map_parameter_next (depth : Int) (afterColon : Bool) (pending : Option Started) (s : Site) :
    (next depth afterColon pending s).map parameter =
      nextPending depth afterColon (pending.map parameter) s.token := by
  unfold next nextPending
  cases s.token.kind with
  | typeName =>
      cases afterColon with
      | false => rfl
      | true => cases pending <;> rfl
  | _ => rfl

theorem map_parameter_emitted (depth : Int) (pending : Option Started) (s : Site) :
    (emitted depth pending s).map parameter = Parameter.emitted depth (pending.map parameter) s.token := by
  unfold emitted Parameter.emitted
  cases s.token.kind with
  | parameterName => exact map_parameter_close pending
  | spread => exact map_parameter_close pending
  | semicolon => exact map_parameter_close pending
  | _ => rfl

theorem map_parameter_assemble (before : List Token) (depth : Int) (afterColon : Bool)
    (pending : Option Started) (ts : List Token) :
    (assemble before depth afterColon pending ts).map parameter =
      Parameter.assemble depth afterColon (pending.map parameter) ts := by
  induction ts generalizing before depth afterColon pending with
  | nil => exact map_parameter_close pending
  | cons t rest ih =>
      rw [assemble, List.map_append, ih, map_parameter_emitted, map_parameter_next, assemble_cons]

theorem map_parameter_ofTokens (ts : List Token) :
    (ofTokens ts).map parameter = Parameter.ofTokens ts :=
  map_parameter_assemble [] 0 false none ts

/-- What is known of a parameter that has begun in `all`, with `ts` still to come. -/
structure Awaits (all : List Token) (afterColon : Bool) (ts : List Token) (a : Started) : Prop where
  tokens : a.site.tokens = all
  starts : a.site.token.startsParameter = true
  parameter : { a.parameter with type := lastType afterColon a.parameter.type ts } = ofSite a.site

/-- What is known at each point of an assembly of `all`. -/
structure Reached (all before : List Token) (depth : Int) (afterColon : Bool) (pending : Option Started)
    (ts : List Token) : Prop where
  tokens : before ++ ts = all
  depth : depth = depthOf before
  pending : ∀ a, pending = some a → Awaits all afterColon ts a

structure Declared (all : List Token) (a : Started) : Prop where
  tokens : a.site.tokens = all
  kind : a.site.token.startsParameter = true ∧ isPlaceholder a.parameter.name = false ∨
    a.site.token.kind = .operator ∨ a.site.token.kind = .escapedAsterisk
  parameter : a.parameter = ofSite a.site

theorem mem_close_iff {pending : Option Started} {a : Started} :
    a ∈ close pending ↔ pending = some a ∧ isPlaceholder a.parameter.name = false := by
  simp [close, Option.mem_toList, Option.filter_eq_some_iff]

/-- A token ends the parameter that has begun, or it is an operator. -/
theorem mem_emitted_cases {depth : Int} {pending : Option Started} {s : Site} {a : Started}
    (h : a ∈ emitted depth pending s) :
    endsExtent s.token = true ∧ a ∈ close pending ∨
      (s.token.kind = .operator ∨ s.token.kind = .escapedAsterisk) ∧ s.token.startsParameter = false ∧
        a = ⟨s, operator (0 < depth)⟩ := by
  unfold emitted at h
  cases hk : s.token.kind with
  | parameterName => exact .inl ⟨by simp [endsExtent, Token.startsParameter, hk], by simpa [hk] using h⟩
  | spread => exact .inl ⟨by simp [endsExtent, Token.startsParameter, hk], by simpa [hk] using h⟩
  | semicolon => exact .inl ⟨by simp [endsExtent, hk], by simpa [hk] using h⟩
  | operator => exact .inr ⟨.inl rfl, by simp [Token.startsParameter, hk], by simpa [hk] using h⟩
  | escapedAsterisk => exact .inr ⟨.inr rfl, by simp [Token.startsParameter, hk], by simpa [hk] using h⟩
  | _ => simp [hk] at h

/-- A parameter that has begun behind a token begins with it, gets its type from it, or was there before it. -/
theorem next_cases {depth : Int} {afterColon : Bool} {pending : Option Started} {s : Site} {a : Started}
    (h : next depth afterColon pending s = some a) :
    s.token.startsParameter = true ∧ a = ⟨s, begun depth s.token⟩ ∨
      afterColon = true ∧ s.token.kind = .typeName ∧
        (∃ b, pending = some b ∧ a = { b with parameter := { b.parameter with type := s.token.value } }) ∨
      endsExtent s.token = false ∧ (afterColon = true → s.token.kind ≠ .typeName) ∧ pending = some a := by
  unfold next at h
  cases hk : s.token.kind with
  | parameterName => exact .inl ⟨by simp [Token.startsParameter, hk], by simpa [hk, eq_comm] using h⟩
  | spread => exact .inl ⟨by simp [Token.startsParameter, hk], by simpa [hk, eq_comm] using h⟩
  | typeName =>
      cases afterColon with
      | true =>
          obtain ⟨b, hb, rfl⟩ := Option.map_eq_some_iff.mp (by simpa [hk] using h)
          exact .inr (.inl ⟨rfl, rfl, b, hb, rfl⟩)
      | false => exact .inr (.inr ⟨endsExtent_of_typeName hk, by simp, by simpa [hk] using h⟩)
  | semicolon => simp [hk] at h
  | _ => exact .inr (.inr ⟨by simp [endsExtent, Token.startsParameter, hk], by simp, by simpa [hk] using h⟩)

section Step

variable {all before : List Token} {depth : Int} {afterColon : Bool} {pending : Option Started} {t : Token}
  {rest : List Token}

theorem awaits_begun (h : Reached all before depth afterColon pending (t :: rest))
    (ht : t.startsParameter = true) :
    Awaits all (t.kind == .colon) rest ⟨⟨before, t, rest⟩, begun depth t⟩ where
  tokens := h.tokens
  starts := ht
  parameter := by
    have hcolon : (t.kind == .colon) = false := by
      rcases Token.startsParameter_iff.mp ht with hk | hk <;> rw [hk] <;> rfl
    rw [hcolon, ofSite, if_pos ht, ← h.depth]
    rfl

theorem Awaits.typed {a : Started} (h : Awaits all true (t :: rest) a) (ht : t.kind = .typeName) :
    Awaits all (t.kind == .colon) rest { a with parameter := { a.parameter with type := t.value } } where
  tokens := h.tokens
  starts := h.starts
  parameter := by
    rw [← h.parameter, lastType_of_typeName ht, ht]
    rfl

theorem Awaits.step {a : Started} (h : Awaits all afterColon (t :: rest) a) (hends : endsExtent t = false)
    (ht : afterColon = true → t.kind ≠ .typeName) : Awaits all (t.kind == .colon) rest a where
  tokens := h.tokens
  starts := h.starts
  parameter := by
    rw [← h.parameter, lastType_cons hends ht]

theorem Awaits.declared_of_endsExtent {a : Started} (h : Awaits all afterColon (t :: rest) a)
    (hname : isPlaceholder a.parameter.name = false) (hends : endsExtent t = true) : Declared all a where
  tokens := h.tokens
  kind := .inl ⟨h.starts, hname⟩
  parameter := by
    rw [← h.parameter, lastType_of_endsExtent hends]

theorem Awaits.declared_of_nil {a : Started} (h : Awaits all afterColon [] a)
    (hname : isPlaceholder a.parameter.name = false) : Declared all a where
  tokens := h.tokens
  kind := .inl ⟨h.starts, hname⟩
  parameter := h.parameter

theorem awaits_next (h : Reached all before depth afterColon pending (t :: rest)) :
    ∀ a, next depth afterColon pending ⟨before, t, rest⟩ = some a →
      Awaits all (t.kind == .colon) rest a := by
  intro a ha
  rcases next_cases ha with ⟨hstart, rfl⟩ | ⟨rfl, hk, b, hb, rfl⟩ | ⟨hends, ht, hpending⟩
  · exact awaits_begun h hstart
  · exact (h.pending b hb).typed hk
  · exact (h.pending a hpending).step hends ht

theorem Reached.next (h : Reached all before depth afterColon pending (t :: rest)) :
    Reached all (before ++ [t]) (nextDepth depth t) (t.kind == .colon)
      (next depth afterColon pending ⟨before, t, rest⟩) rest where
  tokens := by
    rw [List.append_assoc]
    exact h.tokens
  depth := by rw [depthOf_concat, ← h.depth]
  pending := awaits_next h

theorem Reached.declared_of_mem_emitted (h : Reached all before depth afterColon pending (t :: rest)) :
    ∀ a ∈ emitted depth pending ⟨before, t, rest⟩, Declared all a := by
  intro a ha
  rcases mem_emitted_cases ha with ⟨hends, hclose⟩ | ⟨hk, hstart, rfl⟩
  · obtain ⟨hpending, hname⟩ := mem_close_iff.mp hclose
    exact (h.pending a hpending).declared_of_endsExtent hname hends
  · refine ⟨h.tokens, .inr hk, ?_⟩
    rw [ofSite, if_neg (by simp [hstart]), ← h.depth]

theorem Reached.declared_of_mem_close (h : Reached all before depth afterColon pending []) :
    ∀ a ∈ close pending, Declared all a := by
  intro a ha
  obtain ⟨hpending, hname⟩ := mem_close_iff.mp ha
  exact (h.pending a hpending).declared_of_nil hname

end Step

theorem declared_of_mem_assemble {all before : List Token} {depth : Int} {afterColon : Bool}
    {pending : Option Started} {ts : List Token} (h : Reached all before depth afterColon pending ts) :
    ∀ a ∈ assemble before depth afterColon pending ts, Declared all a := by
  induction ts generalizing before depth afterColon pending with
  | nil => exact h.declared_of_mem_close
  | cons t rest ih =>
      intro a ha
      rcases List.mem_append.mp ha with hemitted | hrest
      · exact h.declared_of_mem_emitted a hemitted
      · exact ih h.next a hrest

/-- Every parameter of a list of tokens is the one that its site declares. -/
theorem declared_of_mem_ofTokens {ts : List Token} {a : Started} (h : a ∈ ofTokens ts) : Declared ts a := by
  refine declared_of_mem_assemble ⟨rfl, rfl, ?_⟩ a h
  intro b hb
  cases hb

theorem exists_mem_assemble_of_pending {a : Started} (hname : isPlaceholder a.parameter.name = false)
    (before : List Token) (depth : Int) (afterColon : Bool) (ts : List Token) :
    ∃ b ∈ assemble before depth afterColon (some a) ts, b.site = a.site := by
  induction ts generalizing before depth afterColon a with
  | nil => exact ⟨a, mem_close_iff.mpr ⟨rfl, hname⟩, rfl⟩
  | cons t rest ih =>
      have hclose : close (some a) = emitted depth (some a) ⟨before, t, rest⟩ →
          ∃ b ∈ assemble before depth afterColon (some a) (t :: rest), b.site = a.site := by
        intro hemitted
        refine ⟨a, ?_, rfl⟩
        rw [assemble, ← hemitted]
        exact List.mem_append_left _ (mem_close_iff.mpr ⟨rfl, hname⟩)
      have hkeep : ∀ b : Started, b.site = a.site → isPlaceholder b.parameter.name = false →
          next depth afterColon (some a) ⟨before, t, rest⟩ = some b →
          ∃ c ∈ assemble before depth afterColon (some a) (t :: rest), c.site = a.site := by
        intro b hsite hb hnext
        obtain ⟨c, hc, hcsite⟩ := ih hb (before ++ [t]) (nextDepth depth t) (t.kind == .colon)
        refine ⟨c, ?_, hcsite.trans hsite⟩
        rw [assemble, hnext]
        exact List.mem_append_right _ hc
      cases hk : t.kind with
      | parameterName => exact hclose (by simp [emitted, hk])
      | spread => exact hclose (by simp [emitted, hk])
      | semicolon => exact hclose (by simp [emitted, hk])
      | typeName =>
          cases afterColon with
          | true =>
            exact hkeep { a with parameter := { a.parameter with type := t.value } } rfl hname
              (by simp [next, hk])
          | false => exact hkeep a rfl hname (by simp [next, hk])
      | _ => exact hkeep a rfl hname (by simp [next, hk])

theorem exists_mem_assemble {t : Token} (ht : t.startsParameter = true)
    (hname : isPlaceholder t.parameterLabel = false) (before between after : List Token) (depth : Int)
    (afterColon : Bool) (pending : Option Started) :
    ∃ a ∈ assemble before depth afterColon pending (between ++ t :: after),
      a.site = ⟨before ++ between, t, after⟩ := by
  induction between generalizing before depth afterColon pending with
  | nil =>
      have hnext :
          next depth afterColon pending ⟨before, t, after⟩ =
            some ⟨⟨before, t, after⟩, begun depth t⟩ := by
        rcases Token.startsParameter_iff.mp ht with hk | hk <;> simp [next, hk]
      obtain ⟨a, ha, hsite⟩ :=
        exists_mem_assemble_of_pending (a := ⟨⟨before, t, after⟩, begun depth t⟩) hname
        (before ++ [t]) (nextDepth depth t) (t.kind == .colon) after
      refine ⟨a, ?_, ?_⟩
      · rw [List.nil_append, assemble, hnext]
        exact List.mem_append_right _ ha
      · rw [hsite, List.append_nil]
  | cons u between ih =>
      obtain ⟨a, ha, hsite⟩ := ih (before ++ [u]) (nextDepth depth u) (u.kind == .colon)
        (next depth afterColon pending ⟨before, u, between ++ t :: after⟩)
      refine ⟨a, ?_, ?_⟩
      · rw [List.cons_append, assemble]
        exact List.mem_append_right _ ha
      · rw [hsite, List.append_assoc]
        rfl

/-- A token that starts a parameter has one in the list, unless its label stands for none. -/
theorem exists_mem_ofTokens {s : Site} (hs : s.token.startsParameter = true)
    (hname : isPlaceholder s.token.parameterLabel = false) : ∃ a ∈ ofTokens s.tokens, a.site = s :=
  exists_mem_assemble hs hname [] s.before s.after 0 false none

end Started

end Parameter

end Synopsis
