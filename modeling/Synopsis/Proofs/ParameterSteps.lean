import Synopsis.Parameter

/-!
# Steps of assembling parameters

One token moves the depth, gives or ends the parameter that has begun, and puts at most one parameter
into the list. What every token keeps, the whole assembly keeps.
-/

namespace Synopsis

namespace Parameter

def nextDepth (depth : Int) (t : Token) : Int :=
  match t.kind with
  | .openBrace => depth + 1
  | .closeBrace => depth - 1
  | _ => depth

/-- The parameter that a token begins, at a depth. -/
def begun (depth : Int) (t : Token) : Parameter :=
  ⟨t.parameterLabel, unknownType, 0 < depth, t.kind == .spread⟩

def nextPending (depth : Int) (afterColon : Bool) (pending : Option Parameter) (t : Token) : Option Parameter :=
  match t.kind with
  | .parameterName | .spread => some (begun depth t)
  | .typeName => if afterColon then pending.map fun p => { p with type := t.value } else pending
  | .semicolon => none
  | _ => pending

def emitted (depth : Int) (pending : Option Parameter) (t : Token) : List Parameter :=
  match t.kind with
  | .parameterName | .spread | .semicolon => close pending
  | .operator | .escapedAsterisk => [operator (0 < depth)]
  | _ => []

theorem assemble_nil (depth : Int) (afterColon : Bool) (pending : Option Parameter) :
    assemble depth afterColon pending [] = close pending := rfl

theorem assemble_cons (depth : Int) (afterColon : Bool) (pending : Option Parameter) (t : Token)
    (rest : List Token) :
    assemble depth afterColon pending (t :: rest) =
      emitted depth pending t ++
        assemble (nextDepth depth t) (t.kind == .colon) (nextPending depth afterColon pending t) rest := by
  rw [assemble]
  unfold emitted nextDepth nextPending begun
  cases t.kind <;> rfl

theorem mem_close_iff {pending : Option Parameter} {p : Parameter} :
    p ∈ close pending ↔ pending = some p ∧ isPlaceholder p.name = false := by
  simp [close, Option.mem_toList, Option.filter_eq_some_iff]

theorem trim_ne_nil_of_not_isPlaceholder {name : Text} (h : isPlaceholder name = false) :
    Text.trim name ≠ [] := by
  intro hname
  rw [isPlaceholder, hname] at h
  exact absurd h (by decide)

/-- An assembly holds operators and what an invariant of the parameter that has begun lets through at
its end. -/
theorem forall_mem_assemble {I : Option Parameter → Prop} {P : Parameter → Prop} {ts : List Token}
    (hnext : ∀ t ∈ ts, ∀ depth afterColon pending, I pending → I (nextPending depth afterColon pending t))
    (hclose : ∀ pending, I pending → ∀ p ∈ close pending, P p)
    (hoperator : ∀ optional, P (operator optional)) :
    ∀ depth afterColon pending, I pending → ∀ p ∈ assemble depth afterColon pending ts, P p := by
  induction ts with
  | nil =>
      intro depth afterColon pending hpending p hp
      rw [assemble_nil] at hp
      exact hclose pending hpending p hp
  | cons t ts ih =>
      intro depth afterColon pending hpending p hp
      rw [assemble_cons] at hp
      rcases List.mem_append.mp hp with hemitted | hrest
      · unfold emitted at hemitted
        split at hemitted
        · exact hclose pending hpending p hemitted
        · exact hclose pending hpending p hemitted
        · exact hclose pending hpending p hemitted
        · rw [List.mem_singleton.mp hemitted]
          exact hoperator _
        · rw [List.mem_singleton.mp hemitted]
          exact hoperator _
        · cases hemitted
      · exact ih (fun t' ht' => hnext t' (List.mem_cons_of_mem t ht')) _ _ _
          (hnext t List.mem_cons_self depth afterColon pending hpending) p hrest

end Parameter

end Synopsis
