import Synopsis.Issue
import Synopsis.Token

/-!
# Parameters

A parameter starts at a name or a spread and goes on to the next one, to a semicolon, or to the end.
Its type is the last one that a colon introduces on the way. It is optional when more braces are open
than closed before it. Asterisks are parameters of their own, at their place in the list.
-/

namespace Synopsis

structure Parameter where
  name : Text
  type : Text
  optional : Bool
  spread : Bool
  deriving DecidableEq, Repr

namespace Parameter

def unknownType : Text := "unknown".toList

def operatorType : Text := "operator".toList

def operator (optional : Bool) : Parameter :=
  ⟨['*'], operatorType, optional, false⟩

/-- Names that stand for no parameter: blank ones, and marks of the notation. -/
def isPlaceholder (name : Text) : Bool :=
  [[], ['{'], ['}'], [';']].contains (Text.trim name)

def close (pending : Option Parameter) : List Parameter :=
  (pending.filter fun p => !isPlaceholder p.name).toList

/-- The parameters of a list of tokens, of which one may have begun: `depth` braces are open, and a colon stands
before the tokens or not. -/
def assemble (depth : Int) (afterColon : Bool) (pending : Option Parameter) : List Token → List Parameter
  | [] => close pending
  | t :: rest =>
    let onward := t.kind == .colon
    match t.kind with
    | .openBrace => assemble (depth + 1) onward pending rest
    | .closeBrace => assemble (depth - 1) onward pending rest
    | .parameterName | .spread =>
      close pending
        ++ assemble depth onward (some ⟨t.parameterLabel, unknownType, 0 < depth, t.kind == .spread⟩) rest
    | .typeName =>
      assemble depth onward
        (if afterColon then pending.map fun p => { p with type := t.value } else pending) rest
    | .semicolon => close pending ++ assemble depth onward none rest
    | .operator | .escapedAsterisk => operator (0 < depth) :: assemble depth onward pending rest
    | _ => assemble depth onward pending rest

def ofTokens (tokens : List Token) : List Parameter :=
  assemble 0 false none tokens

/-- After a name, each of these leaves the parameter without a type. -/
def endsUntyped : Option Token → Bool
  | none => true
  | some t => t.kind == .semicolon || t.kind == .openBrace || t.kind == .closeBrace

def untyped : List Token → List Issue
  | [] => []
  | t :: rest =>
    if t.startsParameter && !(Text.trim t.parameterLabel).isEmpty && endsUntyped rest.head? then
      .untypedParameter t.parameterLabel :: untyped rest
    else untyped rest

@[simp] theorem ofTokens_nil : ofTokens [] = [] := rfl

@[simp] theorem untyped_nil : untyped [] = [] := rfl

end Parameter

end Synopsis
