import Synopsis.Agreement
import Synopsis.Documented
import Synopsis.Variant

/-!
# Comparison with the documentation

A variant is compared with the table of its command: parameters that the table does not know, types of
parameters that disagree with an input row, and a return type that disagrees with the output row.
-/

namespace Synopsis

structure Mismatch where
  name : Text
  declared : Text
  documented : Text
  deriving DecidableEq, Repr

structure Comparison where
  extra : List Text
  types : List Mismatch
  returns : List Mismatch
  deriving DecidableEq, Repr

namespace Comparison

def resultNames : List Text :=
  ["result", "function result"].map String.toList

def defaultResult : Text := "Function result".toList

def missingType : Text := "missing".toList

/-- The names that the table documents, without those of the result. -/
def documentedNames (rows : List Row) : List Text :=
  (rows.filter fun r => r.isKnown && !resultNames.contains r.folded).map Row.folded

def isBlankType (r : Row) : Bool :=
  (Text.trim r.type).isEmpty

def inputRow? (name : Text) (rows : List Row) : Option Row :=
  rows.find? fun r => r.folded == Text.lowercase name && r.direction.isInput

/-- The names under which the output row of a variant may stand. -/
def outputNames (returnName : Option Text) : List Text :=
  resultNames ++ ((ReturnType.nonempty returnName).map Text.lowercase).toList

def outputRow? (returnName : Option Text) (rows : List Row) : Option Row :=
  rows.find? fun r => r.direction == .output && (outputNames returnName).contains r.folded

/-- Spreads, operators and parameters without a type are not compared. -/
def isCompared (p : Parameter) : Bool :=
  !(p.name == ['*'] || p.spread || p.type == Parameter.unknownType)

def typeMismatch? (rows : List Row) (p : Parameter) : Option Mismatch :=
  match inputRow? p.name rows with
  | some r => if isBlankType r || Agreement.withText p.type r.type then none else some ⟨p.name, p.type, r.type⟩
  | none => none

def typeMismatches (rows : List Row) (v : Variant) : List Mismatch :=
  (v.parameters.filter isCompared).filterMap (typeMismatch? rows)

def returnMismatches (rows : List Row) (v : Variant) : List Mismatch :=
  match v.returnType with
  | some ⟨name, some type⟩ =>
    let shown := (ReturnType.nonempty name).getD defaultResult
    match outputRow? name rows with
    | none => [⟨shown, type, missingType⟩]
    | some r => if isBlankType r || Agreement.withText type r.type then [] else [⟨shown, type, r.type⟩]
  | _ => []

def extraNames (known : List Text) (v : Variant) : List Text :=
  ((v.parameters.filter fun p => !p.spread).map fun p => Text.lowercase p.name).filter
    fun name => !known.contains name && name != ['*']

def ofVariant (rows : List Row) (known : List Text) (v : Variant) : Comparison :=
  ⟨extraNames known v, typeMismatches rows v, returnMismatches rows v⟩

def hasErrors (c : Comparison) : Bool :=
  !(c.extra.isEmpty && c.types.isEmpty && c.returns.isEmpty)

end Comparison

end Synopsis
