import Synopsis.Value

/-!
# The members of a set

A set keeps its members in a table. A number goes to the slot that its key names, or if that is taken to a free
one on a fixed way through the table, and the members are listed by their slots. What is no number has no key; a
set that holds such members lists all of them as they came.
-/

namespace Synopsis

namespace Yaml

namespace Members

/-- Keys are remainders by this prime. -/
def modulus : Nat := Nat.pow 2 61 - 1

/-- A key with the sign of its number; minus one is not used. -/
def key (negative : Bool) (n : Nat) : Int :=
  let k : Int := if negative then -(n % modulus : Nat) else (n % modulus : Nat)
  if k = -1 then -2 else k

def infinityKey : Int := 314159

def keyOf? : Value → Option Int
  | .bool b => some (if b then 1 else 0)
  | .int n => some (key (decide (n < 0)) n.natAbs)
  | .float (.finite negative m e) => some (key negative (m * Nat.pow 2 (e % 61).toNat))
  | .float (.infinite negative) => some (if negative then -infinityKey else infinityKey)
  | _ => none

def sizeFor (count : Nat) : Nat :=
  if count ≤ 4 then 8 else Nat.pow 2 ((2 * count).log2 + 1)

abbrev Table (α : Type) := Array (Option α)

variable {α : Type}

def reach : Nat := 9

def firstFree? (table : Table α) (place : Nat) : Option Nat :=
  let tried := if place + reach < table.size then reach + 1 else 1
  ((List.range tried).map (place + ·)).find? fun i => (table.getD i none).isNone

/-- The slot for a member; the way leaves a place by what is left of the key, and in the end comes to all
places. -/
def slotFrom (table : Table α) : (fuel place rest : Nat) → Nat
  | 0, place, _ => place
  | fuel + 1, place, rest =>
    match firstFree? table place with
    | some i => i
    | none => slotFrom table fuel ((5 * place + 1 + rest / 32) % table.size) (rest / 32)

/-- Keys count in the 64 bits of their two's complement. -/
def insert (table : Table α) (member : Int × α) : Table α :=
  let bits := (member.1 % (Nat.pow 2 64 : Nat)).toNat
  table.setIfInBounds (slotFrom table (table.size + 64) (bits % table.size) bits) (some member.2)

def listed (keyOf : α → Option Int) (members : List α) : List α :=
  match members.mapM fun a => (keyOf a).map fun k => (k, a) with
  | none => members
  | some keyed => ((keyed.foldl insert (Array.replicate (sizeFor members.length) none)).toList).filterMap id

end Members

end Yaml

end Synopsis
