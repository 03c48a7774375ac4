import Synopsis.Yaml.Datum
import Synopsis.Yaml.Token.Lexer

/-!
# Reading YAML

A file is read to a value, or there is a reason why not. Data that stand inside others in several places are
put together once. A collection that stands inside itself is followed through the outer levels of the file;
further inside, a mark stands for it where it comes up again.
-/

namespace Synopsis

namespace Yaml

def isAdmitted (c : Char) : Bool :=
  let n := c.toNat
  n == 0x09 || n == 0x0A || n == 0x0D || (0x20 ≤ n && n ≤ 0x7E) || n == 0x85 || (0xA0 ≤ n && n ≤ 0xD7FF)
    || (0xE000 ≤ n && n ≤ 0xFFFD) || (0x10000 ≤ n && n ≤ 0x10FFFF)

/-- How many levels are followed: the rows of a catalogue stand on the fifth, and their cells below them. -/
def outerLevels : Nat := 5

namespace Datum

def assemble {m : Type → Type} [Monad m] (part : Nat → m Value) : Datum → m Value
  | .scalar v => pure v
  | .list items => .list <$> items.mapM part
  | .set items => .set <$> items.mapM part
  | .pair first second => .pair <$> part first <*> part second
  | .object entries => .object <$> entries.mapM fun e => return (← part e.1, ← part e.2)

def againOf : Datum → Value
  | .pair .. => .again .pair
  | .object _ => .again .object
  | _ => .again .list

end Datum

abbrev Known := Array (Option Value)

namespace Known

def get? (known : Known) (id : Nat) : Option Value :=
  known.getD id none

def size (known : Known) : Nat :=
  known.countP Option.isSome

def extend (data : Array Datum) (id : Nat) (known : Known) : Known :=
  if (known.get? id).isSome then known
  else known.setIfInBounds id ((data.getD id (.list [])).assemble known.get?)

/-- Goes over the data from the last to the first, as parts mostly come after what they are part of, until
no more values are found. -/
def close (data : Array Datum) : (fuel : Nat) → Known → Known
  | 0, known => known
  | fuel + 1, known =>
    let more := (List.range data.size).foldr (extend data) known
    if more.size = known.size then known else close data fuel more

/-- The values of all data that do not lead to themselves. -/
def ofData (data : Array Datum) : Known :=
  close data data.size (Array.replicate data.size none)

def value (known : Known) (data : Array Datum) : (fuel outer : Nat) → (path : List Nat) → (id : Nat) → Value
  | 0, _, _, _ => .null
  | fuel + 1, outer, path, id =>
    match known.get? id with
    | some v => v
    | none =>
      let d := data.getD id (.list [])
      if path.contains id then d.againOf
      else
        let inside := if outer = 0 then id :: path else []
        Id.run (d.assemble fun part => value known data fuel (outer - 1) inside part)

end Known

/-- The value of the data that begin at one place; no path is longer than they are many. -/
def valueOf (data : Array Datum) (root : Nat) : Value :=
  (Known.ofData data).value data (outerLevels + data.size + 1) outerLevels [] root

def read (t : Text) : Except Defect Value := do
  if !t.all isAdmitted then throw .malformed
  let (tokens, stop) := tokens t
  match ← Graph.ofTokens tokens stop with
  | none => return .null
  | some g => return valueOf (← g.data) g.root

end Yaml

end Synopsis
