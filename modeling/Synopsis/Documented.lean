import Synopsis.Reading
import Synopsis.Text.Lowercase

/-!
# Documented commands

A command is documented by its notation and by a table with a row for each parameter. A row names the
parameter, its type and its direction; the direction is written as a mark.
-/

namespace Synopsis

inductive Direction where
  | input
  | inputOutput
  | output
  | unknown
  deriving DecidableEq, Repr

namespace Direction

def ofMark (mark : Text) : Direction :=
  let m := Text.trim mark
  if m = "->".toList ∨ m = "&#8594;".toList then .input
  else if m = "<->".toList ∨ m = "&#8596;".toList then .inputOutput
  else if m = "<-".toList ∨ m = "&#8592;".toList then .output
  else .unknown

def isInput : Direction → Bool
  | .input | .inputOutput => true
  | _ => false

end Direction

/-- A row of the table, with the mark of its direction as it is written. -/
structure Row where
  name : Text
  type : Text
  mark : Text
  description : Text
  deriving DecidableEq, Repr

namespace Row

def direction (r : Row) : Direction :=
  Direction.ofMark r.mark

def isKnown (r : Row) : Bool :=
  r.direction != .unknown

def folded (r : Row) : Text :=
  Text.lowercase r.name

def dump (r : Row) : Value :=
  .record [("name", .text r.name), ("type", .text r.type), ("direction", .text r.mark),
    ("description", .text r.description)]

def isNull : Value → Bool
  | .null => true
  | _ => false

def cell : Option Value → Text
  | some v => (v.cellText?).getD []
  | none => []

/-- Cells in order, of which the first must be there and the rest may be missing; more are ignored. All that
count must have a text. -/
def ofCells (cells : List Value) : Reading Row :=
  if (cells.take 4).any fun v => v.cellText?.isNone then Reading.fault .unwritable
  else match cells with
    | [] => Reading.under (.name "name".toList) (Reading.fault .missing)
    | name :: rest => .ok ⟨cell (some name), cell rest[0]?, cell rest[1]?, cell rest[2]?⟩

/-- Reads a row from its cells, or from a record in which null counts as absent. -/
def read : Value → Reading Row
  | .list cells => ofCells cells
  | .pair first second => ofCells [first, second]
  | .object entries =>
    let entries := entries.filter fun e => !isNull e.2
    mk <$> Reading.required entries "name" Reading.text <*> Reading.defaulted entries "type" [] Reading.text
      <*> Reading.defaulted entries "direction" [] Reading.text
      <*> Reading.defaulted entries "description" [] Reading.text
  | _ => Reading.fault .notRecord

theorem read_dump (r : Row) : read r.dump = .ok r := by
  simp [read, dump, Value.record, isNull, Reading.required, Reading.defaulted, Value.field?_cons, Reading.text]

end Row

/-- A command without notation has none to check, and one without a table nothing to compare with. -/
structure Command where
  notationText : Option Text
  rows : List Row
  deriving DecidableEq, Repr

namespace Command

def readRows : Value → Reading (List Row)
  | .null => .ok []
  | v => Reading.list Row.read v

def read : Value → Reading Command :=
  Reading.record fun entries =>
    mk <$> Reading.aliased entries "Syntax" "syntax" none (Reading.nullable Reading.text)
      <*> Reading.aliased entries "Params" "params" [] readRows

end Command

/-- Commands by category; both keep the order in which they were given. -/
abbrev Catalogue := List (Text × List (Text × Command))

namespace Catalogue

def read : Value → Reading Catalogue :=
  Reading.mapping (Reading.mapping Command.read)

end Catalogue

end Synopsis
