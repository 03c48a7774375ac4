import Synopsis.Value

/-!
# Values written as JSON

One entry on each line, two spaces deeper than the line before it. Characters beyond ASCII are written
as they are or as escapes of their UTF-16 units.
-/

namespace Synopsis

namespace Value

/-- How characters that need no escape are written. -/
inductive JsonStyle where
  | raw
  | ascii
  deriving DecidableEq, Repr

namespace JsonStyle

def unitEscape (n : Nat) : Text :=
  '\\' :: 'u' :: Text.hexadecimal 4 n

/-- The escape of a character by its one or two UTF-16 units. -/
def unitEscapes (n : Nat) : Text :=
  if n < 0x10000 then unitEscape n
  else unitEscape (0xD800 + (n - 0x10000) / 0x400) ++ unitEscape (0xDC00 + (n - 0x10000) % 0x400)

def charText (s : JsonStyle) (c : Char) : Text :=
  if c = '"' || c = '\\' then ['\\', c]
  else if c = '\n' then ['\\', 'n']
  else if c = '\r' then ['\\', 'r']
  else if c = '\t' then ['\\', 't']
  else if c.toNat = 8 then ['\\', 'b']
  else if c.toNat = 12 then ['\\', 'f']
  else if c.toNat < 0x20 then unitEscape c.toNat
  else if s = .ascii && 0x7E < c.toNat then unitEscapes c.toNat
  else [c]

def stringText (s : JsonStyle) (t : Text) : Text :=
  '"' :: t.flatMap s.charText ++ ['"']

def newline (depth : Nat) : Text :=
  '\n' :: List.replicate (2 * depth) ' '

/-- Entries between brackets, each on its own line. -/
def block (opening closing : Char) (depth : Nat) (entries : List Text) : Text :=
  if entries.isEmpty then [opening, closing]
  else opening ::
    (newline (depth + 1) ++ (',' :: newline (depth + 1)).intercalate entries ++ newline depth ++ [closing])

end JsonStyle

def scalarJson : Value → Text
  | .null => "null".toList
  | .bool b => if b then "true".toList else "false".toList
  | .int n => Text.ofInt n
  | .float x => x.toText
  | .text t => t
  | _ => []

mutual

def jsonAt (s : JsonStyle) (depth : Nat) : Value → Text
  | .text t => s.stringText t
  | .list items => JsonStyle.block '[' ']' depth (jsonItems s depth items)
  | .object entries => JsonStyle.block '\x7b' '\x7d' depth (jsonEntries s depth entries)
  | v => scalarJson v

def jsonItems (s : JsonStyle) (depth : Nat) : List Value → List Text
  | [] => []
  | v :: rest => jsonAt s (depth + 1) v :: jsonItems s depth rest

def jsonEntries (s : JsonStyle) (depth : Nat) : List (Value × Value) → List Text
  | [] => []
  | (k, v) :: rest =>
    (s.stringText (scalarJson k) ++ ':' :: ' ' :: jsonAt s (depth + 1) v) :: jsonEntries s depth rest

end

def toJson (s : JsonStyle) (v : Value) : Text :=
  jsonAt s 0 v

end Value

end Synopsis
