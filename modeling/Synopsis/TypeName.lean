import Synopsis.Text.Lowercase

/-!
# Type names

A type is written as one or more names with commas between them. A name is one of the built-in types,
in any case, or a class: `4D` or `cs` and one or two identifiers, with dots between them.
-/

namespace Synopsis

namespace TypeName

def builtin : List Text :=
  ["text", "real", "any", "integer", "collection", "date", "time", "boolean", "picture", "blob", "variant",
   "pointer", "text array", "real array", "integer array", "date array", "time array", "boolean array",
   "picture array", "blob array", "pointer array", "object array", "object", "number", "null", "undefined",
   "expression", "field", "table"].map String.toList

def startsIdentifier (c : Char) : Bool :=
  c.isAlpha || c == '_' || c == '$'

def continuesIdentifier (c : Char) : Bool :=
  c.isAlphanum || c == '_' || c == '$'

def isIdentifier : Text → Bool
  | [] => false
  | c :: rest => startsIdentifier c && rest.all continuesIdentifier

def isClass (t : Text) : Bool :=
  match Text.cutAt '.' t with
  | [store, name] => isStore store && isIdentifier name
  | [store, space, name] => isStore store && isIdentifier space && isIdentifier name
  | _ => false
where
  isStore (t : Text) : Bool := t == "4D".toList || t == "cs".toList

def isKnown (name : Text) : Bool :=
  builtin.contains (Text.lowercase name) || isClass name

def isWellFormed (t : Text) : Bool :=
  (Text.cutAt ',' t).all fun name => isKnown (Text.trim name)

/-- The names in a list with commas, without regard to case and to the blanks around them. -/
def names (t : Text) : List Text :=
  (Text.cutAt ',' t).map Text.folded

end TypeName

end Synopsis
