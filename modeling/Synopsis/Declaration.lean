import Synopsis.Variant

/-!
# Declarations

A declaration as a tree: parameters, and optional blocks that hold parameters and blocks again. It is
written in one variant of the notation, and says itself which parameters it has and what it returns.
-/

namespace Synopsis

inductive Item where
  | parameter (name type : Text) (spread emphasised : Bool)
  | block (items : List Item)
  deriving Repr

namespace Item

def labelText (name : Text) (spread : Bool) : Text :=
  (if spread then Token.ellipsis else []) ++ name

def emphasise (t : Text) : Text :=
  '*' :: t ++ ['*']

/-- A parameter is written behind a semicolon, unless it is the first one of the declaration. -/
def parameterText (first : Bool) (name type : Text) (spread emphasised : Bool) : Text :=
  (if first then [] else [';', ' '])
    ++ (if emphasised then emphasise (labelText name spread) else labelText name spread) ++ " : ".toList ++ type

mutual

def declaresParameter : Item → Bool
  | .parameter .. => true
  | .block items => anyDeclaresParameter items

def anyDeclaresParameter : List Item → Bool
  | [] => false
  | i :: rest => declaresParameter i || anyDeclaresParameter rest

end

mutual

def text (first : Bool) : Item → Text
  | .parameter name type spread emphasised => parameterText first name type spread emphasised
  | .block items => "\x7b ".toList ++ [' '].intercalate (texts first items) ++ " \x7d".toList

def texts (first : Bool) : List Item → List Text
  | [] => []
  | i :: rest => text first i :: texts (first && !declaresParameter i) rest

end

mutual

def parameters (optional : Bool) : Item → List Parameter
  | .parameter name type spread _ => [⟨name, type, optional, spread⟩]
  | .block items => allParameters true items

def allParameters (optional : Bool) : List Item → List Parameter
  | [] => []
  | i :: rest => parameters optional i ++ allParameters optional rest

end

end Item

structure Declaration where
  head : Text
  items : List Item
  returnType : Option ReturnType
  deriving Repr

namespace Declaration

def body (d : Declaration) : Text :=
  [' '].intercalate (Item.texts true d.items)

def tailText : Option ReturnType → Text
  | some ⟨some name, some type⟩ => "-> ".toList ++ name ++ " : ".toList ++ type
  | some ⟨some name, none⟩ => "-> ".toList ++ name
  | some ⟨none, some type⟩ => ": ".toList ++ type
  | _ => []

/-- The declaration in the notation of a variant. -/
def text (d : Declaration) : Text :=
  d.head ++ " ( ".toList ++ d.body ++ " ) ".toList ++ tailText d.returnType

def parameters (d : Declaration) : List Parameter :=
  Item.allParameters false d.items

/-- What reading the text of the declaration gives. -/
def variant (d : Declaration) : Variant :=
  ⟨Text.trim d.text, d.parameters, d.returnType, none⟩

end Declaration

end Synopsis
