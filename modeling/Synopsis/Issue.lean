import Synopsis.Text.Digit

/-!
# Issues

An issue is one defect of a declaration. Each kind of issue has a stable id and a level; an issue
carries what its message names. A number of braces may be one that has no text, and then there is no message.
-/

namespace Synopsis

/-- How grave an issue is: broken structure comes before a missing or unknown type. -/
inductive Level where
  | structural
  | typing
  deriving DecidableEq, Repr

namespace Level

def number : Level → Nat
  | .structural => 1
  | .typing => 2

def label : Level → Text
  | .structural => "structural".toList
  | .typing => "type".toList

def ofNumber? : Int → Option Level
  | 1 => some .structural
  | 2 => some .typing
  | _ => none

/-- A threshold admits its own level and every graver one. -/
def admits (threshold level : Level) : Bool :=
  level.number ≤ threshold.number

theorem ofNumber?_number (l : Level) : ofNumber? l.number = some l := by cases l <;> rfl

@[simp] theorem typing_admits (l : Level) : Level.typing.admits l = true := by cases l <;> rfl

end Level

inductive Issue.Kind where
  | missingClosingParenthesis
  | unclosedOptionalBlock
  | extraClosingBrace
  | doubleSemicolon
  | leadingSemicolon
  | unexpectedColon
  | doubleColon
  | semicolonAfterColon
  | braceAfterColon
  | nonIdentifierName
  | reservedName
  | emptyType
  | invalidType
  | untypedParameter
  deriving DecidableEq, Repr

inductive Issue where
  | missingClosingParenthesis
  | unclosedOptionalBlock (missing : Int)
  | extraClosingBrace
  | doubleSemicolon
  | leadingSemicolon
  | unexpectedColon
  | doubleColon
  | semicolonAfterColon
  | braceAfterColon
  | nonIdentifierName (name : Text)
  | reservedName (name : Text)
  | emptyType
  | invalidType (typeName : Text)
  | untypedParameter (name : Text)
  deriving DecidableEq, Repr

namespace Issue

namespace Kind

def all : List Kind :=
  [.missingClosingParenthesis, .unclosedOptionalBlock, .extraClosingBrace, .doubleSemicolon, .leadingSemicolon,
   .unexpectedColon, .doubleColon, .semicolonAfterColon, .braceAfterColon, .nonIdentifierName, .reservedName,
   .emptyType, .invalidType, .untypedParameter]

def id : Kind → Text
  | .missingClosingParenthesis => "MAL001".toList
  | .unclosedOptionalBlock => "MAL002".toList
  | .extraClosingBrace => "MAL003".toList
  | .doubleSemicolon => "MAL004".toList
  | .leadingSemicolon => "MAL005".toList
  | .unexpectedColon => "MAL006".toList
  | .doubleColon => "MAL007".toList
  | .semicolonAfterColon => "MAL008".toList
  | .braceAfterColon => "MAL009".toList
  | .nonIdentifierName => "MAL010".toList
  | .reservedName => "MAL011".toList
  | .emptyType => "MAL012".toList
  | .invalidType => "MAL013".toList
  | .untypedParameter => "PAR001".toList

def level : Kind → Level
  | .emptyType | .invalidType | .untypedParameter => .typing
  | _ => .structural

def ofId? (code : Text) : Option Kind :=
  all.find? fun k => k.id == code

theorem ofId?_id (k : Kind) : ofId? k.id = some k := by cases k <;> decide

end Kind

def kind : Issue → Kind
  | .missingClosingParenthesis => .missingClosingParenthesis
  | .unclosedOptionalBlock _ => .unclosedOptionalBlock
  | .extraClosingBrace => .extraClosingBrace
  | .doubleSemicolon => .doubleSemicolon
  | .leadingSemicolon => .leadingSemicolon
  | .unexpectedColon => .unexpectedColon
  | .doubleColon => .doubleColon
  | .semicolonAfterColon => .semicolonAfterColon
  | .braceAfterColon => .braceAfterColon
  | .nonIdentifierName _ => .nonIdentifierName
  | .reservedName _ => .reservedName
  | .emptyType => .emptyType
  | .invalidType _ => .invalidType
  | .untypedParameter _ => .untypedParameter

def level (i : Issue) : Level :=
  i.kind.level

/-- The words of an issue, the number among them in as many digits as it has. -/
def wording : Issue → Text
  | .missingClosingParenthesis => "Missing closing parenthesis".toList
  | .unclosedOptionalBlock missing =>
    "Unclosed optional block (missing ".toList ++ Text.ofInt missing ++ " closing ".toList
      ++ (if missing = 1 then "brace".toList else "braces".toList) ++ ")".toList
  | .extraClosingBrace => "Extra closing brace".toList
  | .doubleSemicolon => "Empty parameter found (double semicolon)".toList
  | .leadingSemicolon => "Empty parameter found (semicolon at start)".toList
  | .unexpectedColon => "Unexpected colon (missing parameter name)".toList
  | .doubleColon => "Double colon".toList
  | .semicolonAfterColon => "Unexpected semicolon after colon (empty type)".toList
  | .braceAfterColon => "Unexpected closing brace after colon (empty type)".toList
  | .nonIdentifierName name => "Parameter name '".toList ++ name ++ "' is not a valid identifier".toList
  | .reservedName name => "Parameter name '".toList ++ name ++ "' is a reserved word".toList
  | .emptyType => "Empty type after colon".toList
  | .invalidType typeName => "Invalid type format '".toList ++ typeName ++ "'".toList
  | .untypedParameter name => "Parameter '".toList ++ name ++ "' has no type".toList

/-- Whether the number that an issue names, if any, can be written. -/
def isWritable : Issue → Bool
  | .unclosedOptionalBlock missing => Text.fits missing
  | _ => true

def message? (i : Issue) : Option Text :=
  if i.isWritable then some i.wording else none

/-- The issues that a threshold admits. -/
def upTo (threshold : Level) (issues : List Issue) : List Issue :=
  issues.filter fun i => threshold.admits i.level

@[simp] theorem upTo_typing (issues : List Issue) : upTo .typing issues = issues := by simp [upTo]

end Issue

end Synopsis
