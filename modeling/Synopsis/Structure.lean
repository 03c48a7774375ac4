import Synopsis.Issue
import Synopsis.Token
import Synopsis.TypeName

/-!
# The structure of a parameter list

Checks of the tokens alone: braces pair up, no parameter is empty, every colon stands between a name
and a type, and every type is well formed. Two further checks of the names are switched on by a policy.
-/

namespace Synopsis

structure Policy where
  checkNames : Bool := false
  checkReserved : Bool := false
  deriving DecidableEq, Repr

namespace Structure

/-- An issue for each brace that closes nothing, then one for all those that are never closed. -/
def braces : (depth : Nat) → List Token → List Issue
  | 0, [] => []
  | depth + 1, [] => [.unclosedOptionalBlock (depth + 1 : Nat)]
  | depth, t :: rest =>
    match t.kind, depth with
    | .openBrace, depth => braces (depth + 1) rest
    | .closeBrace, 0 => .extraClosingBrace :: braces 0 rest
    | .closeBrace, depth + 1 => braces depth rest
    | _, depth => braces depth rest

def doubleSemicolons : List Token → List Issue
  | t :: rest =>
    (if t.kind = .semicolon ∧ rest.head?.map Token.kind = some .semicolon then [.doubleSemicolon] else [])
      ++ doubleSemicolons rest
  | [] => []

/-- Two semicolons in a row, and a semicolon at the start; the start comes after the first two. -/
def emptyParameters (tokens : List Token) : List Issue :=
  match tokens with
  | [] => []
  | t :: rest =>
    if t.kind = .semicolon then
      (if rest.head?.map Token.kind = some .semicolon then [.doubleSemicolon] else []) ++
        .leadingSemicolon :: doubleSemicolons rest
    else doubleSemicolons rest

def afterColon : Option Token.Kind → List Issue
  | some .colon => [.doubleColon]
  | some .semicolon => [.semicolonAfterColon]
  | some .closeBrace => [.braceAfterColon]
  | none => [.emptyType]
  | some _ => []

/-- Issues around each colon, from the kinds of the tokens on both sides of it. -/
def colons (previous : Option Token.Kind) : List Token → List Issue
  | [] => []
  | t :: rest =>
    (if t.kind = .colon then
      (if previous = some .parameterName ∨ previous = some .spread then [] else [.unexpectedColon])
        ++ afterColon (rest.head?.map Token.kind)
    else []) ++ colons (some t.kind) rest

def reservedWords : List Text :=
  ["break", "case", "catch", "class", "const", "continue", "debugger", "default", "delete", "do", "else",
   "enum", "export", "extends", "false", "finally", "for", "function", "if", "import", "in", "instanceof",
   "new", "null", "return", "super", "switch", "this", "throw", "true", "try", "typeof", "var", "void",
   "while", "with", "yield", "let", "static", "implements", "interface", "package", "private",
   "protected", "public", "await"].map String.toList

def nameIssues (policy : Policy) (name : Text) : List Issue :=
  (if policy.checkNames && !TypeName.isIdentifier name then [.nonIdentifierName name] else [])
    ++ (if policy.checkReserved && reservedWords.contains name then [.reservedName name] else [])

def names (policy : Policy) (tokens : List Token) : List Issue :=
  (tokens.filter Token.startsParameter).flatMap fun t => nameIssues policy t.parameterLabel

def types (tokens : List Token) : List Issue :=
  (tokens.filter fun t => t.kind == .typeName && !TypeName.isWellFormed t.value).map fun t =>
    .invalidType t.value

def issues (policy : Policy) (tokens : List Token) : List Issue :=
  braces 0 tokens ++ emptyParameters tokens ++ colons none tokens ++ names policy tokens ++ types tokens

@[simp] theorem names_off (tokens : List Token) : names {} tokens = [] := by
  simp [names, nameIssues]

end Structure

end Synopsis
