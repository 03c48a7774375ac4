import Synopsis.Emphasis
import Synopsis.Enclosure
import Synopsis.Parameter
import Synopsis.Structure
import Synopsis.Token.Lexer

/-!
# Variants

The notation of a command lists its variants with `<br/>` between them. Each is read on its own: the
section in parentheses gives the parameters and the issues, the text after it the return type. A defect
is recorded with the variant, so reading cannot fail.
-/

namespace Synopsis

structure ReturnType where
  name : Option Text
  type : Option Text
  deriving DecidableEq, Repr

/-- A malformation of `some []` is kept apart from none, though reading never yields it. -/
structure Variant where
  sourceText : Text
  parameters : List Parameter
  returnType : Option ReturnType
  malformation : Option (List Issue)
  deriving DecidableEq, Repr

namespace ReturnType

def nonempty (t : Option Text) : Option Text :=
  t.filter fun t => !t.isEmpty

def ofParts (name type : Option Text) : Option ReturnType :=
  match nonempty name, nonempty type with
  | none, none => none
  | name, type => some ⟨name, type⟩

def trimmedValue (t : Token) : Text :=
  Text.trim t.value

/-- Reads `-> name : Type`, `-> name` and `: Type`, of which one token on each side of the colon counts. -/
def ofTokens : List Token → Option ReturnType
  | [] => none
  | t :: rest =>
    match t.kind with
    | .arrow =>
      ofParts ((rest.head?.filter fun t => t.kind != .colon).map trimmedValue)
        ((rest.dropWhile fun t => t.kind != .colon).tail.head?.map trimmedValue)
    | .colon => ofParts none (rest.head?.map trimmedValue)
    | _ => none

end ReturnType

namespace Variant

/-- The texts between the occurrences of `<br/>`. -/
def cut : Text → List Text
  | '<' :: 'b' :: 'r' :: '/' :: '>' :: rest => [] :: cut rest
  | c :: rest => Text.consFirst c (cut rest)
  | [] => [[]]

def tokens (t : Text) : List Token :=
  Token.ofText (Emphasis.strip t)

/-- The issues of a parameter list; none at all is told apart from an empty list. -/
def malformationOf (policy : Policy) (tokens : List Token) : Option (List Issue) :=
  match Structure.issues policy tokens ++ Parameter.untyped tokens with
  | [] => none
  | issues => some issues

def ofText (policy : Policy) (t : Text) : Variant :=
  match Enclosure.ofText t with
  | .property => ⟨t, [], none, none⟩
  | .unterminated => ⟨t, [], none, some [.missingClosingParenthesis]⟩
  | .enclosed _ inside tail =>
    let inner := tokens (Text.trim inside)
    ⟨t, Parameter.ofTokens inner, ReturnType.ofTokens (tokens tail), malformationOf policy inner⟩

/-- Reads the notation of a command; blank variants are left out. -/
def parse (policy : Policy) (t : Text) : List Variant :=
  (((cut t).map Text.trim).filter fun t => !t.isEmpty).map (ofText policy)

def parseParameters (t : Text) : List Parameter :=
  Parameter.ofTokens (tokens t)

def isMalformed (v : Variant) : Bool :=
  v.malformation.isSome

def issuesUpTo (threshold : Level) (v : Variant) : List Issue :=
  Issue.upTo threshold (v.malformation.getD [])

@[simp] theorem parse_nil (policy : Policy) : parse policy [] = [] := rfl

end Variant

end Synopsis
