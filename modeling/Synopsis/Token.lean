import Synopsis.Text.Basic

/-!
# Tokens of a parameter list

A token is a punctuation mark, an operator, or a run of word characters. What a run means depends on
what stands before it: a run directly after a colon is a type, one that begins with three dots is a
spread, every other run is the name of a parameter.
-/

namespace Synopsis

inductive Token.Kind where
  | parameterName
  | typeName
  | spread
  | colon
  | semicolon
  | openBrace
  | closeBrace
  | openParen
  | closeParen
  | less
  | greater
  | arrow
  | operator
  | escapedAsterisk
  deriving DecidableEq, Repr

/-- A token with the number of characters before it. -/
structure Token where
  kind : Token.Kind
  value : Text
  offset : Nat
  deriving DecidableEq, Repr

namespace Token

def ellipsis : Text := ['.', '.', '.']

def isWordChar (c : Char) : Bool :=
  c.isAlphanum || "_-$./[]<>".toList.contains c || 127 < c.toNat

def isGap (c : Char) : Bool :=
  c == ' ' || c == '\t' || c == '\r' || c == '\n'

def Kind.ofPunctuation? : Char → Option Kind
  | ':' => some .colon
  | ';' => some .semicolon
  | '{' => some .openBrace
  | '}' => some .closeBrace
  | '(' => some .openParen
  | ')' => some .closeParen
  | '*' => some .operator
  | '<' => some .less
  | '>' => some .greater
  | _ => none

/-- The kind of a run of word characters, from the kind of the token before it and the text that it begins. -/
def Kind.ofRun (previous : Option Kind) (t : Text) : Kind :=
  if Text.startsWith ellipsis t then .spread
  else if previous = some .colon then .typeName
  else .parameterName

/-- A type goes on over commas, so that several types make one token. -/
def Kind.admits : Kind → Char → Bool
  | .typeName, c => isWordChar c || c == ','
  | _, c => isWordChar c

def startsParameter (t : Token) : Bool :=
  t.kind == .parameterName || t.kind == .spread

/-- The name that a parameter gets from the token that starts it. -/
def parameterLabel (t : Token) : Text :=
  if t.kind = .spread then Text.dropLead ellipsis t.value else t.value

theorem admits_of_isWordChar {k : Kind} {c : Char} (h : isWordChar c = true) : k.admits c = true := by
  cases k <;> simp [Kind.admits, h]

end Token

end Synopsis
