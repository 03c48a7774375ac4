import Synopsis.Yaml.Scalar

/-!
# Writing YAML

An object of scalars and of lists of scalars, one entry or item on each line. A text is written plain where
it reads back as itself, else in single quotes, and in double quotes where it holds characters beyond
ASCII, controls, or spaces next to a line break. Lines are folded at spaces once they are long.
-/

namespace Synopsis

namespace Yaml

def bestWidth : Nat := 80

def indentText : Text := ['\n', ' ', ' ']

def indentColumn : Nat := 2

def isLineBreak (c : Char) : Bool :=
  c == '\n' || c == '\u0085' || c == '\u2028' || c == '\u2029'

def isBlankOrBreak (c : Char) : Bool :=
  c == '\x00' || c == ' ' || c == '\t' || c == '\r' || isLineBreak c

def isPlainAscii (c : Char) : Bool :=
  c == '\n' || (0x20 ≤ c.toNat && c.toNat ≤ 0x7E)

def atWordEnd : Text → Bool
  | [] => true
  | c :: _ => isBlankOrBreak c

/-- Whether a later character would be read as a mark: a colon at the end of a word, a number sign at the
start of one. -/
def hasInnerMark (afterBlank : Bool) : Text → Bool
  | [] => false
  | c :: rest =>
    (c == ':' && atWordEnd rest) || (c == '#' && afterBlank) || hasInnerMark (isBlankOrBreak c) rest

def hasLeadingMark : Text → Bool
  | [] => false
  | c :: rest =>
    "#,[]\x7b\x7d&*!|>'\"%@\x60".toList.contains c || ("?:-".toList.contains c && atWordEnd rest)

def hasMarks (t : Text) : Bool :=
  Text.startsWith ['-', '-', '-'] t || Text.startsWith ['.', '.', '.'] t || hasLeadingMark t
    || hasInnerMark (t.head?.any isBlankOrBreak) t.tail

def hasPair (first second : Char → Bool) : Text → Bool
  | a :: b :: rest => (first a && second b) || hasPair first second (b :: rest)
  | _ => false

def isSpace (c : Char) : Bool :=
  c == ' '

def edgeIsBlank (t : Text) : Bool :=
  let blank := fun c => isSpace c || isLineBreak c
  t.head?.any blank || t.getLast?.any blank

/-- Plain text is of one line, has no marks, and reads back as text. -/
def admitsPlain (t : Text) : Bool :=
  Tag.ofPlain t == .text && t.all isPlainAscii && !edgeIsBlank t && !t.any isLineBreak && !hasMarks t

def admitsSingleQuotes (t : Text) : Bool :=
  t.all isPlainAscii && !hasPair isSpace isLineBreak t && !hasPair isLineBreak isSpace t

/-- Writes a line; a single space after the best width becomes a line break. -/
def plainFrom (afterSpace : Bool) (column : Nat) : Text → Text
  | [] => []
  | c :: rest =>
    if c == ' ' && !afterSpace && bestWidth < column && rest.head?.any (· != ' ') then
      indentText ++ plainFrom false indentColumn rest
    else c :: plainFrom (c == ' ') (column + 1) rest

/-- Writes lines in single quotes; a line break is written twice, and a quote too. -/
def singleFrom (previous : Char) (column : Nat) : Text → Text
  | [] => []
  | c :: rest =>
    if c == '\n' then
      (if previous == '\n' then ['\n'] else ['\n', '\n'])
        ++ (if rest.head? = some '\n' then [] else [' ', ' ']) ++ singleFrom c indentColumn rest
    else if c == '\'' then c :: c :: singleFrom c (column + 2) rest
    else if c == ' ' && previous != ' ' && bestWidth < column && rest.head?.any (· != ' ') then
      indentText ++ singleFrom '\n' indentColumn rest
    else c :: singleFrom c (column + 1) rest

def escapeLetter? (c : Char) : Option Char :=
  match c with
  | '\x00' => some '0'
  | '\x07' => some 'a'
  | '\x08' => some 'b'
  | '\t' => some 't'
  | '\n' => some 'n'
  | '\x0b' => some 'v'
  | '\x0c' => some 'f'
  | '\r' => some 'r'
  | '\x1b' => some 'e'
  | '"' => some '"'
  | '\\' => some '\\'
  | '\u0085' => some 'N'
  | '\u00a0' => some '_'
  | '\u2028' => some 'L'
  | '\u2029' => some 'P'
  | _ => none

def codeEscape (c : Char) : Text :=
  let n := c.toNat
  let digits := fun width => (Text.hexadecimal width n).map Char.toUpper
  if n ≤ 0xFF then '\\' :: 'x' :: digits 2
  else if n ≤ 0xFFFF then '\\' :: 'u' :: digits 4
  else '\\' :: 'U' :: digits 8

def escape? (c : Char) : Option Text :=
  match escapeLetter? c with
  | some letter => some ['\\', letter]
  | none => if 0x20 ≤ c.toNat && c.toNat ≤ 0x7E then none else some (codeEscape c)

/-- Writes one line in double quotes; after the best width it is broken before a space or after an escape, and a
backslash joins the parts. -/
def doubleFrom (first afterEscape : Bool) (column : Nat) : Text → Text
  | [] => []
  | c :: rest =>
    let inner := !first && !rest.isEmpty
    match escape? c with
    | some e =>
      if inner && bestWidth + 1 < column + e.length then
        e ++ '\\' :: indentText
          ++ (if rest.head? = some ' ' then '\\' :: doubleFrom false true (indentColumn + 1) rest
            else doubleFrom false true indentColumn rest)
      else e ++ doubleFrom false true (column + e.length) rest
    | none =>
      if inner && (c == ' ' || afterEscape) && bestWidth < column then
        '\\' :: indentText
          ++ (if c == ' ' then '\\' :: c :: doubleFrom false false (indentColumn + 2) rest
            else c :: doubleFrom false false (indentColumn + 1) rest)
      else c :: doubleFrom false false (column + 1) rest

def textFrom (column : Nat) (t : Text) : Text :=
  if admitsPlain t then plainFrom false column t
  else if admitsSingleQuotes t then '\'' :: singleFrom '\'' (column + 1) t ++ ['\'']
  else '"' :: doubleFrom true false (column + 1) t ++ ['"']

def scalarFrom (column : Nat) : Value → Text
  | .bool b => if b then "true".toList else "false".toList
  | .int n => Text.ofInt n
  | .text t => textFrom column t
  | .float x => x.toText
  | .moment m => m.toText
  | _ => "null".toList

def itemLine (v : Value) : Text :=
  '-' :: ' ' :: scalarFrom 2 v ++ ['\n']

/-- An entry with a text for its key; the items of a list stand below it. -/
def entryText (key : Text) : Value → Text
  | .list [] => key ++ ": []\n".toList
  | .list items => key ++ ':' :: '\n' :: items.flatMap itemLine
  | v => key ++ ':' :: ' ' :: scalarFrom (key.length + 2) v ++ ['\n']

/-- An object of scalars and lists of scalars under plain keys, in the order of its entries. -/
def write (v : Value) : Text :=
  match v with
  | .object entries => entries.flatMap fun e => entryText (e.1.cellText?.getD []) e.2
  | v => scalarFrom 0 v

end Yaml

end Synopsis
