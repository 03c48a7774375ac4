import Synopsis.Text.Basic

/-!
# Placed characters

The characters of a file with their places. Reading works on what is left of this list, so that the
place reached is that of its first character; a mark at the end stands for the end of the file. Line
breaks are single characters: carriage returns have been turned into line feeds before.
-/

namespace Synopsis

namespace Yaml

structure Placed where
  char : Char
  offset : Nat
  line : Nat
  column : Nat
  deriving DecidableEq, Repr

abbrev Input := List Placed

def endMark : Char := '\x00'

def byteOrderMark : Char := '\uFEFF'

def isBreak (c : Char) : Bool :=
  c == '\n' || c == '\u0085' || c == '\u2028' || c == '\u2029'

/-- The end of a word: a space, a tab, a line break, or the end of the file. -/
def endsWord (c : Char) : Bool :=
  c == endMark || c == ' ' || c == '\t' || isBreak c

def endsLine (c : Char) : Bool :=
  c == endMark || isBreak c

/-- What a line break is read as. -/
def breakText (c : Char) : Char :=
  if c == '\u0085' then '\n' else c

def placeFrom (offset line column : Nat) : Text → Input
  | [] => [⟨endMark, offset, line, column⟩]
  | c :: rest =>
    ⟨c, offset, line, column⟩ ::
      (if isBreak c then placeFrom (offset + 1) (line + 1) 0 rest
      else placeFrom (offset + 1) line (if c = byteOrderMark then column else column + 1) rest)

def place (t : Text) : Input :=
  placeFrom 0 0 0 t

namespace Input

def here (s : Input) : Placed :=
  s.head?.getD ⟨endMark, 0, 0, 0⟩

def peek (s : Input) : Char :=
  s.here.char

def peekAt (n : Nat) (s : Input) : Char :=
  peek (s.drop n)

def column (s : Input) : Nat :=
  s.here.column

def takeText (p : Char → Bool) (s : Input) : Text :=
  (s.takeWhile fun q => p q.char).map Placed.char

def skip (p : Char → Bool) (s : Input) : Input :=
  s.dropWhile fun q => p q.char

def startsWith (t : Text) (s : Input) : Bool :=
  (s.take t.length).map Placed.char == t

/-- Three dashes or three dots that stand alone. -/
def isDocumentMark (s : Input) : Bool :=
  (startsWith ['-', '-', '-'] s || startsWith ['.', '.', '.'] s) && endsWord (peekAt 3 s)

theorem length_skip_le (p : Char → Bool) (s : Input) : (skip p s).length ≤ s.length :=
  (List.dropWhile_sublist _).length_le

end Input

end Yaml

end Synopsis
