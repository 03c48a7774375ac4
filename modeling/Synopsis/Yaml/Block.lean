import Synopsis.Yaml.Place

/-!
# Block scalars

A block scalar is the lines that are indented below its header. A literal one keeps its line breaks; a
folded one turns a break between two lines that begin with a word into a space. The header may fix the
indentation, and says what becomes of the breaks at the end.
-/

namespace Synopsis

namespace Yaml

/-- What becomes of the line breaks at the end. -/
inductive Chomp where
  | clip
  | strip
  | keep
  deriving DecidableEq, Repr

structure BlockHeader where
  chomp : Chomp
  indent : Option Nat
  deriving DecidableEq, Repr

def chompOf? : Char → Option Chomp
  | '+' => some .keep
  | '-' => some .strip
  | _ => none

def indentOf? (c : Char) : Option Nat :=
  if '1' ≤ c && c ≤ '9' then some (c.toNat - '0'.toNat) else none

def blockHeader (s : Input) : BlockHeader × Input :=
  match chompOf? s.peek, indentOf? s.peek with
  | some chomp, _ =>
    match indentOf? (s.peekAt 1) with
    | some n => (⟨chomp, some n⟩, s.drop 2)
    | none => (⟨chomp, none⟩, s.drop 1)
  | none, some n =>
    match chompOf? (s.peekAt 1) with
    | some chomp => (⟨chomp, some n⟩, s.drop 2)
    | none => (⟨.clip, some n⟩, s.drop 1)
  | none, none => (⟨.clip, none⟩, s)

def restOfLine? (s : Input) : Option Input :=
  let s := s.skip (· == ' ')
  let s := if s.peek = '#' then s.skip (!endsLine ·) else s
  if isBreak s.peek then some (s.drop 1)
  else if s.peek = endMark then some s
  else none

def leadingBreaks (deepest : Nat) : Input → Text × Nat × Input
  | [] => ([], deepest, [])
  | p :: rest =>
    if p.char = ' ' then leadingBreaks (max deepest (p.column + 1)) rest
    else if isBreak p.char then
      let (breaks, deepest, rest) := leadingBreaks deepest rest
      (breakText p.char :: breaks, deepest, rest)
    else ([], deepest, p :: rest)

/-- The line breaks of empty lines, and the next line from the column `indent` on. -/
def blockBreaks (indent : Nat) : Input → Text × Input
  | [] => ([], [])
  | p :: rest =>
    if p.char = ' ' ∧ p.column < indent then blockBreaks indent rest
    else if isBreak p.char then
      let (breaks, rest) := blockBreaks indent rest
      (breakText p.char :: breaks, rest)
    else ([], p :: rest)

theorem length_blockBreaks_le (indent : Nat) (s : Input) : (blockBreaks indent s).2.length ≤ s.length := by
  fun_induction blockBreaks indent s <;> simp_all <;> omega

def beginsWithWord (s : Input) : Bool :=
  !(s.peek == ' ' || s.peek == '\t')

/-- The text between a line that ended with `lineBreak` and the next one. -/
def betweenLines (folded : Bool) (lineBreak : Char) (words : Bool) (breaks : Text) : Text :=
  if folded && lineBreak == '\n' && words then (if breaks.isEmpty then [' '] else breaks)
  else lineBreak :: breaks

def Chomp.ending (chomp : Chomp) (lineBreak breaks : Text) : Text :=
  match chomp with
  | .strip => []
  | .clip => lineBreak
  | .keep => lineBreak ++ breaks

def blockLines (folded : Bool) (chomp : Chomp) (indent : Nat) (s : Input) : Text × Input :=
  let line := s.takeText (!endsLine ·)
  match hs : s.skip (!endsLine ·) with
  | [] => (line, [])
  | p :: rest =>
    if p.char = endMark then (line, p :: rest)
    else
      let next := blockBreaks indent rest
      have : next.2.length < s.length := by
        have h := Input.length_skip_le (!endsLine ·) s
        rw [hs, List.length_cons] at h
        exact Nat.lt_of_le_of_lt (length_blockBreaks_le indent rest) h
      if next.2.column = indent ∧ next.2.peek ≠ endMark then
        let more := blockLines folded chomp indent next.2
        (line ++ betweenLines folded (breakText p.char)
          (beginsWithWord s && beginsWithWord next.2) next.1 ++ more.1, more.2)
      else (line ++ chomp.ending [breakText p.char] next.1, next.2)
termination_by s.length

/-- Reads a block scalar after its first mark, inside a collection at column `parent`. -/
def blockScalar (folded : Bool) (parent : Int) (s : Input) : Option (Text × Input) := do
  let (header, s) := blockHeader s
  guard (endsLine s.peek ∨ s.peek = ' ')
  let s ← restOfLine? s
  let least := (max 1 (parent + 1)).toNat
  let (breaks, indent, s) := match header.indent with
    | some n =>
      let indent := least + n - 1
      let (breaks, s) := blockBreaks indent s
      (breaks, indent, s)
    | none =>
      let (breaks, deepest, s) := leadingBreaks 0 s
      (breaks, max least deepest, s)
  if s.column = indent ∧ s.peek ≠ endMark then
    let (body, s) := blockLines folded header.chomp indent s
    return (breaks ++ body, s)
  else return (header.chomp.ending [] breaks, s)

end Yaml

end Synopsis
