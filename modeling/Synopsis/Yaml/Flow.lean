import Synopsis.Yaml.Place
import Synopsis.Yaml.Scalar

/-!
# Scalars on running lines

Plain and quoted scalars may go on over several lines. A gap within one is a run of spaces, which is
kept, or one or more line breaks: a single one reads as a space, of several the first is dropped.
-/

namespace Synopsis

namespace Yaml

/-- What stands between two words: nothing, spaces, or line breaks, of which the first may be escaped. -/
inductive Gap where
  | none
  | spaces (t : Text)
  | lines (first : Option Char) (more : Text)
  deriving DecidableEq, Repr

namespace Gap

def text : Gap → Text
  | .none => []
  | .spaces t => t
  | .lines Option.none more => more
  | .lines (some '\n') [] => [' ']
  | .lines (some '\n') more => more
  | .lines (some c) more => c :: more

/-- The gap after one more space, which does not count at the start of a line. -/
def addSpace (c : Char) : Gap → Gap
  | .none => .spaces [c]
  | .spaces t => .spaces (t ++ [c])
  | g => g

/-- The gap after one more line break; spaces before it are dropped. -/
def addBreak (c : Char) : Gap → Gap
  | .lines first more => .lines first (more ++ [c])
  | _ => .lines (some c) []

def isLines : Gap → Bool
  | .lines .. => true
  | _ => false

end Gap

structure Scanned where
  text : Text
  rest : Input
  deriving DecidableEq, Repr

/-- Where a word of a plain scalar stops; inside brackets their marks stop it too. -/
def stopsPlain (inFlow : Bool) (c next : Char) : Bool :=
  endsWord c || (c == ':' && (endsWord next || (inFlow && ",[]\x7b\x7d".toList.contains next)))
    || (inFlow && ",?[]\x7b\x7d".toList.contains c)

def extend (acc : Text) (gap : Gap) (c : Char) : Text :=
  c :: (gap.text.reverse ++ acc)

/-- Reads a plain scalar whose lines begin at `indent` or deeper; tells also whether it stopped at the start
of a line. -/
def plain (inFlow : Bool) (indent : Int) (gap : Gap) (acc : Text) : Input → Scanned × Bool
  | [] => (⟨acc.reverse, []⟩, gap.isLines)
  | p :: rest =>
    let c := p.char
    if c = ' ' then plain inFlow indent (gap.addSpace c) acc rest
    else if isBreak c then
      if Input.isDocumentMark rest then (⟨acc.reverse, rest⟩, true)
      else plain inFlow indent (gap.addBreak (breakText c)) acc rest
    else if stopsPlain inFlow c (Input.peek rest) ||
      (gap != .none && (c == '#' || (!inFlow && (p.column : Int) < indent))) then
      (⟨acc.reverse, p :: rest⟩, gap.isLines)
    else plain inFlow indent .none (extend acc gap c) rest

def singleQuoted (gap : Gap) (acc : Text) : Input → Option Scanned
  | [] => none
  | p :: rest =>
    let c := p.char
    if c = endMark then none
    else if c = ' ' ∨ c = '\t' then singleQuoted (gap.addSpace c) acc rest
    else if isBreak c then
      if Input.isDocumentMark rest then none else singleQuoted (gap.addBreak (breakText c)) acc rest
    else if c = '\'' then
      match rest with
      | q :: more =>
        if q.char = '\'' then singleQuoted .none (extend acc gap c) more
        else some ⟨acc.reverse ++ gap.text, rest⟩
      | [] => some ⟨acc.reverse ++ gap.text, rest⟩
    else singleQuoted .none (extend acc gap c) rest

def escaped? : Char → Option Char
  | '0' => some '\x00'
  | 'a' => some '\x07'
  | 'b' => some '\x08'
  | 't' => some '\t'
  | '\t' => some '\t'
  | 'n' => some '\n'
  | 'v' => some '\x0b'
  | 'f' => some '\x0c'
  | 'r' => some '\r'
  | 'e' => some '\x1b'
  | ' ' => some ' '
  | '"' => some '"'
  | '\\' => some '\\'
  | '/' => some '/'
  | 'N' => some '\u0085'
  | '_' => some '\u00a0'
  | 'L' => some '\u2028'
  | 'P' => some '\u2029'
  | _ => none

def escapeWidth? : Char → Option Nat
  | 'x' => some 2
  | 'u' => some 4
  | 'U' => some 8
  | _ => none

def hexDigit? (c : Char) : Option Nat :=
  if '0' ≤ c && c ≤ '9' then some (c.toNat - '0'.toNat)
  else if 'a' ≤ c && c ≤ 'f' then some (c.toNat - 'a'.toNat + 10)
  else if 'A' ≤ c && c ≤ 'F' then some (c.toNat - 'A'.toNat + 10)
  else none

/-- The code point that `width` digits give; there is a last one, and another one from which on it is no
number. -/
def codePoint (width : Nat) (s : Input) : Except Defect Nat := do
  let digits ← orElse .malformed ((s.take width).mapM fun p => hexDigit? p.char)
  if digits.length < width then throw .malformed
  let n := digits.foldl (fun n d => 16 * n + d) 0
  if n < 0x110000 then return n
  else if n < Nat.pow 2 31 then throw (.breakdown .impossible)
  else throw (.breakdown .tooLarge)

def extendCodes (acc : Codes) (t : Text) : Codes :=
  (Codes.ofText t).reverse ++ acc

def doubleQuoted (gap : Gap) (acc : Codes) : Input → Except Defect (Codes × Input)
  | [] => .error .malformed
  | p :: rest =>
    let c := p.char
    if c = endMark then .error .malformed
    else if c = ' ' ∨ c = '\t' then doubleQuoted (gap.addSpace c) acc rest
    else if isBreak c then
      if Input.isDocumentMark rest then .error .malformed
      else doubleQuoted (gap.addBreak (breakText c)) acc rest
    else if c = '"' then .ok ((extendCodes acc gap.text).reverse, rest)
    else if c = '\\' then
      match rest with
      | [] => .error .malformed
      | q :: more =>
        match escaped? q.char, escapeWidth? q.char with
        | some d, _ => doubleQuoted .none (extendCodes acc (gap.text ++ [d])) more
        | none, some width =>
          match codePoint width more with
          | .ok n => doubleQuoted .none (n :: extendCodes acc gap.text) (more.drop width)
          | .error d => .error d
        | none, none =>
          if isBreak q.char && !Input.isDocumentMark more then
            doubleQuoted (.lines none []) (extendCodes acc gap.text) more
          else .error .malformed
    else doubleQuoted .none (extendCodes acc (gap.text ++ [c])) rest
termination_by s => s.length
decreasing_by
  all_goals simp only [List.length_cons, List.length_drop]
  all_goals omega

end Yaml

end Synopsis
