import Synopsis.Yaml.Block
import Synopsis.Yaml.Flow
import Synopsis.Yaml.Token

/-!
# Reading the tokens of a YAML file

A node that may turn out to be a key is remembered until a colon follows it on its line; then a token is
put in before it. Outside of brackets the column of a line opens and closes collections.
-/

namespace Synopsis

namespace Yaml

/-- A node that is a key if a colon follows, by the number of tokens before it and its place. -/
structure Candidate where
  index : Nat
  required : Bool
  place : Placed
  deriving DecidableEq, Repr

/-- The state of reading: each pair of open brackets has a candidate of its own around it. -/
structure Lexer where
  rest : Input
  tokens : Array Token
  indent : Int
  indents : List Int
  keyAllowed : Bool
  candidate : Option Candidate
  outer : List (Option Candidate)

namespace Lexer

def maxKeyLength : Nat := 1024

def inFlow (l : Lexer) : Bool :=
  !l.outer.isEmpty

def column (l : Lexer) : Int :=
  l.rest.column

def push (t : Token) (l : Lexer) : Lexer :=
  { l with tokens := l.tokens.push t }

def drop (n : Nat) (l : Lexer) : Lexer :=
  { l with rest := l.rest.drop n }

/-- Skips spaces, comments and line breaks; a line break allows a key outside of brackets. -/
def skipGaps (inFlow comment keyAllowed : Bool) : Input → Bool × Input
  | [] => (keyAllowed, [])
  | p :: rest =>
    if isBreak p.char then skipGaps inFlow false (keyAllowed || !inFlow) rest
    else if p.char = endMark then (keyAllowed, p :: rest)
    else if comment || p.char == '#' then skipGaps inFlow true keyAllowed rest
    else if p.char = ' ' then skipGaps inFlow false keyAllowed rest
    else (keyAllowed, p :: rest)

def isStale (here : Placed) (c : Candidate) : Bool :=
  c.place.line != here.line || maxKeyLength < here.offset - c.place.offset

/-- Forgets a candidate that can be no key any more, which must not be one that has to be a key. -/
def refresh (here : Placed) : Option Candidate → Option (Option Candidate)
  | none => some none
  | some c => if isStale here c then (if c.required then none else some none) else some (some c)

def dropStale (l : Lexer) : Option Lexer := do
  let here := l.rest.here
  return { l with candidate := ← refresh here l.candidate, outer := ← l.outer.mapM (refresh here) }

def unwindFrom (column indent : Int) : List Int → Int × List Int × Nat
  | [] => (indent, [], 0)
  | i :: rest =>
    if column < indent then
      let (indent, rest, n) := unwindFrom column i rest
      (indent, rest, n + 1)
    else (indent, i :: rest, 0)

def unwind (column : Int) (l : Lexer) : Lexer :=
  if l.inFlow then l
  else
    let (indent, indents, n) := unwindFrom column l.indent l.indents
    { l with indent := indent, indents := indents, tokens := l.tokens ++ Array.replicate n .blockEnd }

def toNext (l : Lexer) : Option Lexer := do
  let (keyAllowed, rest) := skipGaps l.inFlow false l.keyAllowed l.rest
  let l ← dropStale { l with keyAllowed := keyAllowed, rest := rest }
  return l.unwind l.column

def forgetCandidate (l : Lexer) : Option Lexer :=
  if l.candidate.any Candidate.required then none else some { l with candidate := none }

def markCandidate (l : Lexer) : Option Lexer :=
  if l.keyAllowed then do
    let l ← l.forgetCandidate
    return { l with candidate := some ⟨l.tokens.size, !l.inFlow && l.indent == l.column, l.rest.here⟩ }
  else some l

/-- Opens a collection at a column that is deeper than the one around it, with `start` at an index of the
tokens. -/
def openAt (column : Int) (start : Token) (index : Nat) (l : Lexer) : Lexer :=
  if l.indent < column then
    { l with
      indent := column, indents := l.indent :: l.indents
      tokens := l.tokens.insertIdxIfInBounds index start }
  else l

def documentMark (t : Token) (l : Lexer) : Option Lexer := do
  let l ← (l.unwind (-1)).forgetCandidate
  return ({ l with keyAllowed := false }.push t).drop 3

def flowStart (t : Token) (l : Lexer) : Option Lexer := do
  let l ← l.markCandidate
  return ({ l with candidate := none, outer := l.candidate :: l.outer, keyAllowed := true }.push t).drop 1

def flowEnd (t : Token) (l : Lexer) : Option Lexer := do
  let l ← l.forgetCandidate
  match l.outer with
  | [] => none
  | c :: outer => return ({ l with candidate := c, outer := outer, keyAllowed := false }.push t).drop 1

def flowEntry (l : Lexer) : Option Lexer := do
  let l ← { l with keyAllowed := true }.forgetCandidate
  return (l.push .flowEntry).drop 1

/-- A mark of a block collection, which opens one if it is indented deeper. -/
def blockMark (start mark : Token) (keyAfter : Bool) (l : Lexer) : Option Lexer := do
  let l ← if l.inFlow then some l
    else if l.keyAllowed then some (l.openAt l.column start l.tokens.size)
    else none
  let l ← { l with keyAllowed := keyAfter }.forgetCandidate
  return (l.push mark).drop 1

/-- A colon makes a key of the candidate, or stands alone as after a question mark. -/
def value (l : Lexer) : Option Lexer :=
  match l.candidate with
  | some c =>
    let l := { l with
      candidate := none, keyAllowed := false
      tokens := l.tokens.insertIdxIfInBounds c.index .key }
    let l := if l.inFlow then l else l.openAt c.place.column .blockMappingStart c.index
    some ((l.push .value).drop 1)
  | none => l.blockMark .blockMappingStart .value (!l.inFlow)

def isNameChar (c : Char) : Bool :=
  c.isAlphanum || c == '-' || c == '_'

def endsName (c : Char) : Bool :=
  endsWord c || "?:,]\x7d%@\x60".toList.contains c

def name (token : Text → Token) (l : Lexer) : Option Lexer := do
  let l ← l.markCandidate
  let rest := l.rest.drop 1
  let t := Input.takeText isNameChar rest
  let rest := Input.skip isNameChar rest
  guard (!t.isEmpty ∧ endsName (Input.peek rest))
  return { l with keyAllowed := false, rest := rest }.push (token t)

def isUriChar (c : Char) : Bool :=
  c.isAlphanum || "-;/?:@&=+$,_.!~*'()[]".toList.contains c

/-- A part of a tag; escaped bytes, which are held until the last of them is read, write characters. -/
def uriFrom (held : Bytes) : Input → Option (Text × Input)
  | [] => (Bytes.toText? held).map fun t => (t, [])
  | p :: rest =>
    if p.char = '%' then
      match rest with
      | q :: r :: more => do
        let high ← hexDigit? q.char
        let low ← hexDigit? r.char
        uriFrom (held ++ [(16 * high + low).toUInt8]) more
      | _ => none
    else do
      let t ← Bytes.toText? held
      if isUriChar p.char then
        let (u, s) ← uriFrom [] rest
        return (t ++ p.char :: u, s)
      else return (t, p :: rest)

def uri? (s : Input) : Option (Text × Input) :=
  if isUriChar s.peek || s.peek == '%' then uriFrom [] s else none

def handle? (s : Input) : Option (Text × Input) :=
  if s.peek ≠ '!' then none
  else
    let word := Input.takeText isNameChar (s.drop 1)
    let rest := Input.skip isNameChar (s.drop 1)
    if word.isEmpty && Input.peek rest == ' ' then some (['!'], rest)
    else if Input.peek rest = '!' then some ('!' :: word ++ ['!'], rest.drop 1)
    else none

def tagToken? (s : Input) : Option (Token × Input) :=
  if s.peekAt 1 = '<' then do
    let (suffix, rest) ← uri? (s.drop 2)
    guard (rest.peek = '>')
    return (.tag none suffix, rest.drop 1)
  else if endsWord (s.peekAt 1) then some (.tag none ['!'], s.drop 1)
  else do
    let word := Input.takeText (fun c => !(c == ' ' || endsLine c)) (s.drop 1)
    let (handle, rest) ← if word.contains '!' then handle? s else some (['!'], s.drop 1)
    let (suffix, rest) ← uri? rest
    return (.tag (some handle) suffix, rest)

def tag (l : Lexer) : Option Lexer := do
  let l ← l.markCandidate
  let (t, rest) ← tagToken? l.rest
  guard (rest.peek = ' ' ∨ endsLine rest.peek)
  return { l with keyAllowed := false, rest := rest }.push t

def versionNumber (s : Input) : Except Defect (Nat × Input) := do
  let digits := s.takeText Char.isDigit
  if digits.isEmpty then throw .malformed
  return (← orElse (.breakdown .impossible) (Text.natural? 10 digits), s.skip Char.isDigit)

def version (s : Input) : Except Defect (Directive × Input) := do
  let (major, s) ← versionNumber (s.skip (· == ' '))
  if s.peek ≠ '.' then throw .malformed
  let (minor, s) ← versionNumber (s.drop 1)
  if s.peek = ' ' ∨ endsLine s.peek then return (.version major minor, s) else throw .malformed

def tagDirective? (s : Input) : Option (Directive × Input) := do
  let (handle, s) ← handle? (s.skip (· == ' '))
  guard (s.peek = ' ')
  let (lead, s) ← uri? (s.skip (· == ' '))
  guard (s.peek = ' ' ∨ endsLine s.peek)
  return (.tag handle lead, s)

def directiveBody (word : Text) (s : Input) : Except Defect (Directive × Input) :=
  if word = "YAML".toList then version s
  else if word = "TAG".toList then orElse .malformed (tagDirective? s)
  else .ok (.unknown, s.skip (!endsLine ·))

def directive (l : Lexer) : Except Defect Lexer := do
  let l ← orElse .malformed (l.unwind (-1)).forgetCandidate
  let rest := l.rest.drop 1
  let word := Input.takeText isNameChar rest
  let rest := Input.skip isNameChar rest
  if word.isEmpty || !(Input.peek rest == ' ' || endsLine (Input.peek rest)) then throw .malformed
  let (d, rest) ← directiveBody word rest
  return { l with keyAllowed := false, rest := ← orElse .malformed (restOfLine? rest) }.push (.directive d)

def block (folded : Bool) (l : Lexer) : Option Lexer := do
  let l ← { l with keyAllowed := true }.forgetCandidate
  let (t, rest) ← blockScalar folded l.indent (l.rest.drop 1)
  return { l with rest := rest }.push (.scalar false (.ofText t))

def singleQuotedScalar (l : Lexer) : Option Lexer := do
  let l ← l.markCandidate
  let s ← singleQuoted .none [] (l.rest.drop 1)
  return { l with keyAllowed := false, rest := s.rest }.push (.scalar false (.ofText s.text))

def doubleQuotedScalar (l : Lexer) : Except Defect Lexer := do
  let l ← orElse .malformed l.markCandidate
  let (c, rest) ← doubleQuoted .none [] (l.rest.drop 1)
  return { l with keyAllowed := false, rest := rest }.push (.scalar false c)

def plainScalar (l : Lexer) : Option Lexer := do
  let l ← l.markCandidate
  let (s, atLineStart) := plain l.inFlow (l.indent + 1) .none [] l.rest
  return { l with keyAllowed := atLineStart, rest := s.rest }.push (.scalar true (.ofText s.text))

def isMark (c : Char) : Bool :=
  "-?:,[]\x7b\x7d#&*!|>'\"%@\x60".toList.contains c

def startsPlain (l : Lexer) : Bool :=
  let c := l.rest.peek
  !(endsWord c || isMark c)
    || (!endsWord (l.rest.peekAt 1) && (c == '-' || (!l.inFlow && (c == '?' || c == ':'))))

/-- Reads the token that begins here, if its characters are all there is to it. -/
def fetchMark (l : Lexer) : Option Lexer :=
  let c := l.rest.peek
  let alone := endsWord (l.rest.peekAt 1)
  let atStart := l.rest.column == 0
  if c == '-' && atStart && l.rest.isDocumentMark then l.documentMark .documentStart
  else if c == '.' && atStart && l.rest.isDocumentMark then l.documentMark .documentEnd
  else if c == '[' then l.flowStart .flowSequenceStart
  else if c == '\x7b' then l.flowStart .flowMappingStart
  else if c == ']' then l.flowEnd .flowSequenceEnd
  else if c == '\x7d' then l.flowEnd .flowMappingEnd
  else if c == ',' then l.flowEntry
  else if c == '-' && alone then l.blockMark .blockSequenceStart .blockEntry true
  else if c == '?' && (l.inFlow || alone) then l.blockMark .blockMappingStart .key (!l.inFlow)
  else if c == ':' && (l.inFlow || alone) then l.value
  else if c == '*' then l.name .alias
  else if c == '&' then l.name .anchor
  else if c == '!' then l.tag
  else if c == '|' && !l.inFlow then l.block false
  else if c == '>' && !l.inFlow then l.block true
  else if c == '\'' then l.singleQuotedScalar
  else if l.startsPlain then l.plainScalar
  else none

/-- Reads the token that begins here; the numbers in directives and double quotes may be no characters. -/
def fetch (l : Lexer) : Except Defect Lexer :=
  if l.rest.peek == '%' && l.rest.column == 0 then l.directive
  else if l.rest.peek == '"' then l.doubleQuotedScalar
  else orElse .malformed l.fetchMark

def finish (l : Lexer) : Option (Array Token) := do
  let l ← (l.unwind (-1)).forgetCandidate
  return (l.push .streamEnd).tokens

def advance (l : Lexer) : Except Defect (Lexer ⊕ Array Token) := do
  let l ← orElse .malformed l.toNext
  if l.rest.peek = endMark then return .inr (← orElse .malformed l.finish) else return .inl (← l.fetch)

/-- How many tokens are certain: those before the oldest one that may still become a key. -/
def certain (l : Lexer) : Nat :=
  let live := (l.candidate :: l.outer).filterMap fun c => c.filter fun c => !isStale l.rest.here c
  (live.map Candidate.index).foldl min l.tokens.size

/-- Reads tokens up to the end; every token takes a character, which bounds their number. If reading fails, the
tokens that are certain before come with the reason. -/
def run : (fuel : Nat) → Lexer → List Token × Option Defect
  | 0, l => (l.tokens.toList, some .malformed)
  | fuel + 1, l =>
    match l.advance with
    | .ok (.inl next) => run fuel next
    | .ok (.inr tokens) => (tokens.toList, none)
    | .error d => (l.tokens.toList.take l.certain, some d)

end Lexer

/-- The tokens of a file, and why there are no more of them if its end is not reached. -/
def tokens (t : Text) : List Token × Option Defect :=
  let s := place (Text.dropLead [byteOrderMark] t)
  Lexer.run (s.length + 1) ⟨s, #[], -1, [], true, none, []⟩

end Yaml

end Synopsis
