import Synopsis.Value

/-!
# Reading values

Reading a value of an expected shape gives the thing read or all its faults, each with the place where
it stands. Readings combine so that the faults of one part do not hide those of another.
-/

namespace Synopsis

inductive Step where
  | name (t : Text)
  | index (n : Int)
  deriving DecidableEq, Repr

inductive Fault.Kind where
  | missing
  | notText
  | notUnicode
  | notList
  | notRecord
  | notMapping
  | notTagged
  | tagMissing
  | tagUnknown
  | notBool
  | boolUnreadable
  | notInt
  | intUnreadable
  | intTooLong
  | intFraction
  | notFinite
  | notChoice
  | keyForbidden
  | keyNotText
  | unwritable
  deriving DecidableEq, Repr

structure Fault where
  place : List Step
  kind : Fault.Kind
  deriving DecidableEq, Repr

inductive Reading (α : Type) where
  | ok (a : α)
  | faulty (faults : List Fault)
  deriving DecidableEq, Repr

namespace Reading

variable {α β : Type}

def fault (k : Fault.Kind) : Reading α :=
  .faulty [⟨[], k⟩]

def map (f : α → β) : Reading α → Reading β
  | .ok a => .ok (f a)
  | .faulty e => .faulty e

/-- Applies one reading to another; the faults of both are kept. -/
def apply : Reading (α → β) → Reading α → Reading β
  | .ok f, .ok a => .ok (f a)
  | .ok _, .faulty e => .faulty e
  | .faulty e, .ok _ => .faulty e
  | .faulty e, .faulty e' => .faulty (e ++ e')

instance : Applicative Reading where
  pure := .ok
  map f r := map f r
  seq f r := apply f (r ())

@[simp] theorem map_ok (f : α → β) (a : α) : f <$> (Reading.ok a) = .ok (f a) := rfl

@[simp] theorem seq_ok (f : α → β) (a : α) : (Reading.ok f) <*> (Reading.ok a) = .ok (f a) := rfl

/-- The reading of a part that stands one step inside. -/
def under (s : Step) : Reading α → Reading α
  | .ok a => .ok a
  | .faulty e => .faulty (e.map fun f => { f with place := s :: f.place })

@[simp] theorem under_ok (s : Step) (a : α) : under s (.ok a) = .ok a := rfl

def each (read : β → Reading α) : List β → Reading (List α)
  | [] => .ok []
  | b :: rest => List.cons <$> read b <*> each read rest

/-- Reads a text, for which bytes may stand. A half of a character alone is no character, so a mark stands
for it. -/
def text : Value → Reading Text
  | .text t => .ok t
  | .codes c => .ok c.toText
  | .bytes bs => match bs.toText? with
    | some t => .ok t
    | none => fault .notUnicode
  | _ => fault .notText

def falseWords : List Text := ["0", "off", "f", "false", "n", "no"].map String.toList

def trueWords : List Text := ["1", "on", "t", "true", "y", "yes"].map String.toList

/-- The end of the numbers of 64 bits with a sign. -/
def wordBound : Nat := Nat.pow 2 63

def truth : Value → Reading Bool
  | .bool b => .ok b
  | .int n => ofInt n
  | .float x => match x.toInt? with
    | some n => ofInt n
    | none => fault .notBool
  | .text t => ofWord t
  | .codes _ => fault .notUnicode
  | .bytes bs => ofWord (bs.toText?.getD [])
  | _ => fault .notBool
where
  ofInt : Int → Reading Bool
    | 0 => .ok false
    | 1 => .ok true
    | n => fault (if -wordBound ≤ n ∧ n < wordBound then .boolUnreadable else .notBool)
  ofWord (t : Text) : Reading Bool :=
    let word := t.map Char.toLower
    if falseWords.contains word then .ok false
    else if trueWords.contains word then .ok true
    else fault .boolUnreadable

def isDigit (c : Char) : Bool :=
  '0' ≤ c && c ≤ '9'

/-- White space as the Unicode standard has it, without the information separators. -/
def isSpace (c : Char) : Bool :=
  Text.isBlank c && !(0x1C ≤ c.toNat && c.toNat ≤ 0x1F)

def trimSpace (t : Text) : Text :=
  ((t.dropWhile isSpace).reverse.dropWhile isSpace).reverse

def ofDigits (t : Text) : Nat :=
  t.foldl (fun n c => 10 * n + (c.toNat - '0'.toNat)) 0

def startsNumber (c : Char) : Bool :=
  c == '-' || ('1' ≤ c && c ≤ '9')

/-- Drops zeros and underscores behind a zero. The last of them is kept if nothing or a point comes behind
it. -/
def dropZerosAfter (last : Char) : Text → Option Text
  | [] => some [last]
  | c :: rest =>
    if c = '0' ∨ c = '_' then dropZerosAfter c rest
    else if startsNumber c then some (c :: rest)
    else if c = '.' then some (last :: c :: rest)
    else none

def dropZeros? : Text → Option Text
  | [] => none
  | c :: rest => if c = '0' then dropZerosAfter c rest else if startsNumber c then some (c :: rest) else none

def dropFraction? (t : Text) : Option Text :=
  match t.dropWhile (· != '.') with
  | [] => some t
  | _ :: zeros => if !zeros.isEmpty && zeros.all (· == '0') then some (t.takeWhile (· != '.')) else none

def hasDoubleUnderscore : Text → Bool
  | '_' :: '_' :: _ => true
  | _ :: rest => hasDoubleUnderscore rest
  | [] => false

/-- Drops underscores, which may stand by themselves inside a number. -/
def dropUnderscores? (t : Text) : Option Text :=
  if t.head? = some '_' || t.getLast? = some '_' || hasDoubleUnderscore t then none
  else some (t.filter (· != '_'))

/-- The digits of a number and its sign, which may still stand behind zeros that were dropped. -/
def signedDigits? (t : Text) : Option (Bool × Text) := do
  let (negative, t) := match t with
    | '-' :: rest => (true, rest)
    | '+' :: '-' :: _ => (false, [])
    | '+' :: rest => (false, rest)
    | _ => (false, t)
  match negative, ← dropUnderscores? (← dropFraction? (← dropZeros? t)) with
  | true, '-' :: _ => none
  | false, '-' :: rest => return (true, rest)
  | _, t => return (negative, t)

def intOfDigits (negative : Bool) (t : Text) : Reading Int :=
  let digits := t.takeWhile isDigit
  if t = ['0'] then .ok 0
  else if digits.isEmpty || digits.head? = some '0' then fault .intUnreadable
  else if Text.maxDigits < digits.length then fault .intTooLong
  else if digits.length < t.length then fault .intUnreadable
  else .ok (if negative then -(ofDigits digits : Int) else ofDigits digits)

def intOfText (t : Text) : Reading Int :=
  match signedDigits? (trimSpace t) with
  | none => fault .intUnreadable
  | some (negative, digits) => intOfDigits negative digits

/-- Reads a whole number; a truth value, a float without a fraction, or digits may stand for it. -/
def whole : Value → Reading Int
  | .int n => .ok n
  | .bool b => .ok (if b then 1 else 0)
  | .float x =>
    if !x.isFinite then fault .notFinite
    else match x.toInt? with
      | none => fault .intFraction
      | some n => if n.natAbs < wordBound then .ok n else fault .intTooLong
  | .text t => intOfText t
  | .codes _ => fault .notUnicode
  | .bytes bs => intOfText (bs.toText?.getD [])
  | _ => fault .notInt

def choice (ofNumber? : Int → Option α) (v : Value) : Reading α :=
  match whole v with
  | .ok n => match ofNumber? n with
    | some a => .ok a
    | none => fault .notChoice
  | .faulty _ => fault .notChoice

def eachItem (read : Value → Reading α) (first : Int) : List Value → Reading (List α)
  | [] => .ok []
  | v :: rest => List.cons <$> under (.index first) (read v) <*> eachItem read (first + 1) rest

theorem eachItem_eq_ok {read : Value → Reading α} {write : α → Value} (h : ∀ a, read (write a) = .ok a)
    (items : List α) (first : Int) : eachItem read first (items.map write) = .ok items := by
  induction items generalizing first with
  | nil => rfl
  | cons a rest ih => simp [eachItem, h, ih]

def list (read : Value → Reading α) : Value → Reading (List α)
  | .list items => eachItem read 0 items
  | .set items => eachItem read 0 items
  | .pair first second => eachItem read 0 [first, second]
  | _ => fault .notList

def nullable (read : Value → Reading α) : Value → Reading (Option α)
  | .null => .ok none
  | v => some <$> read v

abbrev Entries := List (Value × Value)

def record (read : Entries → Reading α) : Value → Reading α
  | .object entries => read entries
  | _ => fault .notRecord

def required (entries : Entries) (name : String) (read : Value → Reading α) : Reading α :=
  match Value.field? entries name.toList with
  | some v => under (.name name.toList) (read v)
  | none => under (.name name.toList) (fault .missing)

def defaulted (entries : Entries) (name : String) (default : α) (read : Value → Reading α) : Reading α :=
  match Value.field? entries name.toList with
  | some v => under (.name name.toList) (read v)
  | none => .ok default

/-- A field with a second spelling, which counts only where the first is absent. -/
def aliased (entries : Entries) (name second : String) (default : α) (read : Value → Reading α) : Reading α :=
  match Value.field? entries name.toList with
  | some v => under (.name name.toList) (read v)
  | none => defaulted entries second default read

/-- How a key appears in a place. -/
def stepOfKey : Value → Step
  | .text t => .name t
  | .codes c => .name c.masked
  | .int n =>
    if -wordBound ≤ n ∧ n < wordBound then .index n
    else .name (if Text.fits n then Text.ofInt n else "<unprintable int object>".toList)
  | .bool b => .index (if b then 1 else 0)
  | v => .name (Value.inner v)

def keyMark : Step := .name "[key]".toList

/-- Adds an entry, at the place of one with the same key if there is one. -/
def put (key : Text) (a : α) : List (Text × α) → List (Text × α)
  | [] => [(key, a)]
  | e :: rest => if e.1 = key then (key, a) :: rest else e :: put key a rest

/-- Reads entries as those of a mapping from texts; a key is read before the value under it. -/
def mappingOfEntries (read : Value → Reading α) (entries : Entries) : Reading (List (Text × α)) :=
  (List.foldl (fun acc e => put e.1 e.2 acc) []) <$> each (fun e =>
    under (stepOfKey e.1) (Prod.mk <$> under keyMark (text e.1) <*> read e.2)) entries

def mapping (read : Value → Reading α) : Value → Reading (List (Text × α))
  | .object entries => mappingOfEntries read entries
  | _ => fault .notMapping

end Reading

end Synopsis
