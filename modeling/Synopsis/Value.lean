import Synopsis.Binary64
import Synopsis.Bytes
import Synopsis.Moment
import Synopsis.Text.Codes
import Synopsis.Text.Digit

/-!
# Values

Data of no fixed shape, as a file or a caller brings it: scalars, lists, and objects whose entries keep
their order. A file may use any scalar as a key, and may hold sets, pairs, and data that stand inside
themselves; where such data come up again, a mark stands for them.
-/

namespace Synopsis

inductive Shape where
  | list
  | pair
  | object
  deriving DecidableEq, Repr

/-- A text that holds halves of characters is kept by its code points. -/
inductive Value where
  | null
  | bool (b : Bool)
  | int (n : Int)
  | float (x : Binary64)
  | text (t : Text)
  | codes (c : Codes)
  | bytes (bs : Bytes)
  | moment (m : Moment)
  | list (items : List Value)
  | set (items : List Value)
  | pair (first second : Value)
  | object (entries : List (Value × Value))
  | again (s : Shape)
  deriving Inhabited, Repr

namespace Value

def ofCodes (c : Codes) : Value :=
  if c.any Codes.isHalf then .codes c else .text c.toText

/-- The value under a key that is a text. -/
def field? (entries : List (Value × Value)) (name : Text) : Option Value :=
  (entries.find? fun e => match e.1 with
    | .text key => key == name
    | _ => false).map Prod.snd

def record (fields : List (String × Value)) : Value :=
  .object (fields.map fun f => (.text f.1.toList, f.2))

def boolText (b : Bool) : Text :=
  if b then "True".toList else "False".toList

def braced (items : List Text) : Text :=
  '\x7b' :: [',', ' '].intercalate items ++ ['\x7d']

def againText : Shape → Text
  | .list => "[...]".toList
  | .pair => "(...)".toList
  | .object => "\x7b...\x7d".toList

mutual

/-- The text of a value inside another one. -/
def inner : Value → Text
  | .null => "None".toList
  | .bool b => boolText b
  | .int n => Text.ofInt n
  | .float x => x.toText
  | .text t => Text.quoted t
  | .codes c => c.quoted
  | .bytes bs => bs.quoted
  | .moment m => m.inner
  | .list items => Text.bracketed (innerItems items)
  | .set [] => "set()".toList
  | .set items => braced (innerItems items)
  | .pair first second => '(' :: inner first ++ ',' :: ' ' :: inner second ++ [')']
  | .object entries => braced (innerEntries entries)
  | .again s => againText s

def innerItems : List Value → List Text
  | [] => []
  | v :: rest => inner v :: innerItems rest

def innerEntries : List (Value × Value) → List Text
  | [] => []
  | (k, v) :: rest => (inner k ++ ':' :: ' ' :: inner v) :: innerEntries rest

end

mutual

def isWritable : Value → Bool
  | .int n => Text.fits n
  | .list items => areWritable items
  | .set items => areWritable items
  | .pair first second => isWritable first && isWritable second
  | .object entries => entriesAreWritable entries
  | _ => true

def areWritable : List Value → Bool
  | [] => true
  | v :: rest => isWritable v && areWritable rest

def entriesAreWritable : List (Value × Value) → Bool
  | [] => true
  | (k, v) :: rest => isWritable k && isWritable v && entriesAreWritable rest

end

/-- The text of a table cell, if it can be written; an empty one is null. -/
def cellText? : Value → Option Text
  | .null => some []
  | .text t => some t
  | .codes c => some c.toText
  | .moment m => some m.toText
  | v => if isWritable v then some (inner v) else none

@[simp] theorem ofCodes_ofText (t : Text) : ofCodes (Codes.ofText t) = .text t := by
  simp [ofCodes, Codes.any_isHalf_ofText]

@[simp] theorem field?_nil (name : Text) : field? [] name = none := rfl

theorem field?_cons (key name : Text) (v : Value) (entries : List (Value × Value)) :
    field? ((.text key, v) :: entries) name = if key = name then some v else field? entries name := by
  by_cases h : key = name <;> simp [field?, h]

end Value

end Synopsis
