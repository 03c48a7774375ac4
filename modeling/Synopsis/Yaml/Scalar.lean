import Synopsis.Binary64.Arithmetic
import Synopsis.Text.Lowercase
import Synopsis.Value

/-!
# Scalars

What a scalar without quotes stands for follows from its text: null, a truth value, a number, a moment, one
of the two marks of a mapping, or else the text itself. A tag may say it instead; then the text need not
have the form of the type, and may fail to stand for anything.
-/

namespace Synopsis

namespace Yaml

/-- What breaks reading off although a file is well formed: a scalar that has no value, a number that is too
large, or collections that stand too deep inside each other. -/
inductive Breakdown where
  | impossible
  | noDigits
  | unknownWord (t : Text)
  | noMoment
  | noScalar
  | tooLarge
  | tooDeep
  deriving DecidableEq, Repr

inductive Defect where
  | malformed
  | breakdown (b : Breakdown)
  deriving DecidableEq, Repr

inductive Tag where
  | null
  | truth
  | whole
  | float
  | bytes
  | moment
  | text
  | sequence
  | mapping
  | set
  | pairs
  | merge
  | default
  | other
  deriving DecidableEq, Repr

namespace Tag

/-- Whether scalars of the type have values. -/
def isScalar : Tag → Bool
  | .null | .truth | .whole | .float | .bytes | .moment | .text => true
  | _ => false

def lead : Text := "tag:yaml.org,2002:".toList

def names : List (String × Tag) :=
  [("null", .null), ("bool", .truth), ("int", .whole), ("float", .float), ("binary", .bytes),
   ("timestamp", .moment), ("str", .text), ("seq", .sequence), ("map", .mapping), ("set", .set),
   ("pairs", .pairs), ("omap", .pairs), ("merge", .merge), ("value", .default)]

def ofName (t : Text) : Tag :=
  match names.find? fun p => lead ++ p.1.toList == t with
  | some p => p.2
  | none => .other

end Tag

def nullWords : List Text := ["", "~", "null", "Null", "NULL"].map String.toList

def trueWords : List Text :=
  ["yes", "Yes", "YES", "true", "True", "TRUE", "on", "On", "ON"].map String.toList

def falseWords : List Text :=
  ["no", "No", "NO", "false", "False", "FALSE", "off", "Off", "OFF"].map String.toList

def infinityWords : List Text := [".inf", ".Inf", ".INF"].map String.toList

def undefinedWords : List Text := [".nan", ".NaN", ".NAN"].map String.toList

def isDecimalChar (c : Char) : Bool :=
  Moment.isDigit c || c == '_'

def isOctalChar (c : Char) : Bool :=
  ('0' ≤ c && c ≤ '7') || c == '_'

def isBinaryChar (c : Char) : Bool :=
  c == '0' || c == '1' || c == '_'

def isHexChar (c : Char) : Bool :=
  isDecimalChar c || ('a' ≤ c && c ≤ 'f') || ('A' ≤ c && c ≤ 'F')

def hasSign : Text → Bool
  | c :: _ => c == '-' || c == '+'
  | [] => false

def unsigned (t : Text) : Text :=
  if hasSign t then t.tail else t

def isDigits : Text → Bool
  | c :: rest => Moment.isDigit c && rest.all isDecimalChar
  | [] => false

/-- A place of a number with base sixty: one or two digits that make less than sixty. -/
def isSixtieth : Text → Bool
  | [c] => Moment.isDigit c
  | [c, d] => '0' ≤ c && c ≤ '5' && Moment.isDigit d
  | _ => false

def isSexagesimal (t : Text) : Bool :=
  match Text.cutAt ':' t with
  | first :: second :: rest => isDigits first && (second :: rest).all isSixtieth
  | _ => false

def isWhole (body : Text) : Bool :=
  match body with
  | ['0'] => true
  | '0' :: 'b' :: digits => !digits.isEmpty && digits.all isBinaryChar
  | '0' :: 'x' :: digits => !digits.isEmpty && digits.all isHexChar
  | '0' :: digits => !digits.isEmpty && digits.all isOctalChar
  | _ => isDigits body || isSexagesimal body

def isExponent : Text → Bool
  | [] => true
  | e :: sign :: digits =>
    (e == 'e' || e == 'E') && (sign == '+' || sign == '-') && !digits.isEmpty && digits.all Moment.isDigit
  | _ => false

def isFloatBody (signed : Bool) (body : Text) : Bool :=
  let before := body.takeWhile (· != '.')
  match body.dropWhile (· != '.') with
  | [] => false
  | _ :: after =>
    let exponent := after.dropWhile isDecimalChar
    if before.isEmpty then !signed && isDigits (after.takeWhile isDecimalChar) && isExponent exponent
    else (isDigits before && isExponent exponent) || (isSexagesimal before && exponent.isEmpty)

def isFloat (t : Text) : Bool :=
  isFloatBody (hasSign t) (unsigned t) || infinityWords.contains (unsigned t) || undefinedWords.contains t

/-- A date without a time has all its digits. -/
def isMoment (t : Text) : Bool :=
  (Moment.ofText? t).any fun m => m.clock.isSome || t.length == 10

/-- A line break at the end does not change the form of a text. -/
def dropBreak (t : Text) : Text :=
  if t.getLast? = some '\n' then t.dropLast else t

def documentedMarks : List Text := [['!'], ['&'], ['*']]

def Tag.ofLine (t : Text) : Tag :=
  if nullWords.contains t then .null
  else if trueWords.contains t || falseWords.contains t then .truth
  else if isFloat t then .float
  else if isWhole (unsigned t) then .whole
  else if isMoment t then .moment
  else if t = ['<', '<'] then .merge
  else if t = ['='] then .default
  else if documentedMarks.contains t then .other
  else .text

def Tag.ofPlain (t : Text) : Tag :=
  if t = ['\n'] then .text else .ofLine (dropBreak t)

def withoutUnderscores (t : Text) : Text :=
  t.filter (· != '_')

def orElse {α : Type} (d : Defect) : Option α → Except Defect α
  | some a => .ok a
  | none => .error d

/-- Takes the sign off a text, which must not be empty. -/
def signed (t : Text) : Except Defect (Bool × Text) :=
  match t with
  | [] => .error (.breakdown .noDigits)
  | c :: rest => .ok (c == '-', if c == '-' || c == '+' then rest else t)

/-- The value of places with base sixty, the highest one first. -/
def ofSixtieths (places : List Int) : Int :=
  places.foldl (fun n d => 60 * n + d) 0

/-- A whole number by its first characters: of base two or sixteen with their marks, of base eight with a
zero. -/
def magnitude (t : Text) : Except Defect Int :=
  match t with
  | [] => .error (.breakdown .noDigits)
  | ['0'] => .ok 0
  | '0' :: 'b' :: digits => orElse (.breakdown .impossible) (Text.toInt? 2 digits)
  | '0' :: 'x' :: digits => orElse (.breakdown .impossible) (Text.toInt? 16 digits)
  | '0' :: _ => orElse (.breakdown .impossible) (Text.toInt? 8 t)
  | _ => (orElse (.breakdown .impossible) ((Text.cutAt ':' t).mapM (Text.toInt? 10))).map ofSixtieths

def whole (t : Text) : Except Defect Int := do
  let (negative, body) ← signed (withoutUnderscores t)
  return (if negative then -1 else 1) * (← magnitude body)

/-- The sum of places with base sixty, the lowest one first, rounded at each step. -/
def sumSixtieths (total : Binary64) (unit : Nat) : List Binary64 → Except Defect Binary64
  | [] => .ok total
  | x :: rest => do
    let scale ← orElse (.breakdown .tooLarge) (Binary64.ofNat? unit)
    sumSixtieths (total.add (x.mul scale)) (60 * unit) rest

def float (t : Text) : Except Defect Binary64 := do
  let (negative, body) ← signed (Text.lowercase (withoutUnderscores t))
  let x ← if body = ".inf".toList then .ok (.infinite false)
    else if body = ".nan".toList then .ok .undefined
    else do
      let places ← orElse (.breakdown .impossible) ((Text.cutAt ':' body).mapM Binary64.ofText?)
      match places with
      | [x] => .ok x
      | _ => sumSixtieths (.zero false) 1 places.reverse
  return if negative then x.negate else x

def moment (t : Text) : Except Defect Moment := do
  let m ← orElse (.breakdown .noMoment) (Moment.ofText? (dropBreak t))
  if m.isValid then .ok m else .error (.breakdown .impossible)

def truth (t : Text) : Except Defect Bool :=
  let word := Text.lowercase t
  if trueWords.contains word then .ok true
  else if falseWords.contains word then .ok false
  else .error (.breakdown (.unknownWord word))

def bytes (t : Text) : Except Defect Bytes :=
  if t.all fun c => c.toNat < 0x80 then orElse .malformed (Bytes.ofBase64? t) else .error .malformed

/-- What a scalar of a type stands for; other types have no scalars. -/
def scalarValue (tag : Tag) (c : Codes) : Except Defect Value :=
  match tag with
  | .null => .ok .null
  | .truth => (truth c.toText).map .bool
  | .whole => (whole c.toText).map .int
  | .float => (float c.toText).map .float
  | .bytes => (bytes c.toText).map .bytes
  | .moment => (moment c.toText).map .moment
  | .text => .ok (.ofCodes c)
  | _ => .error .malformed

end Yaml

end Synopsis
