import Synopsis.Text.Basic

/-!
# Emphasis

A word between two asterisks is emphasised; stripping takes the asterisks away and keeps the word.
Escaped asterisks are hidden behind a stand-in character meanwhile, so that they neither open nor
close. Text is cut at its asterisks: a piece between two of them loses both when it is an emphasised
word, and the piece before it, the word and the piece after it become one.
-/

namespace Synopsis

namespace Emphasis

def standIn : Char := '\uE000'

/-- Puts the stand-in for every escaped asterisk. -/
def hideEscapes : Text → Text
  | '\\' :: '*' :: rest => standIn :: hideEscapes rest
  | c :: rest => c :: hideEscapes rest
  | [] => []

def showEscapes (t : Text) : Text :=
  t.flatMap fun c => if c = standIn then ['\\', '*'] else [c]

def isWordChar (c : Char) : Bool :=
  !("*:;\x7b\x7d()".toList.contains c || Text.isBlank c)

def isWordAfter (lead t : Text) : Bool :=
  match Text.after? lead t with
  | some rest => !rest.isEmpty && rest.all isWordChar
  | none => false

def joinFirst (before word : Text) : List Text → List Text
  | [] => [before ++ word]
  | next :: pieces => (before ++ word ++ next) :: pieces

/-- One walk over the pieces of a text, from the left; asterisks that end one word cannot begin another. -/
def unwrap (isWord : Text → Bool) : List Text → List Text
  | before :: word :: next :: pieces =>
    if isWord word then joinFirst before word (unwrap isWord (next :: pieces))
    else before :: unwrap isWord (word :: next :: pieces)
  | pieces => pieces

def stripPieces (pieces : List Text) : List Text :=
  unwrap (isWordAfter [])
    (unwrap (isWordAfter [';', '.', '.', '.']) (unwrap (isWordAfter ['.', '.', '.']) pieces))

def strip (t : Text) : Text :=
  showEscapes (['*'].intercalate (stripPieces (Text.cutAt '*' (hideEscapes t))))

@[simp] theorem strip_nil : strip [] = [] := rfl

end Emphasis

end Synopsis
