import Synopsis.TypeName

/-!
# Agreement of types

A declared type is compared with the documentation, either with the text of a table cell, which may
offer several types, or with a collection of type names. Case and surrounding blanks do not matter, and
`real` and `number` are two spellings of one type.
-/

namespace Synopsis

namespace Agreement

def anyType : Text := "any".toList

/-- The text after `or` and the blanks on both sides of it, of which the first may have been read. -/
def afterOr? (t : Text) : Option Text :=
  match t.dropWhile Text.isBlank with
  | o :: r :: b :: rest =>
    if o.toLower = 'o' ∧ r.toLower = 'r' ∧ Text.isBlank b then some (rest.dropWhile Text.isBlank) else none
  | _ => none

theorem length_of_afterOr? {t rest : Text} (h : afterOr? t = some rest) : rest.length < t.length := by
  have hle := (List.dropWhile_sublist (l := t) Text.isBlank).length_le
  unfold afterOr? at h
  split at h
  · next o r b tail heq =>
      split at h
      · cases h
        have := (List.dropWhile_sublist (l := tail) Text.isBlank).length_le
        rw [heq] at hle
        simp only [List.length_cons] at hle
        omega
      · cases h
  · cases h

def cutAlternatives : Text → List Text
  | [] => [[]]
  | c :: rest =>
    if c = ',' ∨ c = '/' then [] :: cutAlternatives rest
    else if Text.isBlank c then
      match h : afterOr? rest with
      | some after =>
        have : after.length < rest.length := length_of_afterOr? h
        [] :: cutAlternatives after
      | none => Text.consFirst c (cutAlternatives rest)
    else Text.consFirst c (cutAlternatives rest)
termination_by t => t.length

def alternatives (documented : Text) : List Text :=
  ((cutAlternatives documented).map Text.folded).filter fun t => !t.isEmpty

def respelled? (t : Text) : Option Text :=
  if t = "real".toList then some "number".toList
  else if t = "number".toList then some "real".toList
  else none

def canonical (t : Text) : Text :=
  if t = "real".toList then "number".toList else t

def isOffered (offered : List Text) (t : Text) : Bool :=
  t == anyType || offered.contains t || (respelled? t).any offered.contains

/-- Every declared type is `any` or among the alternatives, or the two texts are the same. -/
def withText (declared documented : Text) : Bool :=
  Text.folded declared == Text.folded documented ||
    (TypeName.names declared).all (isOffered (alternatives documented))

def sameMembers (a b : List Text) : Bool :=
  a.all b.contains && b.all a.contains

/-- Both sides name the same types, or one of them names `any`. -/
def withCollection (declared : Text) (documented : List Text) : Bool :=
  let a := TypeName.names declared
  let b := documented.map Text.folded
  a.contains anyType || b.contains anyType || sameMembers (a.map canonical) (b.map canonical)

@[simp] theorem canonical_canonical (t : Text) : canonical (canonical t) = canonical t := by
  unfold canonical
  split
  · decide
  · rfl

end Agreement

end Synopsis
