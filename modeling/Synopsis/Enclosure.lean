import Synopsis.Issue

/-!
# The parameter section

A declaration holds its parameters between its first opening parenthesis and the closing one that
matches it. Without any opening parenthesis it declares a property.
-/

namespace Synopsis

/-- A declaration by its parameter section; `inside` is untrimmed, and the text is
`head ++ '(' :: inside ++ ')' :: tail`. -/
inductive Enclosure where
  | property
  | unterminated
  | enclosed (head inside tail : Text)
  deriving DecidableEq, Repr

namespace Enclosure

/-- Cuts a text at the parenthesis that closes it, with `depth` more to close before. -/
def closing : (depth : Nat) → Text → Option (Text × Text)
  | _, [] => none
  | depth, '(' :: rest => (closing (depth + 1) rest).map fun p => ('(' :: p.1, p.2)
  | 0, ')' :: rest => some ([], rest)
  | depth + 1, ')' :: rest => (closing depth rest).map fun p => (')' :: p.1, p.2)
  | depth, c :: rest => (closing depth rest).map fun p => (c :: p.1, p.2)

def ofText (t : Text) : Enclosure :=
  match t.dropWhile (· != '(') with
  | [] => .property
  | _ :: rest =>
    match closing 0 rest with
    | none => .unterminated
    | some (inside, tail) => .enclosed (t.takeWhile (· != '(')) inside tail

def stop? : Enclosure → Option Nat
  | .enclosed head inside _ => some (head.length + 1 + inside.length)
  | _ => none

def parameterText? : Enclosure → Option Text
  | .enclosed _ inside _ => some (Text.trim inside)
  | _ => none

def issues : Enclosure → List Issue
  | .unterminated => [.missingClosingParenthesis]
  | _ => []

theorem append_of_closing {depth : Nat} {t inside tail : Text} (h : closing depth t = some (inside, tail)) :
    t = inside ++ ')' :: tail := by
  fun_induction closing depth t generalizing inside tail <;> grind [Option.map_eq_some_iff]

theorem ofText_eq_enclosed {t head inside tail : Text} (h : ofText t = .enclosed head inside tail) :
    t = head ++ '(' :: inside ++ ')' :: tail := by
  have hcut := List.takeWhile_append_dropWhile (p := (· != '(')) (l := t)
  unfold ofText at h
  split at h
  · cases h
  · next c rest hrest =>
      have hc : c = '(' := by
        have := List.head?_dropWhile_not (· != '(') t
        simp_all
      split at h
      · cases h
      · next hclose =>
          cases h
          rw [hrest, hc, append_of_closing hclose] at hcut
          simpa using hcut.symm

end Enclosure

end Synopsis
