import Synopsis.Token

/-!
# Reading tokens

Gaps separate tokens and are dropped, and so is a character that begins no token. Every text has its
tokens: reading cannot fail.
-/

namespace Synopsis

namespace Token

/-- The tokens of a text at an offset, after a token of kind `previous` if there is one. -/
def scan (previous : Option Kind) (offset : Nat) : Text → List Token
  | [] => []
  | '\\' :: '*' :: rest =>
    ⟨.escapedAsterisk, ['\\', '*'], offset⟩ :: scan (some .escapedAsterisk) (offset + 2) rest
  | '-' :: '>' :: rest => ⟨.arrow, ['-', '>'], offset⟩ :: scan (some .arrow) (offset + 2) rest
  | c :: rest =>
    if isGap c then scan previous (offset + 1) rest
    else match Kind.ofPunctuation? c with
      | some k => ⟨k, [c], offset⟩ :: scan (some k) (offset + 1) rest
      | none =>
        let k := Kind.ofRun previous (c :: rest)
        if k.admits c then
          let run := c :: rest.takeWhile k.admits
          ⟨k, run, offset⟩ :: scan (some k) (offset + run.length) (rest.dropWhile k.admits)
        else scan previous (offset + 1) rest
termination_by t => t.length
decreasing_by
  all_goals simp only [List.length_cons]
  all_goals try omega
  exact Nat.lt_succ_of_le (List.dropWhile_sublist _).length_le

def ofText (t : Text) : List Token :=
  scan none 0 t

def ofPairs (ps : List (Kind × Text)) : List Token :=
  ps.zipIdx.map fun p => ⟨p.1.1, p.1.2, p.2⟩

@[simp] theorem ofText_nil : ofText [] = [] := by simp [ofText, scan]

end Token

end Synopsis
