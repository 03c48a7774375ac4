import Mathlib.Order.Bounds.Basic
import Synopsis.Proofs.EnclosureBalance

/-!
# Where the parameter section ends

The closing parenthesis of the parameter section stands at the least place up to which, counted from the
first opening one, as many parentheses close as open. Counting alone finds it: before that place every
prefix opens more than it closes, so what the two parentheses enclose balances.
-/

namespace Synopsis

namespace Enclosure

open Text

/-- The characters of `t` from place `i` up to place `j`, which is left out. -/
def slice (t : Text) (i j : Nat) : Text :=
  (t.take j).drop i

/-- From place `s` up to a later place `e`, both of which count, as many parentheses close as open. -/
structure ClosesAt (t : Text) (s e : Nat) : Prop where
  lt : s < e
  lt_length : e < t.length
  count_eq : (slice t s (e + 1)).count ')' = (slice t s (e + 1)).count '('

/-- What is told of a parameter section: its text, the place of its end, and what is wrong with it. -/
def told (x : Enclosure) : Option Text × Option Nat × List Issue :=
  (x.parameterText?, x.stop?, x.issues)

/-- The first `k + 1` characters of `t` close what they open and `depth + 1` parentheses more. -/
structure Exhausts (depth : Nat) (t : Text) (k : Nat) : Prop where
  lt_length : k < t.length
  count_eq : (t.take (k + 1)).count ')' = (t.take (k + 1)).count '(' + (depth + 1)

theorem Exhausts.tail_of_open {depth k : Nat} {t : Text} (h : Exhausts depth ('(' :: t) k) :
    ∃ j, Exhausts (depth + 1) t j := by
  have hcount := h.count_eq
  cases k with
  | zero => simp at hcount
  | succ j =>
      rw [List.take_succ_cons, List.count_cons_of_ne (by decide), List.count_cons_self] at hcount
      exact ⟨j, Nat.lt_of_succ_lt_succ h.lt_length, by omega⟩

theorem Exhausts.tail_of_close {depth k : Nat} {t : Text} (h : Exhausts (depth + 1) (')' :: t) k) :
    ∃ j, Exhausts depth t j := by
  have hcount := h.count_eq
  cases k with
  | zero => simp at hcount
  | succ j =>
      rw [List.take_succ_cons, List.count_cons_self, List.count_cons_of_ne (by decide)] at hcount
      exact ⟨j, Nat.lt_of_succ_lt_succ h.lt_length, by omega⟩

theorem Exhausts.tail_of_ne {depth k : Nat} {c : Char} {t : Text} (hopen : c ≠ '(') (hclose : c ≠ ')')
    (h : Exhausts depth (c :: t) k) : ∃ j, Exhausts depth t j := by
  have hcount := h.count_eq
  rw [List.take_succ_cons, List.count_cons_of_ne hclose, List.count_cons_of_ne hopen] at hcount
  cases k with
  | zero => simp at hcount
  | succ j => exact ⟨j, Nat.lt_of_succ_lt_succ h.lt_length, hcount⟩

/-- Where the walk finds no end, the counts never come out. -/
theorem not_exhausts_of_closing {depth : Nat} {t : Text} (h : closing depth t = none) (k : Nat) :
    ¬ Exhausts depth t k := by
  induction t generalizing depth k with
  | nil => exact fun hk => Nat.not_lt_zero k hk.lt_length
  | cons c t ih =>
      intro hk
      by_cases hopen : c = '('
      · subst hopen
        rw [closing_open, Option.map_eq_none_iff] at h
        obtain ⟨j, hj⟩ := hk.tail_of_open
        exact ih h j hj
      · by_cases hclose : c = ')'
        · subst hclose
          cases depth with
          | zero => cases h
          | succ depth =>
              rw [closing_succ_close, Option.map_eq_none_iff] at h
              obtain ⟨j, hj⟩ := hk.tail_of_close
              exact ih h j hj
        · rw [closing_cons_of_ne hopen hclose, Option.map_eq_none_iff] at h
          obtain ⟨j, hj⟩ := hk.tail_of_ne hopen hclose
          exact ih h j hj

theorem isLeast_exhausts {inside : Text} (h : Balanced inside) (tail : Text) :
    IsLeast {k | Exhausts 0 (inside ++ ')' :: tail) k} inside.length := by
  constructor
  · have htake : (inside ++ ')' :: tail).take (inside.length + 1) = inside ++ [')'] := by
      rw [List.take_length_add_append]
      rfl
    refine ⟨by simp, ?_⟩
    rw [htake, List.count_append, List.count_append, h.count_eq]
    rfl
  · intro k hk
    by_contra hlt
    have htake : (inside ++ ')' :: tail).take (k + 1) = inside.take (k + 1) :=
      List.take_append_of_le_length (by omega)
    have hle := h.count_le (inside.take (k + 1)) (List.take_prefix _ _)
    have hcount := hk.count_eq
    rw [htake] at hcount
    omega

theorem slice_append (s t : Text) (i j : Nat) : slice (s ++ t) (s.length + i) (s.length + j) = slice t i j := by
  unfold slice
  rw [List.take_length_add_append, List.drop_length_add_append]

theorem closesAt_append_open_iff (head rest : Text) (k : Nat) :
    ClosesAt (head ++ '(' :: rest) head.length (head.length + (1 + k)) ↔ Exhausts 0 rest k := by
  have hslice :
      slice (head ++ '(' :: rest) head.length (head.length + (1 + k) + 1) = '(' :: rest.take (k + 1) := by
    have h := slice_append head ('(' :: rest) 0 (1 + k + 1)
    rw [Nat.add_zero] at h
    rw [Nat.add_assoc, h, slice, List.drop_zero, Nat.add_comm 1, List.take_succ_cons]
  constructor
  · intro h
    have hlength := h.lt_length
    have hcount := h.count_eq
    rw [hslice, List.count_cons_of_ne (by decide), List.count_cons_self] at hcount
    rw [List.length_append, List.length_cons] at hlength
    exact ⟨by omega, hcount⟩
  · intro h
    refine ⟨by omega, ?_, ?_⟩
    · have hlength := h.lt_length
      rw [List.length_append, List.length_cons]
      omega
    · rw [hslice, List.count_cons_of_ne (by decide), List.count_cons_self, h.count_eq]

theorem exists_of_closesAt {head rest : Text} {e : Nat} (h : ClosesAt (head ++ '(' :: rest) head.length e) :
    ∃ k, e = head.length + (1 + k) ∧ Exhausts 0 rest k := by
  obtain ⟨k, rfl⟩ : ∃ k, e = head.length + (1 + k) := ⟨e - head.length - 1, by have := h.lt; omega⟩
  exact ⟨k, rfl, (closesAt_append_open_iff head rest k).mp h⟩

theorem idxOf_append_open {head : Text} (hhead : '(' ∉ head) (rest : Text) :
    (head ++ '(' :: rest).idxOf '(' = head.length := by
  rw [List.idxOf_append_of_notMem hhead, List.idxOf_cons_self, Nat.add_zero]

theorem ofText_eq_unterminated {t : Text} (hopen : '(' ∈ t) (h : ∀ e, ¬ ClosesAt t (t.idxOf '(') e) :
    ofText t = .unterminated := by
  obtain ⟨head, rest, rfl, hhead⟩ := List.eq_append_cons_of_mem hopen
  rw [idxOf_append_open hhead] at h
  rw [ofText_append_open hhead]
  cases hclosing : closing 0 rest with
  | none => rfl
  | some p =>
      obtain ⟨hrest, hinside⟩ := closing_eq_some_iff.mp hclosing
      have hleast := isLeast_exhausts hinside p.2
      rw [← hrest] at hleast
      exact absurd ((closesAt_append_open_iff head rest _).mpr hleast.1) (h _)

theorem isLeast_closesAt {t : Text} (hopen : '(' ∈ t) (h : ∃ e, ClosesAt t (t.idxOf '(') e) :
    ∃ e, IsLeast {e | ClosesAt t (t.idxOf '(') e} e ∧
      told (ofText t) = (some (trim (slice t (t.idxOf '(' + 1) e)), some e, []) ∧
      t[e]? = some ')' ∧ Balanced (slice t (t.idxOf '(' + 1) e) := by
  obtain ⟨head, rest, rfl, hhead⟩ := List.eq_append_cons_of_mem hopen
  obtain ⟨e, he⟩ := h
  rw [idxOf_append_open hhead] at he ⊢
  obtain ⟨k, rfl, hk⟩ := exists_of_closesAt he
  cases hclosing : closing 0 rest with
  | none => exact absurd hk (not_exhausts_of_closing hclosing k)
  | some p =>
      obtain ⟨inside, tail⟩ := p
      obtain ⟨rfl, hinside⟩ := closing_eq_some_iff.mp hclosing
      have hleast := isLeast_exhausts hinside tail
      have hslice : slice (head ++ '(' :: (inside ++ ')' :: tail)) (head.length + 1)
          (head.length + (1 + inside.length)) = inside := by
        rw [slice_append, slice, Nat.add_comm 1, List.take_succ_cons, List.take_left' rfl]
        rfl
      refine ⟨head.length + (1 + inside.length), ⟨?_, ?_⟩, ?_, ?_, ?_⟩
      · exact (closesAt_append_open_iff head _ _).mpr hleast.1
      · intro e' he'
        obtain ⟨k', rfl, hk'⟩ := exists_of_closesAt he'
        have hle := hleast.2 hk'
        omega
      · rw [hslice, ofText_append_enclosed hhead hinside, ← Nat.add_assoc]
        rfl
      · rw [List.getElem?_append_right (Nat.le_add_right _ _), Nat.add_sub_cancel_left, Nat.add_comm 1]
        simp
      · rwa [hslice]

theorem told_replace_head (t : Text) {head : Text} (hhead : '(' ∉ head) :
    told (ofText (head ++ t.drop (t.idxOf '('))) =
      ((ofText t).parameterText?, (ofText t).stop?.map fun e => e - t.idxOf '(' + head.length,
       (ofText t).issues) := by
  rcases open_cases t with hnone | ⟨before, rest, rfl, hbefore⟩
  · rw [List.idxOf_eq_length hnone, List.drop_length, List.append_nil, ofText_of_not_mem hnone,
      ofText_of_not_mem hhead]
    rfl
  · rw [idxOf_append_open hbefore, List.drop_left, ofText_append_open hhead, ofText_append_open hbefore]
    cases closing 0 rest with
    | none => rfl
    | some p =>
        have hshift : before.length + 1 + p.1.length - before.length + head.length =
            head.length + 1 + p.1.length := by omega
        simp [told, stop?, parameterText?, issues, hshift]

theorem told_replace_tail {t : Text} {e : Nat} (h : (ofText t).stop? = some e) (tail : Text) :
    told (ofText (t.take (e + 1) ++ tail)) = told (ofText t) := by
  cases hof : ofText t with
  | property => simp [hof, stop?] at h
  | unterminated => simp [hof, stop?] at h
  | enclosed head inside behind =>
      obtain ⟨rfl, hhead, hinside⟩ := ofText_eq_enclosed_iff.mp hof
      obtain rfl : head.length + 1 + inside.length = e := by simpa [hof, stop?] using h
      have htake : (head ++ '(' :: (inside ++ ')' :: behind)).take (head.length + 1 + inside.length + 1) =
          head ++ '(' :: (inside ++ [')']) := by
        rw [Nat.add_assoc, Nat.add_assoc, List.take_length_add_append, Nat.add_comm 1, List.take_succ_cons,
          List.take_length_add_append]
        rfl
      have hreplaced :
          head ++ '(' :: (inside ++ [')']) ++ tail = head ++ '(' :: (inside ++ ')' :: tail) := by simp
      rw [htake, hreplaced, ofText_append_enclosed hhead hinside]
      rfl

/-- The section begins at the first opening parenthesis and ends at the least place where the counts agree;
without the one there is none, and without the other it is reported. What stands before it and behind it
plays no part. -/
theorem ofText_finds_match (t : Text) :
    ('(' ∉ t → told (ofText t) = (none, none, [])) ∧
      ('(' ∈ t → (∃ e, ClosesAt t (t.idxOf '(') e) → ∃ e, IsLeast {e | ClosesAt t (t.idxOf '(') e} e ∧
        told (ofText t) = (some (trim (slice t (t.idxOf '(' + 1) e)), some e, []) ∧
        t[e]? = some ')' ∧ Balanced (slice t (t.idxOf '(' + 1) e)) ∧
      ('(' ∈ t → (¬ ∃ e, ClosesAt t (t.idxOf '(') e) →
        told (ofText t) = (none, none, [.missingClosingParenthesis])) ∧
      (∀ head, '(' ∉ head → told (ofText (head ++ t.drop (t.idxOf '('))) =
        ((ofText t).parameterText?, (ofText t).stop?.map fun e => e - t.idxOf '(' + head.length,
         (ofText t).issues)) ∧
      ∀ e tail, (ofText t).stop? = some e → told (ofText (t.take (e + 1) ++ tail)) = told (ofText t) := by
  refine ⟨?_, isLeast_closesAt, ?_, fun head hhead => told_replace_head t hhead,
    fun e tail h => told_replace_tail h tail⟩
  · intro hopen
    rw [ofText_of_not_mem hopen]
    rfl
  · intro hopen hnone
    rw [ofText_eq_unterminated hopen (not_exists.mp hnone)]
    rfl

/-- Stray closing parentheses before the section, nested ones in it, and both kinds behind it. -/
theorem ofText_finds_match_of_nested :
    ∃ t, t = ") f( a ((b)) ) : T ( )".toList ∧ '(' ∈ t ∧ ClosesAt t (t.idxOf '(') 13 ∧
      told (ofText t) = (some "a ((b))".toList, some 13, []) ∧ IsLeast {e | ClosesAt t (t.idxOf '(') e} 13 ∧
      told (ofText ("g".toList ++ t.drop (t.idxOf '('))) = (some "a ((b))".toList, some 11, []) := by
  have hcloses : ClosesAt ") f( a ((b)) ) : T ( )".toList (") f( a ((b)) ) : T ( )".toList.idxOf '(') 13 :=
    ⟨by decide, by decide, by decide⟩
  have htold : told (ofText ") f( a ((b)) ) : T ( )".toList) = (some "a ((b))".toList, some 13, []) := by decide
  obtain ⟨-, hclosed, -, hhead, -⟩ := ofText_finds_match ") f( a ((b)) ) : T ( )".toList
  obtain ⟨e, hleast, he, -, -⟩ := hclosed (by decide) ⟨13, hcloses⟩
  obtain rfl : 13 = e := by
    rw [htold] at he
    exact Option.some.inj (Prod.mk.inj (Prod.mk.inj he).2).1
  exact ⟨_, rfl, by decide, hcloses, htold, hleast, (hhead "g".toList (by decide)).trans (by decide)⟩

end Enclosure

end Synopsis
