import Mathlib.Algebra.Order.Group.Int
import Mathlib.Data.List.Infix
import Synopsis.Proofs.EnclosureBalance
import Synopsis.Proofs.TextPieces

/-!
# Nesting of braces

Braces are nested when they open and close blocks in pairs. How far a text is from that is a matter of
counting. The largest surplus of closing braces that a beginning of the text has is the number of braces that
close nothing; what is open besides is never closed. The braces are nested when both numbers are zero.
-/

namespace Synopsis

namespace Braces

open Text

/-- Texts whose braces open and close blocks in pairs. -/
inductive Nested : Text → Prop
  | nil : Nested []
  | cons {c : Char} {x : Text} (hopen : c ≠ '{') (hclose : c ≠ '}') (hx : Nested x) : Nested (c :: x)
  | block {x y : Text} (hx : Nested x) (hy : Nested y) : Nested ('{' :: (x ++ '}' :: y))

/-- How many more braces are closed than opened. -/
def surplus (x : Text) : Int :=
  x.count '}' - x.count '{'

/-- The largest surplus of a beginning of the text; that of its empty beginning is zero. -/
def stray (x : Text) : Int :=
  x.inits.foldr (fun y most => max (surplus y) most) 0

/-- How many braces stay open behind the text, if none is below zero. -/
def unclosed (x : Text) : Int :=
  x.count '{' - x.count '}' + stray x

def isBrace (c : Char) : Bool :=
  c == '{' || c == '}'

def weight (c : Char) : Int :=
  if c = '}' then 1 else if c = '{' then -1 else 0

theorem not_isBrace_of_ne {c : Char} (hopen : c ≠ '{') (hclose : c ≠ '}') : isBrace c = false := by
  simpa [isBrace] using ⟨hopen, hclose⟩

theorem unclosed_eq (x : Text) : unclosed x = stray x - surplus x := by
  unfold unclosed surplus
  omega

@[simp] theorem surplus_nil : surplus [] = 0 := rfl

@[simp] theorem stray_nil : stray [] = 0 := rfl

theorem weight_open : weight '{' = -1 := rfl

theorem weight_close : weight '}' = 1 := rfl

theorem surplus_append (x y : Text) : surplus (x ++ y) = surplus x + surplus y := by
  unfold surplus
  rw [List.count_append, List.count_append]
  omega

theorem surplus_cons (c : Char) (x : Text) : surplus (c :: x) = weight c + surplus x := by
  unfold surplus weight
  rw [List.count_cons, List.count_cons]
  by_cases hclose : c = '}'
  · subst hclose
    simp
    omega
  · by_cases hopen : c = '{'
    · subst hopen
      simp
      omega
    · simp [hclose, hopen]

theorem weight_of_not_isBrace {c : Char} (hc : isBrace c = false) : weight c = 0 := by
  obtain ⟨hopen, hclose⟩ : c ≠ '{' ∧ c ≠ '}' := by simpa [isBrace] using hc
  rw [weight, if_neg hclose, if_neg hopen]

/-- Being the largest, said without the walk over the beginnings. -/
theorem stray_le_iff {x : Text} {m : Int} : stray x ≤ m ↔ 0 ≤ m ∧ ∀ y, y <+: x → surplus y ≤ m := by
  have hfold : ∀ ys : List Text, ys.foldr (fun y most => max (surplus y) most) 0 ≤ m ↔
      0 ≤ m ∧ ∀ y ∈ ys, surplus y ≤ m := by
    intro ys
    induction ys with
    | nil => simp
    | cons y ys ih =>
        rw [List.foldr_cons, max_le_iff, ih, List.forall_mem_cons]
        exact and_left_comm
  simp only [stray, hfold, List.mem_inits]

theorem stray_nonneg (x : Text) : 0 ≤ stray x :=
  (stray_le_iff.mp le_rfl).1

theorem surplus_le_stray (x : Text) : surplus x ≤ stray x :=
  (stray_le_iff.mp le_rfl).2 x (List.prefix_refl x)

theorem unclosed_nonneg (x : Text) : 0 ≤ unclosed x := by
  have h := surplus_le_stray x
  rw [unclosed_eq]
  omega

/-- One more character in front moves every surplus, and the empty beginning keeps its own. -/
theorem stray_cons (c : Char) (x : Text) : stray (c :: x) = max 0 (weight c + stray x) := by
  apply eq_of_forall_ge_iff
  intro m
  have hrest : weight c + stray x ≤ m ↔ stray x ≤ m - weight c := by omega
  rw [max_le_iff, hrest, stray_le_iff, stray_le_iff, Enclosure.forall_prefix_cons]
  constructor
  · rintro ⟨hm, -, hx⟩
    refine ⟨hm, ?_, ?_⟩
    · have h := hx [] List.nil_prefix
      rw [surplus_cons, surplus_nil] at h
      omega
    · intro y hy
      have h := hx y hy
      rw [surplus_cons] at h
      omega
  · rintro ⟨hm, -, hx⟩
    refine ⟨hm, hm, ?_⟩
    intro y hy
    have h := hx y hy
    rw [surplus_cons]
    omega

theorem unclosed_le_length (x : Text) : unclosed x ≤ x.length := by
  induction x with
  | nil => decide
  | cons c x ih =>
      have hnonneg := stray_nonneg x
      have hweight : -1 ≤ weight c := by
        unfold weight
        split_ifs <;> omega
      rw [unclosed_eq] at ih
      rw [unclosed_eq, stray_cons, surplus_cons, List.length_cons]
      omega

theorem stray_append (x y : Text) : stray (x ++ y) = max (stray x) (surplus x + stray y) := by
  induction x with
  | nil =>
      have h := stray_nonneg y
      rw [List.nil_append, stray_nil, surplus_nil]
      omega
  | cons c x ih =>
      rw [List.cons_append, stray_cons, ih, stray_cons, surplus_cons]
      omega

theorem stray_open (x : Text) : stray ('{' :: x) = max 0 (stray x - 1) := by
  rw [stray_cons, weight_open]
  omega

theorem stray_close (x : Text) : stray ('}' :: x) = stray x + 1 := by
  have h := stray_nonneg x
  rw [stray_cons, weight_close]
  omega

theorem stray_cons_of_not_isBrace {c : Char} (hc : isBrace c = false) (x : Text) :
    stray (c :: x) = stray x := by
  have h := stray_nonneg x
  rw [stray_cons, weight_of_not_isBrace hc]
  omega

theorem surplus_cons_of_not_isBrace {c : Char} (hc : isBrace c = false) (x : Text) :
    surplus (c :: x) = surplus x := by
  rw [surplus_cons, weight_of_not_isBrace hc]
  omega

theorem counts_filter (x : Text) :
    stray (x.filter isBrace) = stray x ∧ surplus (x.filter isBrace) = surplus x := by
  induction x with
  | nil => exact ⟨rfl, rfl⟩
  | cons c x ih =>
      obtain ⟨hstray, hsurplus⟩ := ih
      cases hc : isBrace c with
      | true =>
          rw [List.filter_cons_of_pos hc, stray_cons, stray_cons, surplus_cons, surplus_cons c x, hstray,
            hsurplus]
          exact ⟨rfl, rfl⟩
      | false =>
          rw [List.filter_cons_of_neg (by simp [hc]), stray_cons_of_not_isBrace hc,
            surplus_cons_of_not_isBrace hc]
          exact ⟨hstray, hsurplus⟩

theorem counts_append_of_forall {x : Text} (hx : ∀ c ∈ x, isBrace c = false) (y : Text) :
    stray (x ++ y) = stray y ∧ surplus (x ++ y) = surplus y := by
  induction x with
  | nil => exact ⟨rfl, rfl⟩
  | cons c x ih =>
      have hc := hx c List.mem_cons_self
      rw [List.cons_append, stray_cons_of_not_isBrace hc, surplus_cons_of_not_isBrace hc]
      exact ih fun d hd => hx d (List.mem_cons_of_mem c hd)

theorem Nested.counts {x : Text} (h : Nested x) : surplus x = 0 ∧ stray x = 0 := by
  induction h with
  | nil => exact ⟨rfl, rfl⟩
  | cons hopen hclose hx ih =>
      have hc := not_isBrace_of_ne hopen hclose
      rwa [surplus_cons_of_not_isBrace hc, stray_cons_of_not_isBrace hc]
  | @block x y hx hy ihx ihy =>
      obtain ⟨hsurplus, hstray⟩ := ihx
      obtain ⟨hsurplus', hstray'⟩ := ihy
      rw [surplus_cons, surplus_append, surplus_cons '}', weight_open, weight_close, stray_open, stray_append,
        stray_close, hsurplus, hstray, hsurplus', hstray']
      exact ⟨by omega, by omega⟩

/-- A text that closes what it opens and `depth` blocks more is made of nested texts with a closing brace
between any two of them. -/
theorem exists_nested_pieces (depth : Nat) (x : Text) (hsurplus : surplus x = depth)
    (hstray : stray x ≤ depth) :
    ∃ ts : List Text, ts.length = depth + 1 ∧ (∀ t ∈ ts, Nested t) ∧ x = ['}'].intercalate ts := by
  induction x generalizing depth with
  | nil =>
      have hdepth : depth = 0 := by
        rw [surplus_nil] at hsurplus
        omega
      exact ⟨[[]], by simp [hdepth], by simp [Nested.nil], by simp⟩
  | cons c x ih =>
      by_cases hopen : c = '{'
      · subst hopen
        rw [surplus_cons, weight_open] at hsurplus
        rw [stray_open] at hstray
        obtain ⟨ts, hlength, hts, hx⟩ := ih (depth + 1) (by omega) (by omega)
        obtain ⟨t, vs, rfl⟩ := List.exists_cons_of_length_eq_add_one hlength
        rw [List.length_cons, Nat.add_right_cancel_iff] at hlength
        obtain ⟨u, us, rfl⟩ := List.exists_cons_of_length_eq_add_one hlength
        obtain ⟨ht, hu, hus⟩ : Nested t ∧ Nested u ∧ ∀ v ∈ us, Nested v := by simpa using hts
        refine ⟨('{' :: (t ++ '}' :: u)) :: us, by simpa using hlength, ?_, ?_⟩
        · exact List.forall_mem_cons.mpr ⟨.block ht hu, hus⟩
        · have hfirst := intercalate_appendFirst ['}'] ('{' :: (t ++ ['}'])) (u :: us) (by simp)
          rw [hx, List.intercalate_cons_cons]
          simpa [appendFirst] using hfirst.symm
      · by_cases hclose : c = '}'
        · subst hclose
          have hnonneg := stray_nonneg x
          rw [surplus_cons, weight_close] at hsurplus
          rw [stray_close] at hstray
          obtain ⟨below, rfl⟩ : ∃ below, depth = below + 1 := ⟨depth - 1, by omega⟩
          obtain ⟨ts, hlength, hts, hx⟩ := ih below (by omega) (by omega)
          have hne : ts ≠ [] := by
            rintro rfl
            cases hlength
          refine ⟨[] :: ts, by simpa using hlength, List.forall_mem_cons.mpr ⟨.nil, hts⟩, ?_⟩
          rw [List.intercalate_cons_of_ne_nil hne, hx]
          rfl
        · have hc := not_isBrace_of_ne hopen hclose
          rw [surplus_cons_of_not_isBrace hc] at hsurplus
          rw [stray_cons_of_not_isBrace hc] at hstray
          obtain ⟨ts, hlength, hts, hx⟩ := ih depth hsurplus hstray
          obtain ⟨t, us, rfl⟩ := List.exists_cons_of_length_eq_add_one hlength
          obtain ⟨ht, hus⟩ := List.forall_mem_cons.mp hts
          refine ⟨(c :: t) :: us, hlength, List.forall_mem_cons.mpr ⟨.cons hopen hclose ht, hus⟩, ?_⟩
          have hfirst := intercalate_appendFirst ['}'] [c] (t :: us) (by simp)
          rw [hx]
          exact hfirst.symm

/-- Braces are nested exactly when none closes nothing and none stays open. -/
theorem nested_iff {x : Text} : Nested x ↔ stray x = 0 ∧ unclosed x = 0 := by
  rw [unclosed_eq]
  constructor
  · intro h
    obtain ⟨hsurplus, hstray⟩ := h.counts
    exact ⟨hstray, by omega⟩
  · rintro ⟨hstray, hunclosed⟩
    obtain ⟨ts, hlength, hts, rfl⟩ := exists_nested_pieces 0 x (by omega) (by omega)
    obtain ⟨t, rfl⟩ := List.length_eq_one_iff.mp hlength
    simpa using hts

end Braces

end Synopsis
