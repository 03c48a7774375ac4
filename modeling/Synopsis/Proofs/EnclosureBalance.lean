import Mathlib.Data.List.DropRight
import Mathlib.Data.List.Infix
import Synopsis.Enclosure

/-!
# The matching parenthesis

A text balances when it closes every parenthesis that it opens and at no point closes one that it did
not open. The parenthesis that matches the first opening one is the one behind a balanced text, and
there is at most one such place. Counting decides it: the number of closing parentheses in a prefix
against the number of opening ones.
-/

namespace Synopsis

namespace Enclosure

/-- `x` closes what it opens and `depth` parentheses more, and no prefix of it closes more than that. -/
structure BalancedFrom (depth : Nat) (x : Text) : Prop where
  count_eq : x.count ')' = x.count '(' + depth
  count_le : ∀ y, y <+: x → y.count ')' ≤ y.count '(' + depth

def Balanced (x : Text) : Prop :=
  BalancedFrom 0 x

/-- The first opening parenthesis has no match. -/
def Unterminated (t : Text) : Prop :=
  ∃ head rest, t = head ++ '(' :: rest ∧ '(' ∉ head ∧
    ∀ inside tail, rest = inside ++ ')' :: tail → ¬ Balanced inside

theorem forall_prefix_cons {P : Text → Prop} {c : Char} {x : Text} :
    (∀ y, y <+: c :: x → P y) ↔ P [] ∧ ∀ y, y <+: x → P (c :: y) := by
  constructor
  · intro h
    exact ⟨h [] List.nil_prefix, fun y hy => h (c :: y) ((List.prefix_cons_inj c).mpr hy)⟩
  · rintro ⟨hnil, hcons⟩ y hy
    rcases List.prefix_cons_iff.mp hy with rfl | ⟨z, rfl, hz⟩
    · exact hnil
    · exact hcons z hz

theorem balancedFrom_iff {depth : Nat} {x : Text} : BalancedFrom depth x ↔
    x.count ')' = x.count '(' + depth ∧ ∀ y, y <+: x → y.count ')' ≤ y.count '(' + depth :=
  ⟨fun h => ⟨h.count_eq, h.count_le⟩, fun h => ⟨h.1, h.2⟩⟩

instance (depth : Nat) (x : Text) : Decidable (BalancedFrom depth x) :=
  decidable_of_iff (x.count ')' = x.count '(' + depth ∧ ∀ y ∈ x.inits, y.count ')' ≤ y.count '(' + depth)
    (by simp only [List.mem_inits, balancedFrom_iff])

instance (x : Text) : Decidable (Balanced x) :=
  inferInstanceAs (Decidable (BalancedFrom 0 x))

theorem balancedFrom_nil {depth : Nat} : BalancedFrom depth [] ↔ depth = 0 := by
  rw [balancedFrom_iff]
  simp [eq_comm]

theorem balancedFrom_open {depth : Nat} {x : Text} :
    BalancedFrom depth ('(' :: x) ↔ BalancedFrom (depth + 1) x := by
  rw [balancedFrom_iff, balancedFrom_iff, forall_prefix_cons]
  simp [Nat.add_comm, Nat.add_left_comm]

theorem balancedFrom_succ_close {depth : Nat} {x : Text} :
    BalancedFrom (depth + 1) (')' :: x) ↔ BalancedFrom depth x := by
  rw [balancedFrom_iff, balancedFrom_iff, forall_prefix_cons]
  simp [← Nat.add_assoc]

theorem not_balancedFrom_zero_close {x : Text} : ¬ BalancedFrom 0 (')' :: x) := by
  intro h
  have hle := h.count_le [')'] ⟨x, rfl⟩
  simp at hle

theorem balancedFrom_cons_of_ne {depth : Nat} {c : Char} {x : Text} (hopen : c ≠ '(') (hclose : c ≠ ')') :
    BalancedFrom depth (c :: x) ↔ BalancedFrom depth x := by
  rw [balancedFrom_iff, balancedFrom_iff, forall_prefix_cons]
  simp [List.count_cons_of_ne, hopen, hclose]

theorem balanced_of_not_mem {x : Text} (hopen : '(' ∉ x) (hclose : ')' ∉ x) : Balanced x := by
  constructor
  · rw [List.count_eq_zero.mpr hopen, List.count_eq_zero.mpr hclose]
  · intro y hy
    rw [List.count_eq_zero.mpr fun hmem => hclose (hy.subset hmem)]
    exact Nat.zero_le _

theorem closing_open (depth : Nat) (t : Text) :
    closing depth ('(' :: t) = (closing (depth + 1) t).map fun p => ('(' :: p.1, p.2) := by
  rw [closing]

theorem closing_zero_close (t : Text) : closing 0 (')' :: t) = some ([], t) := rfl

theorem closing_succ_close (depth : Nat) (t : Text) :
    closing (depth + 1) (')' :: t) = (closing depth t).map fun p => (')' :: p.1, p.2) := rfl

theorem closing_cons_of_ne {c : Char} (hopen : c ≠ '(') (hclose : c ≠ ')') (depth : Nat) (t : Text) :
    closing depth (c :: t) = (closing depth t).map fun p => (c :: p.1, p.2) := by
  cases depth <;> rw [closing] <;> simp_all

/-- A character that the walk takes over counts on both sides. -/
theorem closing_cons_eq_some_iff {depth depth' : Nat} {c : Char} {t inside tail : Text}
    (hstep : closing depth (c :: t) = (closing depth' t).map fun p => (c :: p.1, p.2))
    (hbalance : ∀ x, BalancedFrom depth (c :: x) ↔ BalancedFrom depth' x)
    (hnil : c = ')' → ¬ BalancedFrom depth [])
    (ih : ∀ inside tail, closing depth' t = some (inside, tail) ↔
      t = inside ++ ')' :: tail ∧ BalancedFrom depth' inside) :
    closing depth (c :: t) = some (inside, tail) ↔
      c :: t = inside ++ ')' :: tail ∧ BalancedFrom depth inside := by
  rw [hstep, Option.map_eq_some_iff]
  constructor
  · rintro ⟨⟨rest, tail'⟩, hclosing, hp⟩
    obtain ⟨rfl, rfl⟩ := Prod.mk.inj hp
    obtain ⟨rfl, hrest⟩ := (ih rest tail').mp hclosing
    exact ⟨rfl, (hbalance rest).mpr hrest⟩
  · rintro ⟨ht, hinside⟩
    cases inside with
    | nil => exact absurd hinside (hnil (List.cons.inj ht).1)
    | cons d rest =>
        obtain ⟨rfl, hrest⟩ := List.cons.inj ht
        exact ⟨(rest, tail), (ih rest tail).mpr ⟨hrest, (hbalance rest).mp hinside⟩, rfl⟩

/-- The walk stops at the one place behind a balanced text. -/
theorem closing_eq_some_iff {depth : Nat} {t inside tail : Text} :
    closing depth t = some (inside, tail) ↔ t = inside ++ ')' :: tail ∧ BalancedFrom depth inside := by
  induction t generalizing depth inside tail with
  | nil =>
      cases depth <;> simp [closing]
  | cons c t ih =>
      by_cases hopen : c = '('
      · subst hopen
        exact closing_cons_eq_some_iff (closing_open depth t) (fun x => balancedFrom_open)
          (fun h => absurd h (by decide)) (fun _ _ => ih)
      · by_cases hclose : c = ')'
        · subst hclose
          cases depth with
          | zero =>
              rw [closing_zero_close]
              constructor
              · rintro h
                cases h
                exact ⟨rfl, balancedFrom_nil.mpr rfl⟩
              · rintro ⟨ht, hinside⟩
                cases inside with
                | nil => rw [(List.cons.inj ht).2]
                | cons d rest =>
                    rw [← (List.cons.inj ht).1] at hinside
                    exact absurd hinside not_balancedFrom_zero_close
          | succ depth =>
              refine closing_cons_eq_some_iff (closing_succ_close depth t) (fun x => balancedFrom_succ_close)
                (fun _ h => ?_) (fun _ _ => ih)
              exact absurd (balancedFrom_nil.mp h) (Nat.succ_ne_zero depth)
        · exact closing_cons_eq_some_iff (closing_cons_of_ne hopen hclose depth t)
            (fun x => balancedFrom_cons_of_ne hopen hclose) (fun h => absurd h hclose) (fun _ _ => ih)

theorem closing_eq_none_iff {depth : Nat} {t : Text} :
    closing depth t = none ↔ ∀ inside tail, t = inside ++ ')' :: tail → ¬ BalancedFrom depth inside := by
  rw [Option.eq_none_iff_forall_ne_some]
  constructor
  · intro h inside tail ht hinside
    exact h (inside, tail) (closing_eq_some_iff.mpr ⟨ht, hinside⟩)
  · rintro h ⟨inside, tail⟩ hclosing
    obtain ⟨ht, hinside⟩ := closing_eq_some_iff.mp hclosing
    exact h inside tail ht hinside

/-- Every text is free of opening parentheses or has a first one. -/
theorem open_cases (t : Text) : '(' ∉ t ∨ ∃ head rest, t = head ++ '(' :: rest ∧ '(' ∉ head := by
  by_cases h : '(' ∈ t
  · exact .inr (List.eq_append_cons_of_mem h)
  · exact .inl h

theorem ofText_of_not_mem {t : Text} (h : '(' ∉ t) : ofText t = .property := by
  have hne : ∀ c ∈ t, (c != '(') = true := fun c hc => by
    simpa using fun heq : c = '(' => h (heq ▸ hc)
  simp [ofText, List.dropWhile_eq_nil_iff.mpr hne]

theorem ofText_append_open {head : Text} (hhead : '(' ∉ head) (rest : Text) :
    ofText (head ++ '(' :: rest) = (closing 0 rest).elim .unterminated fun p => .enclosed head p.1 p.2 := by
  have hne : ∀ c ∈ head, (c != '(') = true := fun c hc => by
    simpa using fun heq : c = '(' => hhead (heq ▸ hc)
  have hdrop : (head ++ '(' :: rest).dropWhile (· != '(') = '(' :: rest := by
    rw [List.dropWhile_append_of_pos hne]
    simp
  have htake : (head ++ '(' :: rest).takeWhile (· != '(') = head := by
    rw [List.takeWhile_append_of_pos hne]
    simp
  simp only [ofText, hdrop, htake]
  cases closing 0 rest <;> rfl

theorem ofText_eq_property_iff {t : Text} : ofText t = .property ↔ '(' ∉ t := by
  refine ⟨?_, ofText_of_not_mem⟩
  rcases open_cases t with h | ⟨head, rest, rfl, hhead⟩
  · exact fun _ => h
  · rw [ofText_append_open hhead]
    cases closing 0 rest <;> simp

theorem ofText_append_enclosed {head inside : Text} (hhead : '(' ∉ head) (hinside : Balanced inside)
    (tail : Text) :
    ofText (head ++ '(' :: (inside ++ ')' :: tail)) = .enclosed head inside tail := by
  rw [ofText_append_open hhead, closing_eq_some_iff.mpr ⟨rfl, hinside⟩, Option.elim_some]

/-- What a declaration encloses is the balanced text behind its first opening parenthesis. -/
theorem ofText_eq_enclosed_iff {t head inside tail : Text} : ofText t = .enclosed head inside tail ↔
    t = head ++ '(' :: (inside ++ ')' :: tail) ∧ '(' ∉ head ∧ Balanced inside := by
  constructor
  · intro h
    rcases open_cases t with hnone | ⟨before, rest, rfl, hbefore⟩
    · rw [ofText_of_not_mem hnone] at h
      cases h
    · rw [ofText_append_open hbefore] at h
      cases hclosing : closing 0 rest with
      | none => simp [hclosing] at h
      | some p =>
          rw [hclosing] at h
          cases h
          obtain ⟨hrest, hinside⟩ := closing_eq_some_iff.mp hclosing
          exact ⟨by rw [hrest], hbefore, hinside⟩
  · rintro ⟨rfl, hhead, hinside⟩
    exact ofText_append_enclosed hhead hinside tail

theorem ofText_eq_unterminated_iff {t : Text} : ofText t = .unterminated ↔ Unterminated t := by
  constructor
  · intro h
    rcases open_cases t with hnone | ⟨head, rest, rfl, hhead⟩
    · rw [ofText_of_not_mem hnone] at h
      cases h
    · rw [ofText_append_open hhead] at h
      cases hclosing : closing 0 rest with
      | none => exact ⟨head, rest, rfl, hhead, closing_eq_none_iff.mp hclosing⟩
      | some p => simp [hclosing] at h
  · rintro ⟨head, rest, rfl, hhead, hrest⟩
    rw [ofText_append_open hhead, closing_eq_none_iff.mpr hrest, Option.elim_none]

end Enclosure

end Synopsis
