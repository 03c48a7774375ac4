import Synopsis.Proofs.YamlData
import Synopsis.Yaml.Read

/-!
# The value of a written file

Each datum of a written file is put together from data that come behind it. One pass over all data from the last
to the first so finds every value, and that of the mapping is the object that was written.
-/

namespace Synopsis

namespace Yaml

namespace Known

/-- Data from the number `id` on have these values, each put together from the ones behind it. -/
inductive Assembles : (id : Nat) → List Datum → List Value → Prop
  | nil (id : Nat) : Assembles id [] []
  | cons {id : Nat} {d : Datum} {v : Value} {ds : List Datum} {vs : List Value}
      (head : ∀ part : Nat → Option Value, (∀ i v, vs[i]? = some v → part (id + 1 + i) = some v) →
        d.assemble part = some v)
      (tail : Assembles (id + 1) ds vs) : Assembles id (d :: ds) (v :: vs)

theorem Assembles.length_eq {id : Nat} {ds : List Datum} {vs : List Value} (h : Assembles id ds vs) :
    ds.length = vs.length := by
  induction h with
  | nil => rfl
  | cons head tail ih => rw [List.length_cons, List.length_cons, ih]

def knownFrom (id : Nat) (vs : List Value) : Known :=
  (List.replicate id none ++ vs.map some).toArray

theorem get?_knownFrom (id i : Nat) (vs : List Value) : (knownFrom id vs).get? (id + i) = vs[i]? := by
  have hget : (List.replicate id none ++ vs.map some)[id + i]? = (vs.map some)[i]? := by
    rw [List.getElem?_append_right (by simp), List.length_replicate, Nat.add_sub_cancel_left]
  rw [get?, knownFrom, Array.getD_eq_getD_getElem?, List.getElem?_toArray, hget, List.getElem?_map]
  cases vs[i]? <;> rfl

theorem get?_knownFrom_succ (id : Nat) (vs : List Value) : (knownFrom (id + 1) vs).get? id = none := by
  rw [get?, knownFrom, Array.getD_eq_getD_getElem?, List.getElem?_toArray, List.getElem?_append_left (by simp)]
  simp

/-- The datum before those that are known is put together from them. -/
theorem extend_knownFrom {data : Array Datum} {id : Nat} {d : Datum} {v : Value} {vs : List Value}
    (hdata : data.getD id (.list []) = d) (hvalue : d.assemble (knownFrom (id + 1) vs).get? = some v) :
    extend data id (knownFrom (id + 1) vs) = knownFrom id (v :: vs) := by
  rw [extend, get?_knownFrom_succ, hdata, hvalue, if_neg (by decide)]
  simp [knownFrom, List.replicate_succ']

theorem foldr_extend {data : List Datum} {id : Nat} {ds : List Datum} {vs : List Value} (h : Assembles id ds vs)
    (pre : List Datum) (hdata : data = pre ++ ds) (hid : pre.length = id) :
    (List.range' id ds.length).foldr (extend data.toArray) (Array.replicate data.length none) =
      knownFrom id vs := by
  induction h generalizing pre with
  | nil id =>
      subst hdata
      simp [knownFrom, hid]
  | @cons id d v ds vs head tail ih =>
      have hrest := ih (pre ++ [d]) (by rw [hdata, List.append_assoc, List.singleton_append])
        (by rw [List.length_append, hid, List.length_singleton])
      rw [List.length_cons, List.range'_succ, List.foldr_cons, hrest]
      refine extend_knownFrom ?_ (head _ fun i v hi => by rw [get?_knownFrom, hi])
      subst hdata hid
      simp

theorem extend_of_known (data : Array Datum) {id : Nat} {vs : List Value} (h : id < vs.length) :
    extend data id (knownFrom 0 vs) = knownFrom 0 vs := by
  have hknown := get?_knownFrom 0 id vs
  rw [Nat.zero_add, List.getElem?_eq_getElem h] at hknown
  rw [extend, hknown]
  rfl

theorem close_of_known (data : Array Datum) {vs : List Value} (hlength : data.size = vs.length) (fuel : Nat) :
    close data fuel (knownFrom 0 vs) = knownFrom 0 vs := by
  have hfoldr : ∀ ids : List Nat, (∀ id ∈ ids, id < vs.length) →
      ids.foldr (extend data) (knownFrom 0 vs) = knownFrom 0 vs := by
    intro ids hids
    induction ids with
    | nil => rfl
    | cons id ids ih =>
        obtain ⟨hid, hids⟩ := List.forall_mem_cons.mp hids
        rw [List.foldr_cons, ih hids, extend_of_known data hid]
  cases fuel with
  | zero => rfl
  | succ fuel =>
      rw [close, hfoldr _ (fun id hid => by rw [← hlength]; exact List.mem_range.mp hid)]
      simp

/-- Data that are put together from those behind them are all known. -/
theorem ofData_of_assembles {ds : List Datum} {vs : List Value} (h : Assembles 0 ds vs) (hne : ds ≠ []) :
    ofData ds.toArray = knownFrom 0 vs := by
  have hpass := foldr_extend h [] (List.nil_append ds).symm rfl
  obtain ⟨n, hn⟩ := Nat.exists_eq_add_one_of_ne_zero (fun hzero => hne (List.length_eq_zero_iff.mp hzero))
  rw [← List.range_eq_range'] at hpass
  rw [ofData, List.size_toArray, hn, close, List.size_toArray, ← hn, hpass]
  split
  next hsize =>
    have hall : (knownFrom 0 vs).size = vs.length := by simp [size, knownFrom, Function.comp_def]
    have hnone : size (Array.replicate ds.length none) = 0 := by simp [size]
    have := h.length_eq
    omega
  next => exact close_of_known _ h.length_eq n

theorem mapM_range'_eq_some {part : Nat → Option Value} (id : Nat) {items : List Value}
    (h : ∀ i v, items[i]? = some v → part (id + i) = some v) :
    (List.range' id items.length).mapM part = some items := by
  induction items generalizing id with
  | nil => rfl
  | cons v items ih =>
      have hhead : part id = some v := h 0 v rfl
      have htail := ih (id + 1) fun i v hi => by
        rw [Nat.add_assoc, Nat.add_comm 1]
        exact h (i + 1) v hi
      rw [List.length_cons, List.range'_succ, List.mapM_cons, hhead, htail]
      rfl

theorem assembles_scalars (id : Nat) {items : List Value} {ds : List Datum} {vs : List Value}
    (h : Assembles (id + items.length) ds vs) : Assembles id (items.map .scalar ++ ds) (items ++ vs) := by
  induction items generalizing id with
  | nil => exact h
  | cons v items ih =>
      refine .cons (fun part _ => rfl) (ih (id + 1) ?_)
      rwa [List.length_cons, Nat.add_comm items.length, ← Nat.add_assoc] at h

end Known

def valueParts : Value → List Value
  | .list items => .list items :: items
  | v => [v]

def fieldParts (e : Text × Value) : List Value :=
  .text e.1 :: valueParts e.2

theorem length_fieldParts (e : Text × Value) : (fieldParts e).length = fieldSize e := by
  obtain ⟨key, value⟩ := e
  cases value <;> simp [fieldParts, valueParts, fieldSize]

theorem fieldParts_eq (e : Text × Value) : ∃ more, fieldParts e = .text e.1 :: e.2 :: more := by
  obtain ⟨key, value⟩ := e
  cases value <;> exact ⟨_, rfl⟩

open Known

theorem assembles_fields (id : Nat) (fields : List (Text × Value)) :
    Assembles id (fieldsData id fields) (fields.flatMap fieldParts) := by
  induction fields generalizing id with
  | nil => exact .nil id
  | cons e fields ih =>
      have hrest := ih (id + fieldSize e)
      obtain ⟨key, value⟩ := e
      rw [fieldsData, List.flatMap_cons]
      refine .cons (fun part _ => rfl) ?_
      cases value with
      | list items =>
          have hid : id + fieldSize (key, .list items) = id + 1 + 1 + items.length := by
            simp only [fieldSize]
            omega
          refine .cons (fun part hpart => ?_) (assembles_scalars _ (hid ▸ hrest))
          have hitems := mapM_range'_eq_some (id + 1 + 1) fun i v (hi : items[i]? = some v) =>
            hpart i v ((List.getElem?_append_left (List.getElem?_eq_some_iff.mp hi).1).trans hi)
          exact congrArg (Option.map Value.list) hitems
      | _ => exact .cons (fun part _ => rfl) hrest

theorem mapM_fieldsIds {part : Nat → Option Value} (id : Nat) {fields : List (Text × Value)}
    (h : ∀ i v, (fields.flatMap fieldParts)[i]? = some v → part (id + i) = some v) :
    ((fieldsIds id fields).mapM fun e => return (← part e.1, ← part e.2)) =
      some (fields.map fun e => (Value.text e.1, e.2)) := by
  induction fields generalizing id with
  | nil => rfl
  | cons e fields ih =>
      obtain ⟨more, hparts⟩ := fieldParts_eq e
      have hkey : part id = some (.text e.1) := h 0 _ (by rw [List.flatMap_cons, hparts]; rfl)
      have hvalue : part (id + 1) = some e.2 := h 1 _ (by rw [List.flatMap_cons, hparts]; rfl)
      have hrest := ih (id + fieldSize e) fun i v hi => by
        rw [Nat.add_assoc]
        refine h (fieldSize e + i) v ?_
        rw [List.flatMap_cons, ← length_fieldParts, List.getElem?_append_right (Nat.le_add_right _ _),
          Nat.add_sub_cancel_left, hi]
      rw [fieldsIds, List.mapM_cons, hkey, hvalue, hrest]
      rfl

theorem assembles_fileData (fields : List (Text × Value)) :
    Assembles 0 (fileData fields) (fileOf fields :: fields.flatMap fieldParts) := by
  refine .cons (fun part hpart => ?_) (assembles_fields 1 fields)
  have hentries := mapM_fieldsIds 1 hpart
  exact congrArg (Option.map Value.object) hentries

/-- The value of the file is the object that was written. -/
theorem valueOf_fileData (fields : List (Text × Value)) :
    valueOf (fileData fields).toArray 0 = fileOf fields := by
  have hknown : (ofData (fileData fields).toArray).get? 0 = some (fileOf fields) := by
    rw [ofData_of_assembles (assembles_fileData fields) (List.cons_ne_nil _ _)]
    exact get?_knownFrom 0 0 _
  rw [valueOf, Known.value, hknown]

end Yaml

end Synopsis
