import Synopsis.Proofs.YamlNodes
import Synopsis.Yaml.Datum

/-!
# Data of a written file

The mapping of a written file is filled first: its keys and its scalars get their values, and the lists under it
wait. Then each list is filled in turn. No key of the mapping is given twice, and none brings in other entries.
-/

namespace Synopsis

namespace Yaml

/-- The data of a value whose node has the number `id`. -/
def valueData (id : Nat) : Value → List Datum
  | .list items => .list (List.range' (id + 1) items.length) :: items.map .scalar
  | v => [.scalar v]

def fieldData (id : Nat) (e : Text × Value) : List Datum :=
  .scalar (.text e.1) :: valueData (id + 1) e.2

def fieldsData (id : Nat) : List (Text × Value) → List Datum
  | [] => []
  | e :: fields => fieldData id e ++ fieldsData (id + fieldSize e) fields

/-- Before a value is visited, nothing is known of it. -/
def blankValue : Value → List (Option Datum)
  | .list items => none :: items.map fun _ => none
  | _ => [none]

def blankField (e : Text × Value) : List (Option Datum) :=
  none :: blankValue e.2

/-- What is known of a value once the entries have been visited: a list is still empty. -/
def visitedValue : Value → List (Option Datum)
  | .list items => some (.list []) :: items.map fun _ => none
  | v => [some (.scalar v)]

def visitedField (e : Text × Value) : List (Option Datum) :=
  some (.scalar (.text e.1)) :: visitedValue e.2

def waitingValue (id : Nat) : Value → List Nat
  | .list _ => [id]
  | _ => []

def waitingIds (id : Nat) : List (Text × Value) → List Nat
  | [] => []
  | e :: fields => waitingValue (id + 1) e.2 ++ waitingIds (id + fieldSize e) fields

theorem length_visitedField (e : Text × Value) : (visitedField e).length = fieldSize e := by
  obtain ⟨key, value⟩ := e
  cases value <;> simp [visitedField, visitedValue, fieldSize]

theorem leafNode_scalar {v : Value} (hv : IsLeaf v) :
    ∃ tag c, leafNode v = ⟨tag, .scalar c⟩ ∧ scalarValue tag c = .ok v := by
  cases hv with
  | text t => exact ⟨_, _, rfl, by rw [scalarValue, Value.ofCodes_ofText]⟩
  | bool b =>
      rcases (IsLeaf.bool b).text_or_word with ⟨t, ht⟩ | ⟨w, hw⟩
      · cases ht
      · exact ⟨.ofPlain w, .ofText w, by rw [← hw.written 0]; rfl, hw.read⟩
  | digit h =>
      rcases (IsLeaf.digit h).text_or_word with ⟨t, ht⟩ | ⟨w, hw⟩
      · cases ht
      · exact ⟨.ofPlain w, .ofText w, by rw [← hw.written 0]; rfl, hw.read⟩

namespace Filling

def workAt (nodes : List Node) (data : List (Option Datum)) (waiting : List Nat) : Work :=
  ⟨nodes.toArray, data.toArray, waiting.toArray⟩

theorem get_run (w : Work) : (get : Filling Work) w = .ok (w, w) := rfl

theorem isScalar_of_scalarValue {tag : Tag} {c : Codes} {v : Value} (h : scalarValue tag c = .ok v) :
    tag.isScalar = true ∧ emptyOf? tag = none := by
  cases tag
  all_goals first | exact ⟨rfl, rfl⟩ | cases h

variable (npre npost : List Node) (pre post : List (Option Datum))

theorem nodeAt_append (n : Node) (data : List (Option Datum)) (waiting : List Nat) :
    nodeAt npre.length (workAt (npre ++ n :: npost) data waiting) =
      .ok (n, workAt (npre ++ n :: npost) data waiting) := by
  change Except.ok (Array.getD (npre ++ n :: npost).toArray npre.length .empty, _) = _
  simp

theorem setDatum_append (nodes : List Node) (d : Option Datum) (d' : Datum) (waiting : List Nat) :
    setDatum pre.length d' (workAt nodes (pre ++ d :: post) waiting) =
      .ok ((), workAt nodes (pre ++ some d' :: post) waiting) := by
  change Except.ok ((), _) = _
  simp [workAt]

theorem datum_append (nodes : List Node) (d : Option Datum) (waiting : List Nat) :
    (workAt nodes (pre ++ d :: post) waiting).data[pre.length]?.join = d := by
  simp [workAt]

theorem scalarAt_append {tag : Tag} {c : Codes} {v : Value} (hvalue : scalarValue tag c = .ok v)
    (data : List (Option Datum)) (waiting : List Nat) :
    scalarAt npre.length (workAt (npre ++ ⟨tag, .scalar c⟩ :: npost) data waiting) =
        .ok (v, workAt (npre ++ ⟨tag, .scalar c⟩ :: npost) data waiting) := by
  have htag := (isScalar_of_scalarValue hvalue).1
  have hscalar :
      ∀ fuel, scalarOf (fuel + 1) npre.length (workAt (npre ++ ⟨tag, .scalar c⟩ :: npost) data waiting) =
        .ok (c, workAt (npre ++ ⟨tag, .scalar c⟩ :: npost) data waiting) := by
    intro fuel
    rw [scalarOf, bind_of_ok (nodeAt_append _ _ _ _ _)]
    rfl
  rw [scalarAt, bind_of_ok (nodeAt_append _ _ _ _ _), htag, if_neg (by decide)]
  refine (bind_of_ok (get_run _)).trans ((bind_of_ok (hscalar _)).trans ?_)
  have hlift :
      (liftM (scalarValue tag c) : Filling Value) (workAt (npre ++ ⟨tag, .scalar c⟩ :: npost) data waiting) =
        .ok (v, workAt (npre ++ ⟨tag, .scalar c⟩ :: npost) data waiting) := by
    rw [hvalue]
    rfl
  cases tag
  all_goals exact hlift

theorem visit_scalar {tag : Tag} {c : Codes} {v : Value} (hvalue : scalarValue tag c = .ok v)
    (hlength : pre.length = npre.length) (waiting : List Nat) :
    visit npre.length (workAt (npre ++ ⟨tag, .scalar c⟩ :: npost) (pre ++ none :: post) waiting) =
      .ok ((), workAt (npre ++ ⟨tag, .scalar c⟩ :: npost) (pre ++ some (.scalar v) :: post) waiting) := by
  have hblank : ((workAt (npre ++ ⟨tag, .scalar c⟩ :: npost) (pre ++ none :: post) waiting).data[
      npre.length]?.join).isNone =
      true := by
    rw [← hlength, datum_append]
    rfl
  rw [visit, bind_of_ok (get_run _), hblank, if_pos rfl, bind_of_ok (nodeAt_append _ _ _ _ _),
    (isScalar_of_scalarValue hvalue).2]
  refine (bind_of_ok (scalarAt_append _ _ hvalue _ _)).trans ?_
  rw [← hlength]
  exact setDatum_append _ _ _ _ _ _

theorem visit_collection {n : Node} {d : Datum} (hempty : emptyOf? n.tag = some d)
    (hlength : pre.length = npre.length) (waiting : List Nat) :
    visit npre.length (workAt (npre ++ n :: npost) (pre ++ none :: post) waiting) =
      .ok ((), workAt (npre ++ n :: npost) (pre ++ some d :: post) (waiting ++ [npre.length])) := by
  have hblank :
      ((workAt (npre ++ n :: npost) (pre ++ none :: post) waiting).data[npre.length]?.join).isNone = true := by
    rw [← hlength, datum_append]
    rfl
  rw [visit, bind_of_ok (get_run _), hblank, if_pos rfl, bind_of_ok (nodeAt_append _ _ _ _ _), hempty]
  have hset := setDatum_append pre post (npre ++ n :: npost) none d waiting
  rw [hlength] at hset
  refine (bind_of_ok hset).trans ?_
  change Except.ok ((), _) = _
  simp [workAt]

theorem visit_leaf {v : Value} (hv : IsLeaf v) (hlength : pre.length = npre.length) (waiting : List Nat) :
    visit npre.length (workAt (npre ++ leafNode v :: npost) (pre ++ none :: post) waiting) =
      .ok ((), workAt (npre ++ leafNode v :: npost) (pre ++ some (.scalar v) :: post) waiting) := by
  obtain ⟨tag, c, hnode, hvalue⟩ := leafNode_scalar hv
  rw [hnode]
  exact visit_scalar npre npost pre post hvalue hlength waiting

theorem visit_value {v : Value} (hv : IsFlat v) (hlength : pre.length = npre.length) (waiting : List Nat) :
    visit npre.length (workAt (npre ++ (valueNodes npre.length v ++ npost))
      (pre ++ (blankValue v ++ post)) waiting) =
      .ok ((), workAt (npre ++ (valueNodes npre.length v ++ npost)) (pre ++ (visitedValue v ++ post))
        (waiting ++ waitingValue npre.length v)) := by
  cases hv with
  | leaf hleaf =>
      have h := visit_leaf npre npost pre post hleaf hlength waiting
      cases hleaf <;> simpa [valueNodes, blankValue, visitedValue, waitingValue] using h
  | list hitems => exact visit_collection npre _ pre _ rfl hlength waiting

theorem forM_visit {items : List Value} (hitems : ∀ v ∈ items, IsLeaf v) (hlength : pre.length = npre.length)
    (waiting : List Nat) :
    (List.range' npre.length items.length).forM visit
        (workAt (npre ++ (items.map leafNode ++ npost)) (pre ++ ((items.map fun _ => none) ++ post)) waiting) =
      .ok ((), workAt (npre ++ (items.map leafNode ++ npost))
        (pre ++ ((items.map fun v => some (.scalar v)) ++ post)) waiting) := by
  induction items generalizing npre pre with
  | nil => rfl
  | cons v items ih =>
      obtain ⟨hv, hitems⟩ := List.forall_mem_cons.mp hitems
      have hhead :=
        visit_leaf npre (items.map leafNode ++ npost) pre ((items.map fun _ => none) ++ post) hv hlength waiting
      have htail := ih (npre ++ [leafNode v]) (pre ++ [some (.scalar v)]) hitems (by simp [hlength])
      rw [List.length_cons, List.range'_succ]
      refine (bind_of_ok hhead).trans ?_
      simpa using htail

theorem isSameKey_texts {w : Work} {a b : Nat} {s t : Text} (hne : a ≠ b)
    (ha : w.data[a]?.join = some (.scalar (.text s)))
    (hb : w.data[b]?.join = some (.scalar (.text t))) (hst : s ≠ t) : isSameKey a b w = .ok (false, w) := by
  rw [isSameKey, if_neg hne]
  refine (bind_of_ok (get_run w)).trans ?_
  rw [ha, hb]
  change Except.ok (Datum.sameKey (.text s) (.text t), w) = _
  rw [Datum.sameKey, beq_false_of_ne hst]

theorem put_new {w : Work} {k v : Nat} {acc : List (Nat × Nat)}
    (h : ∀ e ∈ acc, isSameKey e.1 k w = .ok (false, w)) :
    put k v acc w = .ok (acc ++ [(k, v)], w) := by
  induction acc with
  | nil => rfl
  | cons e acc ih =>
      obtain ⟨he, hacc⟩ := List.forall_mem_cons.mp h
      rw [put, bind_of_ok he]
      exact bind_of_ok (ih hacc)

/-- The keys of the entries that have been put are other texts than the keys that are left. -/
def KeysApart (data : List (Option Datum)) (acc : List (Nat × Nat)) (left : List Text) : Prop :=
  ∀ p ∈ acc, ∃ key, data[p.1]? = some (some (.scalar (.text key))) ∧ key ∉ left

theorem KeysApart.put {acc : List (Nat × Nat)} {key : Text} {left : List Text}
    (h : KeysApart pre acc (key :: left)) (nodes : List Node) (waiting : List Nat) (v : Nat) :
    put pre.length v acc (workAt nodes (pre ++ some (.scalar (.text key)) :: post) waiting) =
      .ok (acc ++ [(pre.length, v)], workAt nodes (pre ++ some (.scalar (.text key)) :: post) waiting) := by
  refine put_new fun p hp => ?_
  obtain ⟨other, hdatum, hother⟩ := h p hp
  obtain ⟨hlt, -⟩ := List.getElem?_eq_some_iff.mp hdatum
  rw [List.mem_cons, not_or] at hother
  refine isSameKey_texts (Nat.ne_of_lt hlt) ?_ (datum_append _ _ _ _ _) hother.1
  rw [workAt, List.getElem?_toArray, List.getElem?_append_left hlt, hdatum]
  rfl

theorem KeysApart.step {acc : List (Nat × Nat)} {key : Text} {left : List Text}
    (h : KeysApart pre acc (key :: left)) (hkey : key ∉ left) (v : Nat) :
    KeysApart (pre ++ some (.scalar (.text key)) :: post) (acc ++ [(pre.length, v)]) left := by
  intro p hp
  rcases List.mem_append.mp hp with hp | hp
  · obtain ⟨other, hdatum, hother⟩ := h p hp
    obtain ⟨hlt, -⟩ := List.getElem?_eq_some_iff.mp hdatum
    exact ⟨other, by rw [List.getElem?_append_left hlt, hdatum],
      fun hmem => hother (List.mem_cons_of_mem key hmem)⟩
  · obtain rfl := List.mem_singleton.mp hp
    exact ⟨key, by simp, hkey⟩

theorem fillEntries_fields {fields : List (Text × Value)} (hvalue : ∀ e ∈ fields, IsFlat e.2)
    (hdistinct : (fields.map Prod.fst).Nodup) (acc : List (Nat × Nat))
    (hacc : KeysApart pre acc (fields.map Prod.fst))
    (hlength : pre.length = npre.length) (waiting : List Nat) :
    fillEntries acc (fieldsIds npre.length fields)
        (workAt (npre ++ fieldsNodes npre.length fields) (pre ++ fields.flatMap blankField) waiting) =
      .ok (acc ++ fieldsIds npre.length fields,
        workAt (npre ++ fieldsNodes npre.length fields) (pre ++ fields.flatMap visitedField)
          (waiting ++ waitingIds npre.length fields)) := by
  induction fields generalizing npre pre acc waiting with
  | nil =>
      simp [fieldsIds, waitingIds]
      rfl
  | cons e fields ih =>
      obtain ⟨hvalueHead, hvalue⟩ := List.forall_mem_cons.mp hvalue
      obtain ⟨hkey, hdistinct⟩ := List.nodup_cons.mp hdistinct
      rw [fieldsIds, fieldsNodes, waitingIds, List.flatMap_cons, List.flatMap_cons, fillEntries]
      have hkeyValue : scalarValue .text (.ofText e.1) = .ok (.text e.1) := by
        rw [scalarValue, Value.ofCodes_ofText]
      have hvisitKey :=
        visit_scalar npre (valueNodes (npre.length + 1) e.2 ++ fieldsNodes (npre.length + fieldSize e) fields)
        pre (blankValue e.2 ++ fields.flatMap blankField) hkeyValue hlength waiting
      have hvisitValue := visit_value (npre ++ [keyNode e.1]) (fieldsNodes (npre.length + fieldSize e) fields)
        (pre ++ [some (.scalar (.text e.1))]) (fields.flatMap blankField) hvalueHead (by simp [hlength]) waiting
      have hput := hacc.put pre (visitedValue e.2 ++ fields.flatMap blankField)
        (npre ++ keyNode e.1 ::
          (valueNodes (npre.length + 1) e.2 ++ fieldsNodes (npre.length + fieldSize e) fields))
        (waiting ++ waitingValue (npre.length + 1) e.2) (npre.length + 1)
      have hapart := hacc.step pre (visitedValue e.2) hkey (npre.length + 1)
      have hrest := ih (npre ++ fieldNodes npre.length e) (pre ++ visitedField e) hvalue hdistinct _ hapart
        (by rw [List.length_append, List.length_append, length_fieldNodes, length_visitedField, hlength])
        (waiting ++ waitingValue (npre.length + 1) e.2)
      simp only [List.append_assoc, List.singleton_append, List.length_append,
        List.length_singleton] at hvisitValue
      rw [hlength] at hput
      refine (bind_of_ok hvisitKey).trans ((bind_of_ok (get_run _)).trans ?_)
      rw [← hlength, datum_append, hlength]
      refine (bind_of_ok hvisitValue).trans ((bind_of_ok hput).trans ?_)
      rw [List.length_append, length_fieldNodes, hlength] at hrest
      simpa [visitedField, fieldNodes] using hrest

theorem exists_keyNode (npre : List Node) (fields : List (Text × Value)) :
    ∀ p ∈ fieldsIds npre.length fields,
      ∃ key, (npre ++ fieldsNodes npre.length fields)[p.1]? = some (keyNode key) := by
  induction fields generalizing npre with
  | nil => simp [fieldsIds]
  | cons e fields ih =>
      intro p hp
      rw [fieldsIds, List.mem_cons] at hp
      rcases hp with rfl | hp
      · exact ⟨e.1, by simp [fieldsNodes, fieldNodes]⟩
      · have hlength : (npre ++ fieldNodes npre.length e).length = npre.length + fieldSize e := by
          rw [List.length_append, length_fieldNodes]
        obtain ⟨key, hkey⟩ := ih (npre ++ fieldNodes npre.length e) p (by rwa [hlength])
        rw [hlength, List.append_assoc] at hkey
        exact ⟨key, hkey⟩

theorem nodeAt_of_getElem? {nodes : List Node} {id : Nat} {n : Node} (h : nodes[id]? = some n)
    (data : List (Option Datum)) (waiting : List Nat) :
    nodeAt id (workAt nodes data waiting) = .ok (n, workAt nodes data waiting) := by
  change Except.ok (Array.getD nodes.toArray id .empty, _) = _
  simp [h]

theorem takeMerge_none {w : Work} {entries : List (Nat × Nat)}
    (h : ∀ p ∈ entries, isMerge p.1 w = .ok (false, w))
    (before : List (Nat × Nat)) : takeMerge before entries w = .ok (none, w) := by
  induction entries generalizing before with
  | nil => rfl
  | cons p entries ih =>
      obtain ⟨hp, hentries⟩ := List.forall_mem_cons.mp h
      rw [takeMerge, bind_of_ok hp]
      exact ih hentries _

theorem settleKey_keyNode {nodes : List Node} {id : Nat} {key : Text} (h : nodes[id]? = some (keyNode key))
    (data : List (Option Datum)) (waiting : List Nat) :
    settleKey id (workAt nodes data waiting) = .ok ((), workAt nodes data waiting) := by
  have hmodify : nodes.toArray.modify id (fun n => if n.tag == .default then { n with tag := .text } else n) =
      nodes.toArray := by
    apply Array.ext
    · simp
    · intro i hi hi'
      rw [Array.getElem_modify]
      split
      next hid =>
        subst hid
        obtain ⟨hlt, hget⟩ := List.getElem?_eq_some_iff.mp h
        simp [hget, keyNode]
      next => rfl
  change Except.ok ((), ({ workAt nodes data waiting with nodes := nodes.toArray.modify id _ } : Work)) = _
  rw [hmodify]
  rfl

theorem forM_settleKey {w : Work} {entries : List (Nat × Nat)}
    (h : ∀ p ∈ entries, settleKey p.1 w = .ok ((), w)) :
    entries.forM (fun e => settleKey e.1) w = .ok ((), w) := by
  induction entries with
  | nil => rfl
  | cons p entries ih =>
      obtain ⟨hp, hentries⟩ := List.forall_mem_cons.mp h
      exact (bind_of_ok hp).trans (ih hentries)

theorem flatEntries_root (fields : List (Text × Value)) (data : List (Option Datum)) (waiting : List Nat) :
    flatEntries 0 (workAt (fileNodes fields) data waiting) =
      .ok (fieldsIds 1 fields, workAt (fileNodes fields) data waiting) := by
  have hkeys := exists_keyNode [⟨.mapping, .mapping (fieldsIds 1 fields)⟩] fields
  have hentries : entriesOf 0 (workAt (fileNodes fields) data waiting) =
      .ok (fieldsIds 1 fields, workAt (fileNodes fields) data waiting) := rfl
  have hmerge : takeMerge [] (fieldsIds 1 fields) (workAt (fileNodes fields) data waiting) =
      .ok (none, workAt (fileNodes fields) data waiting) := by
    refine takeMerge_none (fun p hp => ?_) []
    obtain ⟨key, hkey⟩ := hkeys p hp
    exact (bind_of_ok (nodeAt_of_getElem? hkey data waiting)).trans rfl
  have hsettle : (fieldsIds 1 fields).forM (fun e => settleKey e.1) (workAt (fileNodes fields) data waiting) =
      .ok ((), workAt (fileNodes fields) data waiting) := by
    refine forM_settleKey fun p hp => ?_
    obtain ⟨key, hkey⟩ := hkeys p hp
    exact settleKey_keyNode hkey data waiting
  have hflatten : ∀ fuel, 0 < fuel → flatten fuel 0 [] (workAt (fileNodes fields) data waiting) =
      .ok ((), workAt (fileNodes fields) data waiting) := by
    intro fuel hfuel
    obtain ⟨fuel, rfl⟩ := Nat.exists_eq_add_one_of_ne_zero (n := fuel) (by omega)
    rw [flatten, bind_of_ok hentries, bind_of_ok hmerge]
    exact (bind_of_ok hentries).trans ((bind_of_ok hsettle).trans rfl)
  rw [flatEntries, bind_of_ok (get_run _)]
  exact (bind_of_ok (hflatten _ (Nat.mul_pos (Nat.succ_pos _) (Nat.succ_pos _)))).trans hentries

/-- The mapping gets its entries; its lists wait. -/
theorem fill_root {fields : List (Text × Value)} (h : IsFile fields) (d : Option Datum) (waiting : List Nat) :
    fill 0 (workAt (fileNodes fields) (d :: fields.flatMap blankField) waiting) =
      .ok ((), workAt (fileNodes fields) (some (.object (fieldsIds 1 fields)) :: fields.flatMap visitedField)
        (waiting ++ waitingIds 1 fields)) := by
  have hnode : nodeAt 0 (workAt (fileNodes fields) (d :: fields.flatMap blankField) waiting) =
      .ok (⟨.mapping, .mapping (fieldsIds 1 fields)⟩,
        workAt (fileNodes fields) (d :: fields.flatMap blankField) waiting) := rfl
  have hentries := fillEntries_fields [⟨.mapping, .mapping (fieldsIds 1 fields)⟩] [d] h.value h.distinct []
    (fun p hp => by cases hp) rfl waiting
  rw [fill, bind_of_ok hnode]
  refine (bind_of_ok (flatEntries_root _ _ _)).trans ((bind_of_ok hentries).trans ?_)
  exact setDatum_append [] _ _ _ _ _

theorem fill_list {items : List Value} (hitems : ∀ v ∈ items, IsLeaf v) (hlength : pre.length = npre.length)
    (waiting : List Nat) :
    fill npre.length (workAt (npre ++ (valueNodes npre.length (.list items) ++ npost))
        (pre ++ (visitedValue (.list items) ++ post)) waiting) =
      .ok ((), workAt (npre ++ (valueNodes npre.length (.list items) ++ npost))
        (pre ++ ((valueData npre.length (.list items)).map some ++ post)) waiting) := by
  have hnode := nodeAt_append npre (items.map leafNode ++ npost)
    ⟨.sequence, .sequence (List.range' (npre.length + 1) items.length)⟩
      (pre ++ (visitedValue (.list items) ++ post)) waiting
  have hvisit :=
    forM_visit (npre ++ [⟨.sequence, .sequence (List.range' (npre.length + 1) items.length)⟩]) npost
    (pre ++ [some (.list [])]) post hitems (by simp [hlength]) waiting
  simp only [List.append_assoc, List.singleton_append, List.length_append, List.length_singleton] at hvisit
  have hset := setDatum_append pre ((items.map fun v => some (.scalar v)) ++ post)
    (npre ++ (valueNodes npre.length (.list items) ++ npost)) (some (.list []))
    (.list (List.range' (npre.length + 1) items.length)) waiting
  rw [hlength] at hset
  refine (bind_of_ok hnode).trans
    ((bind_of_ok ((bind_of_ok hnode).trans rfl)).trans ((bind_of_ok hvisit).trans ?_))
  refine hset.trans ?_
  simp [valueData, Function.comp_def]

theorem visitedField_leaf {e : Text × Value} (h : IsLeaf e.2) (id : Nat) :
    visitedField e = (fieldData id e).map some := by
  obtain ⟨key, value⟩ := e
  cases h <;> rfl

theorem length_fieldData (id : Nat) (e : Text × Value) : (fieldData id e).length = fieldSize e := by
  obtain ⟨key, value⟩ := e
  cases value <;> simp [fieldData, valueData, fieldSize]

theorem fillAll_end (nodes : List Node) (data : List (Option Datum)) (done : List Nat) (fuel : Nat) :
    fillAll fuel done.length (workAt nodes data done) = .ok ((), workAt nodes data done) := by
  cases fuel with
  | zero => rfl
  | succ fuel =>
      have hnone : (workAt nodes data done).waiting[done.length]? = none := by simp [workAt]
      rw [fillAll, bind_of_ok (get_run _), hnone]
      rfl

/-- The first collection that waits is filled, and the others follow. -/
theorem fillAll_next {nodes : List Node} {data : List (Option Datum)} {done left : List Nat} {id : Nat}
    {w : Work} (h : fill id (workAt nodes data (done ++ id :: left)) = .ok ((), w)) (fuel : Nat) :
    fillAll (fuel + 1) done.length (workAt nodes data (done ++ id :: left)) =
      fillAll fuel (done.length + 1) w := by
  have hnext : (workAt nodes data (done ++ id :: left)).waiting[done.length]? = some id := by simp [workAt]
  rw [fillAll, bind_of_ok (get_run _), hnext]
  exact bind_of_ok h

/-- The lists that wait are filled one after the other. -/
theorem fillAll_fields {fields : List (Text × Value)} (hvalue : ∀ e ∈ fields, IsFlat e.2)
    (hlength : pre.length = npre.length) (done : List Nat) (fuel : Nat)
    (hfuel : (waitingIds npre.length fields).length ≤ fuel) :
    fillAll fuel done.length (workAt (npre ++ fieldsNodes npre.length fields)
      (pre ++ fields.flatMap visitedField)
        (done ++ waitingIds npre.length fields)) =
      .ok ((), workAt (npre ++ fieldsNodes npre.length fields) (pre ++ (fieldsData npre.length fields).map some)
        (done ++ waitingIds npre.length fields)) := by
  induction fields generalizing npre pre done fuel with
  | nil => simpa [waitingIds, fieldsData] using fillAll_end (npre ++ fieldsNodes npre.length []) pre done fuel
  | cons e fields ih =>
      obtain ⟨hvalueHead, hvalue⟩ := List.forall_mem_cons.mp hvalue
      have hrest := fun (done : List Nat) (fuel : Nat) => ih (npre ++ fieldNodes npre.length e)
        (pre ++ (fieldData npre.length e).map some) hvalue
          (by simp [length_fieldNodes, length_fieldData, hlength]) done fuel
      simp only [List.length_append, length_fieldNodes] at hrest
      obtain ⟨key, value⟩ := e
      dsimp only at hvalueHead
      cases hvalueHead with
      | leaf hleaf =>
          have hwaiting : waitingIds npre.length ((key, value) :: fields) =
              waitingIds (npre.length + fieldSize (key, value)) fields := by
            cases hleaf <;> rfl
          rw [hwaiting] at hfuel ⊢
          have h := hrest done fuel hfuel
          rw [List.flatMap_cons, visitedField_leaf hleaf npre.length, fieldsNodes, fieldsData, List.map_append]
          simpa only [List.append_assoc] using h
      | @list items hitems =>
          have hwaiting : waitingIds npre.length ((key, .list items) :: fields) =
              (npre.length + 1) :: waitingIds (npre.length + fieldSize (key, .list items)) fields := rfl
          rw [hwaiting] at hfuel ⊢
          obtain ⟨fuel, rfl⟩ := Nat.exists_eq_add_one_of_ne_zero (n := fuel) (by rintro rfl; simp at hfuel)
          have hfill :=
            fill_list (npre ++ [keyNode key]) (fieldsNodes (npre.length + fieldSize (key, .list items)) fields)
            (pre ++ [some (.scalar (.text key))]) (fields.flatMap visitedField) hitems (by simp [hlength])
            (done ++ (npre.length + 1) :: waitingIds (npre.length + fieldSize (key, .list items)) fields)
          have h := hrest (done ++ [npre.length + 1]) fuel (by simpa using hfuel)
          simp only [List.append_assoc, List.singleton_append, List.length_append,
            List.length_singleton] at hfill h
          refine (fillAll_next hfill fuel).trans (h.trans ?_)
          rw [fieldsData, List.map_append]
          rfl

theorem length_waitingIds_le (id : Nat) (fields : List (Text × Value)) :
    (waitingIds id fields).length ≤ (fieldsNodes id fields).length := by
  induction fields generalizing id with
  | nil => exact Nat.le_refl 0
  | cons e fields ih =>
      have hfield : (waitingValue (id + 1) e.2).length ≤ fieldSize e := by
        obtain ⟨key, value⟩ := e
        cases value <;> simp [waitingValue, fieldSize]
      have hrest := ih (id + fieldSize e)
      rw [waitingIds, fieldsNodes, List.length_append, List.length_append, length_fieldNodes]
      omega

theorem replicate_fieldSize (e : Text × Value) : List.replicate (fieldSize e) none = blankField e := by
  obtain ⟨key, value⟩ := e
  cases value <;> simp [fieldSize, blankField, blankValue, List.replicate_succ, List.map_const']

theorem replicate_fieldsNodes (id : Nat) (fields : List (Text × Value)) :
    List.replicate (fieldsNodes id fields).length none = fields.flatMap blankField := by
  induction fields generalizing id with
  | nil => rfl
  | cons e fields ih =>
      rw [fieldsNodes, List.length_append, length_fieldNodes, ← List.replicate_append_replicate, ih,
        replicate_fieldSize, List.flatMap_cons]

end Filling

/-- The data of a written file: the mapping, and behind it those of its entries. -/
def fileData (fields : List (Text × Value)) : List Datum :=
  .object (fieldsIds 1 fields) :: fieldsData 1 fields

open Filling in
theorem data_fileNodes {fields : List (Text × Value)} (h : IsFile fields) :
    Graph.data ⟨(fileNodes fields).toArray, 0⟩ = .ok (fileData fields).toArray := by
  have hvisit : visit 0 (workAt (fileNodes fields) (none :: fields.flatMap blankField) []) =
      .ok ((), workAt (fileNodes fields) (some (.object []) :: fields.flatMap blankField) [0]) :=
    visit_collection [] _ [] _ rfl rfl []
  have hfill := fill_root h (some (.object [])) [0]
  have hlists :=
    fillAll_fields [⟨.mapping, .mapping (fieldsIds 1 fields)⟩] [some (.object (fieldsIds 1 fields))]
    h.value rfl [0] _ (length_waitingIds_le 1 fields)
  have hstart :
      (⟨(fileNodes fields).toArray, Array.replicate (fileNodes fields).toArray.size none, #[]⟩ : Work) =
        workAt (fileNodes fields) (none :: fields.flatMap blankField) [] := by
    rw [← replicate_fieldsNodes 1, ← List.replicate_succ, List.size_toArray, ← List.toArray_replicate]
    rfl
  have hrun : (do visit 0; fillAll (fileNodes fields).toArray.size 0 : Filling Unit)
      (workAt (fileNodes fields) (none :: fields.flatMap blankField) []) =
      .ok ((), workAt (fileNodes fields) ((fileData fields).map some) ([0] ++ waitingIds 1 fields)) := by
    refine (bind_of_ok hvisit).trans ?_
    have hsize : (fileNodes fields).toArray.size = (fieldsNodes 1 fields).length + 1 := rfl
    rw [hsize, fillAll]
    exact (bind_of_ok (get_run _)).trans ((bind_of_ok hfill).trans hlists)
  rw [Graph.data]
  dsimp only
  rw [hstart, StateT.run, hrun]
  change Except.ok (Array.map _ ((fileData fields).map some).toArray) = _
  simp

end Yaml

end Synopsis
