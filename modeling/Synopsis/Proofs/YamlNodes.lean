import Synopsis.Proofs.YamlTokens
import Synopsis.Yaml.Node

/-!
# Nodes of a written file

The tokens of a written file make one mapping, the first node. Behind it come the nodes of its entries: that of
the key, that of the value, and those of the items where the value is a list.
-/

namespace Synopsis

namespace Yaml

def leafNode : Value → Node
  | .text t => ⟨.text, .scalar (.ofText t)⟩
  | v => ⟨.ofPlain (scalarFrom 0 v), .scalar (.ofText (scalarFrom 0 v))⟩

/-- The nodes of a value, the first of which has the number `id`. -/
def valueNodes (id : Nat) : Value → List Node
  | .list items => ⟨.sequence, .sequence (List.range' (id + 1) items.length)⟩ :: items.map leafNode
  | v => [leafNode v]

def keyNode (key : Text) : Node :=
  ⟨.text, .scalar (.ofText key)⟩

def fieldNodes (id : Nat) (e : Text × Value) : List Node :=
  keyNode e.1 :: valueNodes (id + 1) e.2

def fieldSize (e : Text × Value) : Nat :=
  match e.2 with
  | .list items => items.length + 2
  | _ => 2

/-- The nodes of entries, and the numbers of their keys and values. -/
def fieldsNodes (id : Nat) : List (Text × Value) → List Node
  | [] => []
  | e :: fields => fieldNodes id e ++ fieldsNodes (id + fieldSize e) fields

def fieldsIds (id : Nat) : List (Text × Value) → List (Nat × Nat)
  | [] => []
  | e :: fields => (id, id + 1) :: fieldsIds (id + fieldSize e) fields

theorem length_fieldNodes (id : Nat) (e : Text × Value) : (fieldNodes id e).length = fieldSize e := by
  obtain ⟨key, value⟩ := e
  cases value <;> simp [fieldNodes, valueNodes, fieldSize]

theorem map_charOf_ofText (t : Text) : (Codes.ofText t).map Codes.charOf = t := by
  simp [Codes.ofText, Function.comp_def]

theorem leafToken_eq (v : Value) : ∃ plain c, leafToken v = .scalar plain c := by
  cases v <;> exact ⟨_, _, rfl⟩

theorem bind_of_ok {σ α β : Type} {x : StateT σ (Except Defect) α} {f : α → StateT σ (Except Defect) β}
    {s s' : σ} {a : α} (h : x s = .ok (a, s')) : (x >>= f) s = f a s' := by
  change (x s >>= fun p => f p.1 p.2) = _
  rw [h]
  rfl

namespace Node

namespace Builder

/-- A state of reading without anchors and without handles of its own. -/
def streamAt (ts : List Token) (nodes : Array Node) (depth : Nat) : Stream :=
  ⟨ts, none, [], standardHandles, nodes, depth⟩

section Steps

variable (t : Token) (ts : List Token) (nodes : Array Node) (depth : Nat)

theorem peek_at : peek (streamAt (t :: ts) nodes depth) = .ok (t, streamAt (t :: ts) nodes depth) := rfl

theorem skip_at : skip (streamAt (t :: ts) nodes depth) = .ok ((), streamAt ts nodes depth) := rfl

theorem node_scalar (plain : Bool) (c : Codes) (fuel : Nat) (block indentless : Bool) :
    node (fuel + 1) block indentless (streamAt (.scalar plain c :: ts) nodes depth) =
      .ok (nodes.size, streamAt ts (nodes.push ⟨scalarTag none plain c, .scalar c⟩) depth) := by
  rw [node, bind_of_ok (peek_at _ _ _ _)]
  rfl

end Steps

variable {ts ts' : List Token} {nodes nodes' : Array Node} {depth : Nat}

theorem nested_at {α : Type} {x : Builder α} {a : α} (hdepth : depth + 1 < maxDepth)
    (h : x (streamAt ts nodes (depth + 1)) = .ok (a, streamAt ts' nodes' (depth + 1))) :
    nested x (streamAt ts nodes depth) = .ok (a, streamAt ts' nodes' depth) := by
  have hroom : ¬ maxDepth ≤ depth + 1 := by omega
  have hget : (get : Builder Stream) (streamAt ts nodes depth) =
      .ok (streamAt ts nodes depth, streamAt ts nodes depth) := rfl
  have henter : (modify fun s => { s with depth := depth + 1 } : Builder Unit) (streamAt ts nodes depth) =
      .ok ((), streamAt ts nodes (depth + 1)) := rfl
  rw [nested, bind_of_ok hget]
  refine (congrFun (if_neg hroom) _).trans ?_
  exact (bind_of_ok henter).trans (bind_of_ok h)

theorem modify_collection (nodes ms : Array Node) (tag : Tag) (c : Content) :
    (nodes.push ⟨tag, .sequence []⟩ ++ ms).modify nodes.size (fun n => { n with content := c }) =
      nodes.push ⟨tag, c⟩ ++ ms := by
  apply Array.ext
  · simp
  · intro i h h'
    rw [Array.getElem_modify]
    by_cases hi : nodes.size = i
    · subst hi
      simp
    · rw [if_neg hi]
      simp only [Array.getElem_append, Array.getElem_push, Array.size_push]
      split
      · split
        · rfl
        · omega
      · rfl

theorem collection_at {x : Builder Content} {c : Content} {ms : Array Node} (usual : Tag)
    (hdepth : depth + 1 < maxDepth)
    (h : x (streamAt ts (nodes.push ⟨usual, .sequence []⟩) (depth + 1)) =
      .ok (c, streamAt ts' (nodes.push ⟨usual, .sequence []⟩ ++ ms) (depth + 1))) :
    collection none none usual x (streamAt ts nodes depth) =
      .ok (nodes.size, streamAt ts' (nodes.push ⟨usual, c⟩ ++ ms) depth) := by
  have hpush : push ⟨tagOf none usual, .sequence []⟩ (streamAt ts nodes depth) =
      .ok (nodes.size, streamAt ts (nodes.push ⟨usual, .sequence []⟩) depth) := rfl
  have hcheck : checkAnchor none (streamAt ts nodes depth) = .ok ((), streamAt ts nodes depth) := rfl
  have hname : setAnchor nodes.size none (streamAt ts (nodes.push ⟨usual, .sequence []⟩) depth) =
      .ok ((), streamAt ts (nodes.push ⟨usual, .sequence []⟩) depth) := rfl
  rw [collection, bind_of_ok hcheck, bind_of_ok hpush, bind_of_ok hname, bind_of_ok (nested_at hdepth h)]
  exact congrArg (fun ns => Except.ok (nodes.size, streamAt ts' ns depth)) (modify_collection nodes ms usual c)

theorem scalarTag_ofText (plain : Bool) (t : Text) :
    scalarTag none plain (.ofText t) = if plain then .ofPlain t else .text := by
  cases plain with
  | false => rfl
  | true =>
      rw [scalarTag, map_charOf_ofText]
      rfl

theorem node_leaf {v : Value} (hv : IsLeaf v) (fuel : Nat) (block indentless : Bool) :
    node (fuel + 1) block indentless (streamAt (leafToken v :: ts) nodes depth) =
      .ok (nodes.size, streamAt ts (nodes.push (leafNode v)) depth) := by
  cases hv with
  | text t =>
      have htag : (if admitsPlain t then Tag.ofPlain t else .text) = .text := by
        split
        next h => exact ofPlain_of_admitsPlain h
        next => rfl
      rw [leafToken, node_scalar, scalarTag_ofText, htag, leafNode]
  | bool b => exact (node_scalar _ _ _ _ _ _ _ _).trans (by rw [scalarTag_ofText]; rfl)
  | digit h => exact (node_scalar _ _ _ _ _ _ _ _).trans (by rw [scalarTag_ofText]; rfl)

theorem indentlessItems_at {items : List Value} (hitems : ∀ v ∈ items, IsLeaf v) {t : Token}
    (ht : t ≠ .blockEntry) (ts : List Token) (nodes : Array Node) (depth : Nat) {fuel : Nat}
    (hfuel : (items.flatMap itemTokens ++ t :: ts).length ≤ fuel) :
    indentlessItems fuel (streamAt (items.flatMap itemTokens ++ t :: ts) nodes depth) =
      .ok (List.range' nodes.size items.length,
        streamAt (t :: ts) (nodes ++ (items.map leafNode).toArray) depth) := by
  induction items generalizing nodes fuel with
  | nil =>
      obtain ⟨fuel, rfl⟩ := Nat.exists_eq_add_one_of_ne_zero (n := fuel) (by rintro rfl; simp at hfuel)
      rw [indentlessItems, List.flatMap_nil, List.nil_append, bind_of_ok (peek_at _ _ _ _)]
      cases t
      case blockEntry => exact absurd rfl ht
      all_goals
        simp
        rfl
  | cons v items ih =>
      obtain ⟨hv, hitems⟩ := List.forall_mem_cons.mp hitems
      obtain ⟨plain, c, htoken⟩ := leafToken_eq v
      have htokens : (v :: items).flatMap itemTokens ++ t :: ts =
          .blockEntry :: leafToken v :: (items.flatMap itemTokens ++ t :: ts) := by
        simp [itemTokens]
      rw [htokens] at hfuel ⊢
      simp only [List.length_cons] at hfuel
      obtain ⟨fuel, rfl⟩ := Nat.exists_eq_add_one_of_ne_zero (n := fuel) (by omega)
      obtain ⟨fuel', hfuel'⟩ := Nat.exists_eq_add_one_of_ne_zero (n := fuel) (by omega)
      have hnode :
          node fuel true false (streamAt (leafToken v :: (items.flatMap itemTokens ++ t :: ts)) nodes depth) =
            .ok (nodes.size,
              streamAt (items.flatMap itemTokens ++ t :: ts) (nodes.push (leafNode v)) depth) := by
        rw [hfuel', node_leaf hv]
      have hrest := ih hitems (nodes.push (leafNode v)) (Nat.le_of_succ_le (Nat.le_of_succ_le_succ hfuel))
      rw [indentlessItems, bind_of_ok (peek_at _ _ _ _)]
      refine (bind_of_ok (skip_at _ _ _ _)).trans ?_
      refine (bind_of_ok (peek_at _ _ _ _)).trans ?_
      rw [htoken] at hnode ⊢
      refine (bind_of_ok hnode).trans ?_
      refine (bind_of_ok hrest).trans ?_
      simp [List.range'_succ]
      rfl

theorem flowItems_end (ts : List Token) (nodes : Array Node) (depth fuel : Nat) :
    flowItems (fuel + 1) true (streamAt (.flowSequenceEnd :: ts) nodes depth) =
      .ok ([], streamAt ts nodes depth) := by
  rw [flowItems, bind_of_ok (peek_at _ _ _ _)]
  rfl

theorem push_append_toArray (nodes : Array Node) (n : Node) (ns : List Node) :
    nodes.push n ++ ns.toArray = nodes ++ (n :: ns).toArray := by
  simp

/-- The value of an entry; behind it comes the next key, or the end of the mapping. -/
theorem node_value {v : Value} (hv : IsFlat v) {t : Token} (ht : t ≠ .blockEntry) (ts : List Token)
    (nodes : Array Node)
    (hdepth : depth + 1 < maxDepth) {fuel : Nat} (hfuel : (valueTokens v ++ t :: ts).length < fuel) :
    node fuel true true (streamAt (valueTokens v ++ t :: ts) nodes depth) =
      .ok (nodes.size, streamAt (t :: ts) (nodes ++ (valueNodes nodes.size v).toArray) depth) := by
  obtain ⟨fuel, rfl⟩ := Nat.exists_eq_add_one_of_ne_zero (n := fuel) (by omega)
  cases hv with
  | leaf hleaf =>
      have hnodes : valueNodes nodes.size v = [leafNode v] := by cases hleaf <;> rfl
      rw [valueTokens_leaf hleaf, hnodes, ← push_append_toArray, List.singleton_append, node_leaf hleaf]
      simp
  | @list items hitems =>
      cases items with
      | nil =>
          obtain ⟨fuel, rfl⟩ :=
            Nat.exists_eq_add_one_of_ne_zero (n := fuel) (by rintro rfl; simp [valueTokens] at hfuel)
          have hitems : (do skip; return .sequence (← flowItems (fuel + 1) true) : Builder Content)
              (streamAt (.flowSequenceStart :: .flowSequenceEnd :: t :: ts)
                (nodes.push ⟨.sequence, .sequence []⟩)
                (depth + 1)) =
              .ok (.sequence [],
                streamAt (t :: ts) (nodes.push ⟨.sequence, .sequence []⟩ ++ #[]) (depth + 1)) := by
            rw [bind_of_ok (skip_at _ _ _ _), bind_of_ok (flowItems_end _ _ _ _), Array.append_empty]
            rfl
          rw [show valueTokens (.list []) ++ t :: ts =
            .flowSequenceStart :: .flowSequenceEnd :: t :: ts from rfl, node,
            bind_of_ok (peek_at _ _ _ _), valueNodes, ← push_append_toArray]
          exact collection_at .sequence hdepth hitems
      | cons v items =>
          have htokens : valueTokens (.list (v :: items)) = (v :: items).flatMap itemTokens := rfl
          rw [htokens] at hfuel ⊢
          have hread := indentlessItems_at hitems ht ts (nodes.push ⟨.sequence, .sequence []⟩) (depth + 1)
            (Nat.le_of_lt_succ hfuel)
          have hcontent : (.sequence <$> indentlessItems fuel : Builder Content)
              (streamAt ((v :: items).flatMap itemTokens ++ t :: ts) (nodes.push ⟨.sequence, .sequence []⟩)
                (depth + 1)) =
              .ok (.sequence (List.range' (nodes.size + 1) (v :: items).length), streamAt (t :: ts)
                (nodes.push ⟨.sequence, .sequence []⟩ ++ ((v :: items).map leafNode).toArray) (depth + 1)) := by
            rw [map_eq_pure_bind, bind_of_ok hread, Array.size_push]
            rfl
          rw [valueNodes, ← push_append_toArray, ← collection_at .sequence hdepth hcontent, node]
          rfl

theorem valueTokens_eq_cons {v : Value} (hv : IsFlat v) :
    ∃ first more, valueTokens v = first :: more ∧ endsEntry first = false := by
  cases hv with
  | leaf hleaf =>
      obtain ⟨plain, c, htoken⟩ := leafToken_eq v
      exact ⟨_, _, valueTokens_leaf hleaf, by rw [htoken]; rfl⟩
  | @list items hitems =>
      cases items with
      | nil => exact ⟨_, _, rfl, rfl⟩
      | cons v items => exact ⟨_, _, rfl, rfl⟩

theorem blockValue_at {v : Value} (hv : IsFlat v) {t : Token} (ht : t ≠ .blockEntry) (ts : List Token)
    (nodes : Array Node) (hdepth : depth + 1 < maxDepth) {fuel : Nat}
    (hfuel : (Token.value :: valueTokens v ++ t :: ts).length < fuel) :
    blockValue fuel (streamAt (.value :: valueTokens v ++ t :: ts) nodes depth) =
      .ok (nodes.size, streamAt (t :: ts) (nodes ++ (valueNodes nodes.size v).toArray) depth) := by
  obtain ⟨fuel, rfl⟩ := Nat.exists_eq_add_one_of_ne_zero (n := fuel) (by omega)
  simp only [List.cons_append, List.length_cons] at hfuel
  obtain ⟨first, more, hfirst, hvalue⟩ := valueTokens_eq_cons hv
  have hnode := node_value hv ht ts nodes hdepth (Nat.lt_of_succ_lt_succ hfuel)
  rw [hfirst, List.cons_append] at hnode
  rw [List.cons_append, hfirst, List.cons_append, blockValue, bind_of_ok (peek_at _ _ _ _)]
  refine (bind_of_ok (skip_at _ _ _ _)).trans ((bind_of_ok (peek_at _ _ _ _)).trans ?_)
  rw [hvalue]
  exact hnode

theorem flatMap_fieldTokens_append (fields : List (Text × Value)) :
    ∃ t ts, fields.flatMap fieldTokens ++ [Token.blockEnd, .streamEnd] = t :: ts ∧ t ≠ .blockEntry := by
  cases fields with
  | nil => exact ⟨_, _, rfl, by decide⟩
  | cons e fields => exact ⟨_, _, rfl, by decide⟩

theorem node_key {key : Text} (hkey : IsKey key) (fuel : Nat) :
    node (fuel + 1) true true (streamAt (.scalar true (.ofText key) :: ts) nodes depth) =
      .ok (nodes.size, streamAt ts (nodes.push (keyNode key)) depth) := by
  rw [node_scalar, scalarTag_ofText, if_pos rfl, hkey.tag]
  rfl

theorem blockEntries_at {fields : List (Text × Value)} (hkey : ∀ e ∈ fields, IsKey e.1)
    (hvalue : ∀ e ∈ fields, IsFlat e.2) (nodes : Array Node) (hdepth : depth + 1 < maxDepth) {fuel : Nat}
    (hfuel : (fields.flatMap fieldTokens ++ [Token.blockEnd, .streamEnd]).length ≤ fuel) :
    blockEntries fuel (streamAt (fields.flatMap fieldTokens ++ [Token.blockEnd, .streamEnd]) nodes depth) =
      .ok (fieldsIds nodes.size fields,
        streamAt [.streamEnd] (nodes ++ (fieldsNodes nodes.size fields).toArray) depth) := by
  induction fields generalizing nodes fuel with
  | nil =>
      obtain ⟨fuel, rfl⟩ := Nat.exists_eq_add_one_of_ne_zero (n := fuel) (by rintro rfl; simp at hfuel)
      rw [blockEntries, List.flatMap_nil, List.nil_append, bind_of_ok (peek_at _ _ _ _)]
      simp [fieldsNodes]
      rfl
  | cons e fields ih =>
      obtain ⟨hkeyHead, hkey⟩ := List.forall_mem_cons.mp hkey
      obtain ⟨hvalueHead, hvalue⟩ := List.forall_mem_cons.mp hvalue
      obtain ⟨t, ts, hnext, ht⟩ := flatMap_fieldTokens_append fields
      have htokens : (e :: fields).flatMap fieldTokens ++ [.blockEnd, .streamEnd] =
          .key :: .scalar true (.ofText e.1) :: (.value :: valueTokens e.2 ++ t :: ts) := by
        rw [← hnext]
        simp [fieldTokens]
      rw [htokens] at hfuel ⊢
      have hlength := congrArg List.length hnext
      simp only [List.length_cons, List.cons_append, List.length_append] at hfuel hlength
      obtain ⟨fuel, rfl⟩ := Nat.exists_eq_add_one_of_ne_zero (n := fuel) (by omega)
      have hvalueFuel : (Token.value :: valueTokens e.2 ++ t :: ts).length < fuel := by
        simp only [List.length_cons, List.cons_append, List.length_append]
        omega
      have hrestFuel : (fields.flatMap fieldTokens ++ [Token.blockEnd, .streamEnd]).length ≤ fuel := by
        simp only [hnext, List.length_cons]
        omega
      have hread := blockValue_at hvalueHead ht ts (nodes.push (keyNode e.1)) hdepth hvalueFuel
      have hsize : (nodes.push (keyNode e.1) ++ (valueNodes (nodes.push (keyNode e.1)).size e.2).toArray).size =
          nodes.size + fieldSize e := by
        have := length_fieldNodes nodes.size e
        simp [fieldNodes] at this ⊢
        omega
      have hrest :=
        ih hkey hvalue (nodes.push (keyNode e.1) ++ (valueNodes (nodes.push (keyNode e.1)).size e.2).toArray)
        hrestFuel
      rw [hnext, hsize] at hrest
      obtain ⟨fuel', rfl⟩ := Nat.exists_eq_add_one_of_ne_zero (n := fuel) (by omega)
      rw [blockEntries, bind_of_ok (peek_at _ _ _ _)]
      refine (bind_of_ok (skip_at _ _ _ _)).trans ((bind_of_ok (peek_at _ _ _ _)).trans ?_)
      refine (bind_of_ok (node_key hkeyHead fuel')).trans
        ((bind_of_ok hread).trans ((bind_of_ok hrest).trans ?_))
      simp [fieldsIds, fieldsNodes, fieldNodes]
      rfl

/-- The tokens of the file are those of its mapping, and nothing follows them. -/
theorem single_at {fields : List (Text × Value)} (hkey : ∀ e ∈ fields, IsKey e.1)
    (hvalue : ∀ e ∈ fields, IsFlat e.2) {fuel : Nat} (hfuel : (fileTokens fields).length ≤ fuel) :
    single fuel (streamAt (fileTokens fields) #[] 0) = .ok (some 0,
      streamAt [.streamEnd]
        (#[⟨.mapping, .mapping (fieldsIds 1 fields)⟩] ++ (fieldsNodes 1 fields).toArray) 0) := by
  obtain ⟨fuel, rfl⟩ := Nat.exists_eq_add_one_of_ne_zero (n := fuel) (by rintro rfl; simp [fileTokens] at hfuel)
  have hroom : 1 + 1 < maxDepth := by decide
  have hentriesFuel : (fields.flatMap fieldTokens ++ [Token.blockEnd, .streamEnd]).length ≤ fuel := by
    simpa [fileTokens] using hfuel
  have hentries := blockEntries_at hkey hvalue #[⟨.mapping, .sequence []⟩] hroom hentriesFuel
  have hcontent : (do skip; return .mapping (← blockEntries fuel) : Builder Content)
      (streamAt (fileTokens fields) (#[].push ⟨.mapping, .sequence []⟩) 1) = .ok (.mapping (fieldsIds 1 fields),
        streamAt [.streamEnd] (#[].push ⟨.mapping, .sequence []⟩ ++ (fieldsNodes 1 fields).toArray) 1) := by
    rw [fileTokens, List.cons_append, bind_of_ok (skip_at _ _ _ _)]
    exact (bind_of_ok hentries).trans rfl
  have hnode : node (fuel + 1) true false (streamAt (fileTokens fields) #[] 0) = .ok (0,
      streamAt [.streamEnd]
        (#[⟨.mapping, .mapping (fieldsIds 1 fields)⟩] ++ (fieldsNodes 1 fields).toArray) 0) := by
    rw [node]
    exact collection_at .mapping (by decide) hcontent
  have hdocument : document (fuel + 1) (streamAt (fileTokens fields) #[] 0) = .ok (some 0,
      streamAt [.streamEnd]
        (#[⟨.mapping, .mapping (fieldsIds 1 fields)⟩] ++ (fieldsNodes 1 fields).toArray) 0) :=
    (bind_of_ok (peek_at .blockMappingStart _ _ _)).trans ((bind_of_ok hnode).trans rfl)
  exact (bind_of_ok hdocument).trans rfl

end Builder

end Node

/-- The nodes of a written file: the mapping, and behind it those of its entries. -/
def fileNodes (fields : List (Text × Value)) : List Node :=
  ⟨.mapping, .mapping (fieldsIds 1 fields)⟩ :: fieldsNodes 1 fields

theorem ofTokens_fileTokens {fields : List (Text × Value)} (h : IsFile fields) :
    Graph.ofTokens (fileTokens fields) none = .ok (some ⟨(fileNodes fields).toArray, 0⟩) := by
  have hfuel : (fileTokens fields).length ≤ 4 * (fileTokens fields).length + 4 := by omega
  have hsingle := Node.Builder.single_at h.key h.value hfuel
  rw [Graph.ofTokens, StateT.run]
  change (Node.Builder.single (4 * (fileTokens fields).length + 4)
    (Node.Builder.streamAt (fileTokens fields) #[] 0) >>= _) = _
  rw [hsingle]
  simp [fileNodes, bind, Except.bind, Node.Builder.streamAt]
  rfl

end Yaml

end Synopsis
