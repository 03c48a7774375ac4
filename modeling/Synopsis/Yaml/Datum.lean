import Synopsis.Yaml.Members
import Synopsis.Yaml.Node

/-!
# Data of a YAML file

The nodes of a file stand for data: a scalar for its value, a collection for the data of its parts, which it
names by their numbers. Collections are filled in the order in which they are met, each after all that was
met before it, so that of several scalars without a value the one nearest to the outside counts.

A merge mark in a mapping brings in the entries of other mappings, before those that stand beside it. Of two
entries with the same key the last one counts, at the place of the first.
-/

namespace Synopsis

namespace Yaml

inductive Datum where
  | scalar (v : Value)
  | list (items : List Nat)
  | set (items : List Nat)
  | pair (first second : Nat)
  | object (entries : List (Nat × Nat))
  deriving Repr

namespace Datum

def wholeOf? : Value → Option Int
  | .bool b => some (if b then 1 else 0)
  | .int n => some n
  | .float x => x.toInt?
  | _ => none

/-- Whether two scalars are the same key; numbers are compared by value and moments by their instant. -/
def sameKey (a b : Value) : Bool :=
  match a, b with
  | .null, .null => true
  | .text s, .text t => s == t
  | .codes s, .codes t => s == t
  | .bytes s, .bytes t => s == t
  | .moment s, .moment t => s.instant == t.instant
  | .float (.finite n m e), .float (.finite n' m' e') =>
    (n == n' && m == m' && e == e') || (wholeOf? a).any fun x => wholeOf? b == some x
  | .float (.infinite n), .float (.infinite n') => n == n'
  | _, _ => (wholeOf? a).any fun x => wholeOf? b == some x

def key? : Datum → Option Int
  | .scalar v => Members.keyOf? v
  | _ => none

end Datum

/-- The nodes, the data found so far, and the collections that are still to be filled. -/
structure Work where
  nodes : Array Node
  data : Array (Option Datum)
  waiting : Array Nat

abbrev Filling := StateT Work (Except Defect)

namespace Filling

def malformed {α : Type} : Filling α :=
  throw .malformed

def nodeAt (id : Nat) : Filling Node :=
  return (← get).nodes.getD id .empty

def setDatum (id : Nat) (d : Datum) : Filling Unit :=
  modify fun w => { w with data := w.data.setIfInBounds id (some d) }

def addDatum (d : Datum) : Filling Nat := do
  let w ← get
  set { w with data := w.data.push (some d) }
  return w.data.size

def itemsOf (id : Nat) : Filling (List Nat) := do
  match (← nodeAt id).content with
  | .sequence items => return items
  | _ => malformed

def entriesOf (id : Nat) : Filling (List (Nat × Nat)) := do
  match (← nodeAt id).content with
  | .mapping entries => return entries
  | _ => malformed

def setEntries (id : Nat) (entries : List (Nat × Nat)) : Filling Unit :=
  modify fun w => { w with nodes := w.nodes.modify id fun n => { n with content := .mapping entries } }

def isMerge (id : Nat) : Filling Bool :=
  return (← nodeAt id).tag == .merge

/-- A default mark that is a key is a text. -/
def settleKey (id : Nat) : Filling Unit :=
  modify fun w => { w with nodes := w.nodes.modify id fun n =>
    if n.tag == .default then { n with tag := .text } else n }

/-- The first entry under a merge mark, and the entries without it. -/
def takeMerge (before : List (Nat × Nat)) : List (Nat × Nat) → Filling (Option (Nat × List (Nat × Nat)))
  | [] => return none
  | (k, v) :: rest => do
    if ← isMerge k then return some (v, before ++ rest) else takeMerge (before ++ [(k, v)]) rest

mutual

/-- Brings in the entries under the merge marks of a mapping; every step takes a mark away. -/
def flatten : (fuel : Nat) → (id : Nat) → (merged : List (Nat × Nat)) → Filling Unit
  | 0, _, _ => malformed
  | fuel + 1, id, merged => do
    match ← takeMerge [] (← entriesOf id) with
    | some (source, rest) =>
      setEntries id rest
      let more ← mergedEntries fuel source
      flatten fuel id (merged ++ more)
    | none =>
      let own ← entriesOf id
      own.forM fun e => settleKey e.1
      if !merged.isEmpty then setEntries id (merged ++ own)

/-- The entries of a mapping, or of a sequence of them, of which the first counts last. -/
def mergedEntries : (fuel : Nat) → (source : Nat) → Filling (List (Nat × Nat))
  | 0, _ => malformed
  | fuel + 1, source => do
    match (← nodeAt source).content with
    | .mapping _ =>
      flatten fuel source []
      entriesOf source
    | .sequence items => mergedItems fuel items
    | .scalar _ => malformed

def mergedItems : (fuel : Nat) → (items : List Nat) → Filling (List (Nat × Nat))
  | 0, _ => malformed
  | _ + 1, [] => return []
  | fuel + 1, id :: rest => do
    let _ ← entriesOf id
    flatten fuel id []
    let entries ← entriesOf id
    return (← mergedItems fuel rest) ++ entries

end

def flatEntries (id : Nat) : Filling (List (Nat × Nat)) := do
  let nodes := (← get).nodes
  let parts := nodes.foldl (fun n node => n + match node.content with
    | .scalar _ => 1
    | .sequence items => items.length + 1
    | .mapping entries => entries.length + 1) 0
  flatten ((parts + 3) * (parts + 3)) id []
  entriesOf id

/-- The scalar that a node gives; a mapping with a default mark gives the one under it. -/
def scalarOf : (fuel : Nat) → (id : Nat) → Filling Codes
  | 0, _ => throw (.breakdown .tooDeep)
  | fuel + 1, id => do
    match (← nodeAt id).content with
    | .scalar c => return c
    | .sequence _ => malformed
    | .mapping entries =>
      match ← entries.findM? fun e => return (← nodeAt e.1).tag == .default with
      | some e => scalarOf fuel e.2
      | none => malformed

/-- A type without values has none whatever stands under it. -/
def scalarAt (id : Nat) : Filling Value := do
  let n ← nodeAt id
  if !n.tag.isScalar then malformed
  let c ← scalarOf ((← get).nodes.size + 1) id
  match n.tag, n.content with
  | .moment, .mapping _ => throw (.breakdown .noScalar)
  | tag, _ => scalarValue tag c

def emptyOf? : Tag → Option Datum
  | .sequence | .pairs => some (.list [])
  | .set => some (.set [])
  | .mapping => some (.object [])
  | _ => none

def visit (id : Nat) : Filling Unit := do
  if ((← get).data[id]?.join).isNone then
    match emptyOf? (← nodeAt id).tag with
    | some d =>
      setDatum id d
      modify fun w => { w with waiting := w.waiting.push id }
    | none => setDatum id (.scalar (← scalarAt id))

/-- The one undefined number that its own word names is the same wherever it stands. -/
def isUndefinedWord (c : Codes) : Bool :=
  match signed (Text.lowercase (withoutUnderscores c.toText)) with
  | .ok (_, body) => body == ".nan".toList
  | .error _ => false

def isSameKey (a b : Nat) : Filling Bool := do
  if a = b then return true
  let w ← get
  match w.data[a]?.join, w.data[b]?.join with
  | some (.scalar (.float .undefined)), some (.scalar (.float .undefined)) =>
    return isUndefinedWord (← scalarOf (w.nodes.size + 1) a) &&
      isUndefinedWord (← scalarOf (w.nodes.size + 1) b)
  | some (.scalar v), some (.scalar v') => return Datum.sameKey v v'
  | _, _ => return false

def put (k v : Nat) : List (Nat × Nat) → Filling (List (Nat × Nat))
  | [] => return [(k, v)]
  | e :: rest => do
    if ← isSameKey e.1 k then return (e.1, v) :: rest else return e :: (← put k v rest)

def fillEntries (acc : List (Nat × Nat)) : List (Nat × Nat) → Filling (List (Nat × Nat))
  | [] => return acc
  | (k, v) :: rest => do
    visit k
    match (← get).data[k]?.join with
    | some (.scalar _) =>
      visit v
      fillEntries (← put k v acc) rest
    | _ => malformed

def fillPair (id : Nat) : Filling Nat := do
  match ← entriesOf id with
  | [(k, v)] =>
    visit k
    visit v
    addDatum (.pair k v)
  | _ => malformed

def fill (id : Nat) : Filling Unit := do
  match (← nodeAt id).tag with
  | .sequence =>
    let items ← itemsOf id
    items.forM visit
    setDatum id (.list items)
  | .pairs => setDatum id (.list (← (← itemsOf id).mapM fillPair))
  | .set =>
    let members := (← fillEntries [] (← flatEntries id)).map Prod.fst
    let w ← get
    setDatum id (.set (Members.listed (fun k => (w.data.getD k none).bind Datum.key?) members))
  | _ => setDatum id (.object (← fillEntries [] (← flatEntries id)))

/-- Fills the collections that wait, from the one at `next` on; each waits once. -/
def fillAll : (fuel : Nat) → (next : Nat) → Filling Unit
  | 0, _ => pure ()
  | fuel + 1, next => do
    match (← get).waiting[next]? with
    | some id =>
      fill id
      fillAll fuel (next + 1)
    | none => pure ()

end Filling

def Graph.data (g : Graph) : Except Defect (Array Datum) := do
  let start : Work := ⟨g.nodes, Array.replicate g.nodes.size none, #[]⟩
  let (_, w) ← (do Filling.visit g.root; Filling.fillAll g.nodes.size 0 : Filling Unit).run start
  return w.data.map fun d => d.getD (.scalar .null)

end Yaml

end Synopsis
