import Interlinear.Yaml.Meaning
import Interlinear.Yaml.Merge

/-!
# Reading configuration documents

The nodes of a document are given their values in rounds.  The first round holds the root; a
collection that comes up is begun at once and its parts are looked at in the next round, once for
all places where the node occurs.  So the first fault is the one least deep in the document, and
collections cannot be keys, whatever they hold.

Then the values of the nodes are put together in the order in which the nodes became complete.
Those of nodes that contain themselves cannot be, and are unrolled from the root as far as anyone
looks.
-/

namespace Interlinear.Yaml

def Tag.isCollection : Tag → Bool
  | sequence | mapping | set | pairs => true
  | _ => false

namespace Graph

/-- The text of a node in the place of a scalar.  A mapping may give it under its own key. -/
def textOf (graph : Graph) : (fuel : Nat) → Nat → Except Fault String
  | 0, _ => .error .malformed
  | fuel + 1, id =>
      match graph.content? id with
      | some (.scalar text) => .ok text
      | some (.mapping entries) =>
          match entries.find? fun entry => graph.tagOf entry.1 = .default with
          | some (_, value) => textOf graph fuel value
          | none => .error .malformed
      | _ => .error .malformed

def isMapping (graph : Graph) (id : Nat) : Bool :=
  match graph.content? id with
  | some (.mapping _) => true
  | _ => false

/-- The value of a node with the tag of a scalar. -/
def scalarAt (graph : Graph) (id : Nat) : Except Fault Value := do
  let text ← graph.textOf (graph.nodes.size + 1) id
  if graph.tagOf id = .timestamp && graph.isMapping id then .error .notText
  else scalarValue id (graph.tagOf id) text

end Graph

/-- A document whose nodes are looked at in rounds. -/
structure Rounds where
  graph : Graph
  isBegun : Array Bool
  /-- The collections of the next round, last first. -/
  waiting : List Nat

namespace Rounds

/-- Begins a node: a scalar is given its value, and a collection waits for the next round. -/
def begin (rounds : Rounds) (id : Nat) : Except Fault Rounds :=
  if (rounds.graph.tagOf id).isCollection then
    if rounds.isBegun.getD id true then .ok rounds
    else
      .ok { rounds with
        isBegun := rounds.isBegun.setIfInBounds id true
        waiting := id :: rounds.waiting }
  else
    (rounds.graph.scalarAt id).map fun _ => rounds

def beginAll (rounds : Rounds) : List Nat → Except Fault Rounds
  | [] => .ok rounds
  | id :: ids => do
      let rounds ← rounds.begin id
      rounds.beginAll ids

/-- Begins keys and values; a collection cannot be a key. -/
def beginEntries (rounds : Rounds) : List (Nat × Nat) → Except Fault Rounds
  | [] => .ok rounds
  | (key, value) :: entries => do
      let rounds ← rounds.begin key
      if (rounds.graph.tagOf key).isCollection then .error .malformed
      else
        let rounds ← rounds.begin value
        rounds.beginEntries entries

/-- Begins the items of a row of pairs, each a mapping with one entry. -/
def beginPairs (rounds : Rounds) : List Nat → Except Fault Rounds
  | [] => .ok rounds
  | id :: ids =>
      match rounds.graph.content? id with
      | some (.mapping [(first, second)]) => do
          let rounds ← rounds.begin first
          let rounds ← rounds.begin second
          rounds.beginPairs ids
      | _ => .error .malformed

/-- Looks at the parts of a collection. -/
def visit (rounds : Rounds) (id : Nat) : Except Fault Rounds :=
  match rounds.graph.tagOf id, rounds.graph.content? id with
  | .sequence, some (.sequence items) => rounds.beginAll items
  | .pairs, some (.sequence items) => rounds.beginPairs items
  | .mapping, some (.mapping _) | .set, some (.mapping _) =>
      match rounds.graph.resolve? id with
      | some graph => { rounds with graph := graph }.beginEntries (graph.entriesOf id)
      | none => .error .malformed
  | _, _ => .error .malformed

def visitAll (rounds : Rounds) : List Nat → Except Fault Rounds
  | [] => .ok rounds
  | id :: ids => do
      let rounds ← rounds.visit id
      rounds.visitAll ids

/-- All rounds; no node is looked at twice, so there are no more rounds than nodes. -/
def run : (fuel : Nat) → Rounds → Except Fault Graph
  | 0, rounds => .ok rounds.graph
  | fuel + 1, rounds =>
      if rounds.waiting.isEmpty then .ok rounds.graph
      else do
        let rounds ← { rounds with waiting := [] }.visitAll rounds.waiting.reverse
        run fuel rounds

end Rounds

namespace Graph

/-- The document with its merge keys resolved, if it has values. -/
def check (graph : Graph) (root : Nat) : Except Fault Graph := do
  let size := graph.nodes.size
  let rounds ← Rounds.begin ⟨graph, Array.replicate size false, []⟩ root
  rounds.run size

/-! ## Putting values together -/

/-- All values of a list, if all are there. -/
def allOf {α β : Type} (f : α → Option β) : List α → Option (List β)
  | [] => some []
  | a :: as => do
      let b ← f a
      let bs ← allOf f as
      some (b :: bs)

def entryOf (valueOf : Nat → Option Value) (entry : Nat × Nat) : Option (Value × Value) := do
  let key ← valueOf entry.1
  let value ← valueOf entry.2
  some (key, value)

/-- The pair of an item in a row of pairs. -/
def pairOf (graph : Graph) (valueOf : Nat → Option Value) (id : Nat) : Option Value :=
  match graph.entriesOf id with
  | [entry] => (entryOf valueOf entry).map fun (first, second) => .pair first second
  | _ => none

/-- The value of a node from those of its parts, if they are all there. -/
def assemble (graph : Graph) (valueOf : Nat → Option Value) (id : Nat) : Option Value :=
  match graph.tagOf id, graph.content? id with
  | .sequence, some (.sequence items) => (allOf valueOf items).map .list
  | .pairs, some (.sequence items) => (allOf (graph.pairOf valueOf) items).map .list
  | .mapping, some (.mapping entries) =>
      (allOf (entryOf valueOf) entries).map fun pairs => .mapping (Value.ofPairs pairs)
  | .set, some (.mapping entries) =>
      (allOf (entryOf valueOf) entries).map fun pairs =>
        .set ((Value.ofPairs pairs).map Prod.fst)
  | _, _ => (graph.scalarAt id).toOption

/-- The values of the nodes that do not contain themselves, nor a node that does. -/
def finiteValues (graph : Graph) : Array (Option Value) :=
  graph.completed.foldl
    (fun values id =>
      values.setIfInBounds id (graph.assemble (fun part => values.getD part none) id))
    (Array.replicate graph.nodes.size none)

/-- The depth to which values are looked into. -/
def depthOfInterest : Nat := 5

/-- An empty collection of the kind of a node. -/
def emptyLike (graph : Graph) (id : Nat) : Value :=
  match graph.tagOf id with
  | .mapping => .mapping []
  | .set => .set []
  | _ => .list []

/-- Unrolls a node that may contain itself: so many levels freely, and then until it comes up again.
-/
def unroll (graph : Graph) (values : Array (Option Value)) :
    (fuel : Nat) → (free : Nat) → (outer : List Nat) → Nat → Value
  | 0, _, _, id => .knot id (graph.emptyLike id)
  | fuel + 1, free, outer, id =>
      match values.getD id none with
      | some value => value
      | none =>
          if outer.contains id then .knot id (graph.emptyLike id)
          else
            let outer := if free = 0 then id :: outer else outer
            let valueOf := fun part => some (unroll graph values fuel (free - 1) outer part)
            .knot id ((graph.assemble valueOf id).getD .null)

/-- The value of a node of a document that has been checked. -/
def value (graph : Graph) (id : Nat) : Value :=
  let values := graph.finiteValues
  match values.getD id none with
  | some value => value
  | none => graph.unroll values (graph.nodes.size + depthOfInterest + 1) depthOfInterest [] id

end Graph

/-- The value of the document in a text; nothing if the text is empty. -/
def load (text : String) : Except Fault Value := do
  match ← Graph.ofTokens (.ofText text) with
  | none => .ok .null
  | some (root, graph) =>
      let graph ← graph.check root
      .ok (graph.value root)

end Interlinear.Yaml
