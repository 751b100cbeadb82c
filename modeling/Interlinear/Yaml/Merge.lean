import Interlinear.Yaml.Node

/-!
# Merging mappings

The merge key takes the entries of another mapping, or of several, into a mapping.  They come before
its own entries, so that these prevail, and those of several mappings come last first, so that
earlier ones prevail.  A mapping that is taken in has its own merge keys resolved first.  Every step
removes a merge key from the document, so their number bounds the depth.

Once a mapping is resolved, a key that gives its scalar value is an ordinary text.
-/

namespace Interlinear.Yaml

namespace Graph

def content? (graph : Graph) (id : Nat) : Option Content :=
  graph.nodes[id]?.map Node.content

def tagOf (graph : Graph) (id : Nat) : Tag :=
  (graph.nodes[id]?.map Node.tag).getD .unknown

/-- The entries of a mapping; none for other nodes. -/
def entriesOf (graph : Graph) (id : Nat) : List (Nat × Nat) :=
  match graph.content? id with
  | some (.mapping entries) => entries
  | _ => []

def setEntries (graph : Graph) (id : Nat) (entries : List (Nat × Nat)) : Graph :=
  { graph with
    nodes := graph.nodes.modify id fun node => { node with content := .mapping entries } }

/-- Turns a key that gives the scalar value of its mapping into an ordinary one. -/
def asText (graph : Graph) (id : Nat) : Graph :=
  if graph.tagOf id = .default then
    { graph with nodes := graph.nodes.modify id fun node => { node with tag := .text } }
  else
    graph

/-- The entries before the first merge key, its value and the entries after it. -/
def splitMerge? (graph : Graph) :
    List (Nat × Nat) → Option (List (Nat × Nat) × Nat × List (Nat × Nat))
  | [] => none
  | (key, value) :: entries =>
      if graph.tagOf key = .merge then some ([], value, entries)
      else
        (graph.splitMerge? entries).map fun (before, source, after) =>
          ((key, value) :: before, source, after)

/-- Resolves a mapping and gives its entries. -/
def takeIn (resolve : Graph → Nat → Option Graph) (graph : Graph) (id : Nat) :
    Option (Graph × List (Nat × Nat)) :=
  match graph.content? id with
  | some (.mapping _) => do
      let graph ← resolve graph id
      some (graph, graph.entriesOf id)
  | _ => none

/-- Resolves mappings and gives their entries, those of the last first. -/
def takeInAll (resolve : Graph → Nat → Option Graph) :
    Graph → List Nat → Option (Graph × List (Nat × Nat))
  | graph, [] => some (graph, [])
  | graph, id :: ids => do
      let (graph, entries) ← takeIn resolve graph id
      let (graph, others) ← takeInAll resolve graph ids
      some (graph, others ++ entries)

/-- Resolves the merge keys of a mapping, after the entries that have been taken in already. -/
def resolveFrom : (fuel : Nat) → (taken : List (Nat × Nat)) → Graph → Nat → Option Graph
  | 0, _, _, _ => none
  | fuel + 1, taken, graph, id =>
      match graph.splitMerge? (graph.entriesOf id) with
      | none =>
          let graph := graph.setEntries id (taken ++ graph.entriesOf id)
          some ((graph.entriesOf id).foldl (fun graph entry => graph.asText entry.1) graph)
      | some (before, source, after) => do
          let graph := graph.setEntries id (before ++ after)
          let (graph, entries) ←
            match graph.content? source with
            | some (.sequence ids) => takeInAll (resolveFrom fuel []) graph ids
            | _ => takeIn (resolveFrom fuel []) graph source
          resolveFrom fuel (taken ++ entries) graph id

/-- The number of entries in a graph. -/
def entryCount (graph : Graph) : Nat :=
  graph.nodes.foldl (fun count node =>
    match node.content with
    | .mapping entries => count + entries.length
    | _ => count) 0

/-- Resolves the merge keys of a mapping, unless one has a value that cannot be taken in. -/
def resolve? (graph : Graph) (id : Nat) : Option Graph :=
  resolveFrom (graph.entryCount + 1) [] graph id

end Graph

end Interlinear.Yaml
