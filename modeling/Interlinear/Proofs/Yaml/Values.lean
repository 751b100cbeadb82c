import Interlinear.Proofs.Outcome
import Interlinear.Yaml.Document
import Mathlib.Data.List.Basic

/-!
# Values of nodes

What a document means is put together from its nodes.  A mapping none of whose keys is special is
resolved as it stands, a scalar has the value of its text, and a row and a mapping with one entry
have those of their parts.  Each collection is looked at once, in the round after the one in which
it came up.
-/

namespace Interlinear.Yaml

namespace Graph

theorem tagOf_eq {graph : Graph} {id : Nat} {tag : Tag} {content : Content}
    (h : graph.nodes[id]? = some ⟨tag, content⟩) : graph.tagOf id = tag := by
  rw [tagOf, h]
  rfl

theorem content?_eq {graph : Graph} {id : Nat} {tag : Tag} {content : Content}
    (h : graph.nodes[id]? = some ⟨tag, content⟩) : graph.content? id = some content := by
  rw [content?, h]
  rfl

theorem splitMerge?_eq_none {graph : Graph} {entries : List (Nat × Nat)}
    (h : ∀ entry ∈ entries, graph.tagOf entry.1 ≠ .merge) : graph.splitMerge? entries = none := by
  induction entries with
  | nil => rfl
  | cons entry entries ih =>
      obtain ⟨hentry, hentries⟩ := List.forall_mem_cons.mp h
      rw [splitMerge?, if_neg hentry, ih hentries, Option.map_none]

theorem setEntries_entriesOf {graph : Graph} {id : Nat} {entries : List (Nat × Nat)}
    (h : graph.content? id = some (.mapping entries)) :
    graph.setEntries id (graph.entriesOf id) = graph := by
  have hentries : graph.entriesOf id = entries := by rw [entriesOf, h]
  have hnodes : graph.nodes.modify id (fun node => { node with content := .mapping entries }) =
      graph.nodes := by
    rw [content?, Option.map_eq_some_iff] at h
    obtain ⟨node, hnode, hcontent⟩ := h
    apply Array.ext_getElem?
    intro i
    rw [Array.getElem?_modify]
    split
    · subst i
      rw [hnode, Option.map_some, ← hcontent]
    · rfl
  rw [setEntries, hentries, hnodes]

theorem foldl_asText {graph : Graph} {entries : List (Nat × Nat)}
    (h : ∀ entry ∈ entries, graph.tagOf entry.1 ≠ .default) :
    entries.foldl (fun graph entry => graph.asText entry.1) graph = graph := by
  induction entries with
  | nil => rfl
  | cons entry entries ih =>
      obtain ⟨hentry, hentries⟩ := List.forall_mem_cons.mp h
      rw [List.foldl_cons, asText, if_neg hentry, ih hentries]

theorem resolve?_eq_self {graph : Graph} {id : Nat} {entries : List (Nat × Nat)}
    (h : graph.content? id = some (.mapping entries))
    (hkeys : ∀ entry ∈ entries, graph.tagOf entry.1 ≠ .merge ∧ graph.tagOf entry.1 ≠ .default) :
    graph.resolve? id = some graph := by
  have hentries : graph.entriesOf id = entries := by rw [entriesOf, h]
  have hmerge := splitMerge?_eq_none fun entry hentry => (hkeys entry hentry).1
  have hdefault := foldl_asText fun entry hentry => (hkeys entry hentry).2
  rw [resolve?, resolveFrom, hentries, hmerge]
  simp only [List.nil_append]
  rw [← hentries, setEntries_entriesOf h, hentries, hdefault]

theorem scalarAt_eq {graph : Graph} {id : Nat} {tag : Tag} {text : String}
    (h : graph.nodes[id]? = some ⟨tag, .scalar text⟩) :
    graph.scalarAt id = scalarValue id tag text := by
  rw [scalarAt, textOf, content?_eq h]
  simp [isMapping, content?_eq h, tagOf_eq h, Outcome.ok_bind]

variable {graph : Graph} {valueOf : Nat → Option Value} {id : Nat}

theorem assemble_scalar {tag : Tag} {text : String} {value : Value}
    (h : graph.nodes[id]? = some ⟨tag, .scalar text⟩)
    (hvalue : scalarValue id tag text = .ok value) : graph.assemble valueOf id = some value := by
  have hscalar : (graph.scalarAt id).toOption = some value := by
    rw [scalarAt_eq h, hvalue]
    rfl
  rw [assemble, tagOf_eq h, content?_eq h]
  cases tag <;> exact hscalar

theorem assemble_sequence {items : List Nat}
    (h : graph.nodes[id]? = some ⟨.sequence, .sequence items⟩) :
    graph.assemble valueOf id = (allOf valueOf items).map .list := by
  rw [assemble, tagOf_eq h, content?_eq h]

theorem assemble_entry {keyId valueId : Nat} {key value : Value}
    (h : graph.nodes[id]? = some ⟨.mapping, .mapping [(keyId, valueId)]⟩)
    (hkey : valueOf keyId = some key) (hvalue : valueOf valueId = some value) :
    graph.assemble valueOf id = some (.mapping [(key, value)]) := by
  rw [assemble, tagOf_eq h, content?_eq h]
  simp [allOf, entryOf, hkey, hvalue, Value.ofPairs, Value.insertEntry]

/-- The values with that of one more node. -/
def put (graph : Graph) (values : Array (Option Value)) (id : Nat) : Array (Option Value) :=
  values.setIfInBounds id (graph.assemble (fun part => values.getD part none) id)

theorem finiteValues_eq (graph : Graph) :
    graph.finiteValues =
      graph.completed.toList.foldl graph.put (Array.replicate graph.nodes.size none) := by
  rw [finiteValues, ← Array.foldl_toList]
  rfl

end Graph

namespace Rounds

theorem begin_scalar {rounds : Rounds} {id : Nat} {tag : Tag} {text : String} {value : Value}
    (h : rounds.graph.nodes[id]? = some ⟨tag, .scalar text⟩) (htag : tag.isCollection = false)
    (hvalue : scalarValue id tag text = .ok value) : rounds.begin id = .ok rounds := by
  rw [begin, Graph.tagOf_eq h, htag, Graph.scalarAt_eq h, hvalue]
  rfl

theorem begin_collection {rounds : Rounds} {id : Nat} {tag : Tag} {content : Content}
    (h : rounds.graph.nodes[id]? = some ⟨tag, content⟩) (htag : tag.isCollection = true)
    (hfresh : rounds.isBegun.getD id true = false) :
    rounds.begin id =
      .ok { rounds with
        isBegun := rounds.isBegun.setIfInBounds id true
        waiting := id :: rounds.waiting } := by
  rw [begin, Graph.tagOf_eq h, htag, hfresh]
  rfl

/-- A mapping with one entry, whose key is a scalar of no special kind. -/
theorem visit_entry {rounds : Rounds} {id key value : Nat} {tag : Tag} {content : Content}
    (h : rounds.graph.nodes[id]? = some ⟨.mapping, .mapping [(key, value)]⟩)
    (hkey : rounds.graph.nodes[key]? = some ⟨tag, content⟩) (htag : tag.isCollection = false)
    (hmerge : tag ≠ .merge) (hdefault : tag ≠ .default) (hbegin : rounds.begin key = .ok rounds) :
    rounds.visit id = rounds.begin value := by
  have hcontent := Graph.content?_eq h
  have hkeyKind := Graph.tagOf_eq hkey
  have hresolve : rounds.graph.resolve? id = some rounds.graph :=
    Graph.resolve?_eq_self hcontent (by simp [hkeyKind, hmerge, hdefault])
  have hentries : rounds.graph.entriesOf id = [(key, value)] := by rw [Graph.entriesOf, hcontent]
  rw [visit, Graph.tagOf_eq h, hcontent]
  simp only [hresolve, hentries, beginEntries, hbegin, hkeyKind, htag, Outcome.ok_bind,
    Bool.false_eq_true, if_false]
  cases rounds.begin value <;> rfl

theorem visit_sequence {rounds : Rounds} {id : Nat} {items : List Nat}
    (h : rounds.graph.nodes[id]? = some ⟨.sequence, .sequence items⟩) :
    rounds.visit id = rounds.beginAll items := by
  rw [visit, Graph.tagOf_eq h, Graph.content?_eq h]

theorem run_singleton {graph : Graph} {isBegun : Array Bool} {id : Nat} {after : Rounds}
    (fuel : Nat) (h : visit ⟨graph, isBegun, []⟩ id = .ok after) :
    run (fuel + 1) ⟨graph, isBegun, [id]⟩ = run fuel after := by
  rw [run, if_neg (by simp)]
  simp only [List.reverse_singleton, visitAll, h, Outcome.ok_bind]

end Rounds

end Interlinear.Yaml
