import Interlinear.Proofs.Outcome
import Interlinear.Proofs.Yaml.Keys
import Interlinear.Proofs.Yaml.NamedTokens
import Interlinear.Proofs.Yaml.Values
import Mathlib

/-!
# The value of a configuration with one name

The tokens of a configuration with one name make a graph of eight nodes, in which the name is a key
whose kind is that of its spelling.  Where the spelling stands for a text, a number or nothing the
graph has a value, with that under the key.
-/

namespace Interlinear.Yaml

namespace Graph

/-- A row of two texts in quotation marks. -/
def addRow (graph : Graph) (first second : String) : Graph :=
  let inside := (graph.begin none ⟨.sequence, .sequence []⟩).2
  ((inside.addScalar none .text first).2.addScalar none .text second).2.complete graph.nodes.size
    (.sequence [graph.nodes.size + 1, graph.nodes.size + 2])

/-- A list of one row. -/
def addRows (graph : Graph) (first second : String) : Graph :=
  ((graph.begin none ⟨.sequence, .sequence []⟩).2.addRow first second).complete graph.nodes.size
    (.sequence [graph.nodes.size + 1])

/-- A mapping that has been begun and its key. -/
def beginMapping (graph : Graph) (name : String) : Graph :=
  ((graph.begin none ⟨.mapping, .mapping []⟩).2.addScalar none (.ofPlain name) name).2

end Graph

/-! ## Reading nodes -/

/-- Whether a token stands for a node or a property of one. -/
def Token.isProperty : Token → Bool
  | .alias _ | .anchor _ | .tag _ => true
  | _ => false

namespace Setting

open Outcome

variable (setting : Setting) (fuel : Nat) (tokens : List Token) (graph : Graph)

theorem readNode_eq (place : Place) {token : Token} (h : token.isProperty = false) :
    setting.readNode (fuel + 1) place ⟨token :: tokens, graph⟩ =
      setting.readContent fuel place ⟨none, .absent⟩ ⟨token :: tokens, graph⟩ := by
  cases token <;> simp only [Token.isProperty, Bool.true_eq_false] at h <;> rfl

theorem readNode_scalar (place : Place) (text : String) (isPlain : Bool) :
    setting.readNode (fuel + 2) place ⟨.scalar text isPlain :: tokens, graph⟩ =
      .ok (graph.nodes.size, ⟨tokens,
        (graph.addScalar none (if isPlain then .ofPlain text else .text) text).2⟩) := by
  cases isPlain <;> cases place <;> rfl

theorem readFlowItems_two (first second : String) :
    setting.readFlowItems (fuel + 5) true
        ⟨.scalar first false :: .comma :: .scalar second false :: .closeSequence :: tokens, graph⟩ =
      .ok ([graph.nodes.size, (graph.addScalar none .text first).2.nodes.size],
        ⟨tokens, ((graph.addScalar none .text first).2.addScalar none .text second).2⟩) := by
  simp [readFlowItems, afterComma, peek, Reading.advance, readNode_scalar]

theorem readNode_row (place : Place) (first second : String) :
    setting.readNode (fuel + 7) place
        ⟨.openSequence :: .scalar first false :: .comma :: .scalar second false ::
          .closeSequence :: tokens, graph⟩ =
      .ok (graph.nodes.size, ⟨tokens, graph.addRow first second⟩) := by
  rw [readNode_eq _ _ _ _ _ rfl]
  simp [readContent, Reading.collect, peek, Reading.isTaken, readFlowItems_two, Reading.advance,
    Graph.addRow, Graph.begin, Graph.addScalar, Properties.collectionTag]

theorem readNode_rows (first second : String) :
    setting.readNode (fuel + 11) .entry
        ⟨.blockSequence :: .dash :: .openSequence :: .scalar first false :: .comma ::
          .scalar second false :: .closeSequence :: .blockEnd :: tokens, graph⟩ =
      .ok (graph.nodes.size, ⟨tokens, graph.addRows first second⟩) := by
  rw [readNode_eq _ _ _ _ _ rfl]
  simp [readContent, Reading.collect, peek, Reading.isTaken, readBlockItems, readNodeUnless,
    readNode_row, Reading.advance, Graph.addRows, Graph.begin, Properties.collectionTag]

/-- A mapping with one entry, whose value is read by what comes after its mark. -/
theorem readNode_entry {place : Place} (hplace : place ≠ .flow) (name : String) {first : Token}
    (hfirst : first ∉ [Token.key, .value, .blockEnd]) {value : List Token} {id : Nat}
    {after : Graph}
    (hvalue : setting.readNode (fuel + 2) .entry ⟨first :: value, graph.beginMapping name⟩ =
      .ok (id, ⟨.blockEnd :: tokens, after⟩)) :
    setting.readNode (fuel + 7) place ⟨keyTokens name ++ first :: value, graph⟩ =
      .ok (graph.nodes.size, ⟨tokens,
        after.complete graph.nodes.size (.mapping [(graph.nodes.size + 1, id)])⟩) := by
  have hstops : first ≠ .key ∧ first ≠ .value ∧ first ≠ .blockEnd := by simpa using hfirst
  have hentries :
      setting.readBlockEntries (fuel + 5)
          ⟨.key :: .scalar name true :: .value :: first :: value,
            (graph.begin none ⟨.mapping, .mapping []⟩).2⟩ =
        .ok ([(graph.nodes.size + 1, id)], ⟨tokens, after⟩) := by
    simp [Graph.beginMapping, Graph.begin] at hvalue
    simp [readBlockEntries, readNodeUnless, readNode_scalar, readValue, peek, Reading.advance,
      hstops, Graph.begin, hvalue]
  have hcollect :
      (Reading.mk (.key :: .scalar name true :: .value :: first :: value) graph).collect
          ⟨none, .absent⟩ .mapping .mapping (setting.readBlockEntries (fuel + 5)) =
        .ok (graph.nodes.size, ⟨tokens,
          after.complete graph.nodes.size (.mapping [(graph.nodes.size + 1, id)])⟩) := by
    rw [Reading.collect]
    simp only [Properties.collectionTag, hentries, ok_bind]
    rfl
  cases place with
  | flow => exact absurd rfl hplace
  | block => exact hcollect
  | entry => exact hcollect

end Setting

/-! ## The graph -/

def namedGraph (name : String) : Graph where
  nodes := #[⟨.mapping, .mapping [(1, 2)]⟩, ⟨.text, .scalar "inflections"⟩,
    ⟨.mapping, .mapping [(3, 4)]⟩, ⟨.ofPlain name, .scalar name⟩, ⟨.sequence, .sequence [5]⟩,
    ⟨.sequence, .sequence [6, 7]⟩, ⟨.text, .scalar "$"⟩, ⟨.text, .scalar "x"⟩]
  anchors := []
  completed := #[1, 3, 6, 7, 5, 4, 2, 0]

theorem ofTokens_unmarkedTokens (name : String) :
    Graph.ofTokens ⟨unmarkedTokens name, .malformed⟩ = .error .malformed := by
  rfl

theorem readNode_namedTokens (setting : Setting) (name : String) :
    setting.readNode 84 .block ⟨namedTokens name, .empty⟩ =
      .ok (0, ⟨[.streamEnd], namedGraph name⟩) := by
  let outer := Graph.empty.beginMapping "inflections"
  let inner := outer.beginMapping name
  have hblock : Place.block ≠ .flow := by decide
  have hentry : Place.entry ≠ .flow := by decide
  have hrules := setting.readNode_rows 63 [.blockEnd, .blockEnd, .streamEnd] inner "$" "x"
  have hinner :=
    setting.readNode_entry 72 [.blockEnd, .streamEnd] outer hentry name (by decide) hrules
  have houter :=
    setting.readNode_entry 77 [.streamEnd] .empty hblock "inflections" (by decide) hinner
  have hkind : Tag.ofPlain "inflections" = .text := by decide +kernel
  refine houter.trans ?_
  simp [outer, inner, namedGraph, Graph.beginMapping, Graph.addRows, Graph.addRow,
    Graph.addScalar, Graph.begin, Graph.complete, Graph.empty, hkind]

theorem ofTokens_blockMapping (fault : Fault) (tokens : List Token) :
    Graph.ofTokens ⟨.blockMapping :: tokens, fault⟩ =
      (Graph.readRoot ⟨.withDefaults .empty, fault⟩ (.blockMapping :: tokens)).map some := by
  simp only [Graph.ofTokens, firstOf, Outcome.ok_bind]
  cases Graph.readRoot ⟨.withDefaults .empty, fault⟩ (.blockMapping :: tokens) <;> rfl

theorem ofTokens_namedTokens (name : String) :
    Graph.ofTokens ⟨namedTokens name, .malformed⟩ = .ok (some (0, namedGraph name)) := by
  have hread := readNode_namedTokens ⟨.withDefaults .empty, .malformed⟩ name
  have hroot : Graph.readRoot ⟨.withDefaults .empty, .malformed⟩ (namedTokens name) =
      .ok (0, namedGraph name) := by
    have hlength : 4 * (namedTokens name).length + 8 = 84 := rfl
    rw [Graph.readRoot, hlength, hread]
    rfl
  exact (ofTokens_blockMapping _ _).trans (congrArg (Except.map some) hroot)

/-! ## The value -/

def namedValue (key : Value) : Value :=
  .mapping [(.text "inflections", .mapping [(key, .list [.list [.text "$", .text "x"]])])]

theorem isPlain_of_mem {kind : Tag} (h : kind ∈ [Tag.text, .null, .int]) :
    kind.isCollection = false ∧ kind ≠ .merge ∧ kind ≠ .default := by
  fin_cases h <;> decide

variable {name : String} {key : Value}

/-- Each collection of the graph is looked at in a round of its own. -/
theorem check_namedGraph (hkind : Tag.ofPlain name ∈ [Tag.text, .null, .int])
    (hvalue : ∀ number, scalarValue number (.ofPlain name) name = .ok key) :
    (namedGraph name).check 0 = .ok (namedGraph name) := by
  obtain ⟨hscalar, hmerge, hdefault⟩ := isPlain_of_mem hkind
  let atRoot := (Array.replicate 8 false).setIfInBounds 0 true
  let atNames := atRoot.setIfInBounds 2 true
  let atRows := atNames.setIfInBounds 4 true
  let atRow := atRows.setIfInBounds 5 true
  have hroot : Rounds.begin ⟨namedGraph name, Array.replicate 8 false, []⟩ 0 =
      .ok ⟨namedGraph name, atRoot, [0]⟩ :=
    Rounds.begin_collection rfl rfl rfl
  have hinflections : Rounds.visit ⟨namedGraph name, atRoot, []⟩ 0 =
      .ok ⟨namedGraph name, atNames, [2]⟩ := by
    rw [Rounds.visit_entry rfl rfl rfl (by decide) (by decide)
      (Rounds.begin_scalar rfl rfl rfl)]
    exact Rounds.begin_collection rfl rfl rfl
  have hname : Rounds.visit ⟨namedGraph name, atNames, []⟩ 2 =
      .ok ⟨namedGraph name, atRows, [4]⟩ := by
    rw [Rounds.visit_entry rfl rfl hscalar hmerge hdefault
      (Rounds.begin_scalar rfl hscalar (hvalue 3))]
    exact Rounds.begin_collection rfl rfl rfl
  have hrows : Rounds.visit ⟨namedGraph name, atRows, []⟩ 4 =
      .ok ⟨namedGraph name, atRow, [5]⟩ := by
    rw [Rounds.visit_sequence rfl, Rounds.beginAll, Rounds.begin_collection rfl rfl rfl]
    rfl
  have hrow : Rounds.visit ⟨namedGraph name, atRow, []⟩ 5 = .ok ⟨namedGraph name, atRow, []⟩ := by
    rw [Rounds.visit_sequence rfl, Rounds.beginAll, Rounds.begin_scalar rfl rfl rfl,
      Outcome.ok_bind, Rounds.beginAll, Rounds.begin_scalar rfl rfl rfl]
    rfl
  have hsize : (namedGraph name).nodes.size = 8 := rfl
  rw [Graph.check]
  simp only [hsize, hroot, Outcome.ok_bind]
  rw [Rounds.run_singleton 7 hinflections, Rounds.run_singleton 6 hname,
    Rounds.run_singleton 5 hrows, Rounds.run_singleton 4 hrow]
  rfl

theorem value_namedGraph (hvalue : ∀ number, scalarValue number (.ofPlain name) name = .ok key) :
    (namedGraph name).value 0 = namedValue key := by
  let heading : Value := .text "inflections"
  let pattern : Value := .text "$"
  let template : Value := .text "x"
  let row : Value := .list [pattern, template]
  let rows : Value := .list [row]
  let inflections : Value := .mapping [(key, rows)]
  let values₀ : Array (Option Value) := #[none, none, none, none, none, none, none, none]
  let values₁ := #[none, some heading, none, none, none, none, none, none]
  let values₂ := #[none, some heading, none, some key, none, none, none, none]
  let values₃ := #[none, some heading, none, some key, none, none, some pattern, none]
  let values₄ := #[none, some heading, none, some key, none, none, some pattern, some template]
  let values₅ := #[none, some heading, none, some key, none, some row, some pattern, some template]
  let values₆ :=
    #[none, some heading, none, some key, some rows, some row, some pattern, some template]
  let values₇ :=
    #[none, some heading, some inflections, some key,
      some rows, some row, some pattern, some template]
  let values₈ :=
    #[some (namedValue key), some heading, some inflections, some key,
      some rows, some row, some pattern, some template]
  -- The nodes in the order in which they became complete, so that parts come before the whole.
  have hheading : (namedGraph name).put values₀ 1 = values₁ :=
    congrArg (values₀.setIfInBounds 1) (Graph.assemble_scalar rfl rfl)
  have hname : (namedGraph name).put values₁ 3 = values₂ :=
    congrArg (values₁.setIfInBounds 3) (Graph.assemble_scalar rfl (hvalue 3))
  have hpattern : (namedGraph name).put values₂ 6 = values₃ :=
    congrArg (values₂.setIfInBounds 6) (Graph.assemble_scalar rfl rfl)
  have htemplate : (namedGraph name).put values₃ 7 = values₄ :=
    congrArg (values₃.setIfInBounds 7) (Graph.assemble_scalar rfl rfl)
  have hrow : (namedGraph name).put values₄ 5 = values₅ :=
    congrArg (values₄.setIfInBounds 5) ((Graph.assemble_sequence rfl).trans rfl)
  have hrows : (namedGraph name).put values₅ 4 = values₆ :=
    congrArg (values₅.setIfInBounds 4) ((Graph.assemble_sequence rfl).trans rfl)
  have hinflections : (namedGraph name).put values₆ 2 = values₇ :=
    congrArg (values₆.setIfInBounds 2) (Graph.assemble_entry rfl rfl rfl)
  have hroot : (namedGraph name).put values₇ 0 = values₈ :=
    congrArg (values₇.setIfInBounds 0) (Graph.assemble_entry rfl rfl rfl)
  have hvalues : (namedGraph name).finiteValues = values₈ := by
    rw [Graph.finiteValues_eq]
    change [1, 3, 6, 7, 5, 4, 2, 0].foldl (namedGraph name).put values₀ = _
    rw [List.foldl_cons, hheading, List.foldl_cons, hname, List.foldl_cons, hpattern,
      List.foldl_cons, htemplate, List.foldl_cons, hrow, List.foldl_cons, hrows,
      List.foldl_cons, hinflections, List.foldl_cons, hroot]
    rfl
  rw [Graph.value, hvalues]
  rfl

theorem load_namedText {name : List Char} {key : Value} {shown : String} (hne : name ≠ [])
    (hname : ∀ c ∈ name, c.isAlphanum = true) (hlength : name.length ≤ longestKey)
    (hkey : ReadsAs (String.ofList name) key shown) :
    load (namedText (String.ofList name)) = .ok (namedValue key) := by
  rw [load, ofText_namedText hne hname, if_pos hlength, ofTokens_namedTokens]
  simp only [Outcome.ok_bind]
  rw [check_namedGraph hkey.kind hkey.value, Outcome.ok_bind, value_namedGraph hkey.value]

theorem load_namedText_long {name : List Char} (hne : name ≠ [])
    (hname : ∀ c ∈ name, c.isAlphanum = true) (hlength : longestKey < name.length) :
    load (namedText (String.ofList name)) = .error .malformed := by
  rw [load, ofText_namedText hne hname, if_neg (by omega), ofTokens_unmarkedTokens]
  rfl

end Interlinear.Yaml
