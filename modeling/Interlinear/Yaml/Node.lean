import Interlinear.Yaml.Lexer
import Interlinear.Yaml.Resolution

/-!
# Nodes of configuration documents

A document is a graph of nodes: scalars, sequences of nodes and mappings of nodes to nodes.  Nodes
have numbers, and an alias is the number of the node with the anchor.  An anchor may be used as soon
as its node begins, so that a node may contain itself.  A node is complete when all its parts are;
the order in which nodes become complete is kept.
-/

namespace Interlinear.Yaml

inductive Content where
  | scalar (text : String)
  | sequence (items : List Nat)
  | mapping (entries : List (Nat × Nat))
deriving DecidableEq

structure Node where
  tag : Tag
  content : Content
deriving DecidableEq

structure Graph where
  nodes : Array Node
  anchors : List (String × Nat)
  /-- The nodes in the order in which they became complete. -/
  completed : Array Nat

namespace Graph

def empty : Graph :=
  ⟨#[], [], #[]⟩

/-- Begins a node, with its anchor if it has one. -/
def begin (graph : Graph) (anchor : Option String) (node : Node) : Nat × Graph :=
  let id := graph.nodes.size
  (id, { graph with
    nodes := graph.nodes.push node
    anchors := (anchor.map fun name => (name, id)).toList ++ graph.anchors })

/-- Gives a node its content. -/
def complete (graph : Graph) (id : Nat) (content : Content) : Graph :=
  { graph with
    nodes := graph.nodes.modify id fun node => { node with content := content }
    completed := graph.completed.push id }

def addScalar (graph : Graph) (anchor : Option String) (tag : Tag) (text : String) : Nat × Graph :=
  let (id, graph) := graph.begin anchor ⟨tag, .scalar text⟩
  (id, { graph with completed := graph.completed.push id })

end Graph

/-- What is still to be read and what has been. -/
structure Reading where
  tokens : List Token
  graph : Graph

def Reading.advance (reading : Reading) : Reading :=
  { reading with tokens := reading.tokens.tail }

/-- What holds for a whole document: its handles, and why its tokens end early if they do. -/
structure Setting where
  handles : Handles
  fault : Fault

/-- Where a node stands. -/
inductive Place where
  | block
  /-- As a key or value of a block mapping, where a block sequence may be indented as the mapping.
  -/
  | entry
  | flow
deriving DecidableEq

/-- What may stand before the content of a node. -/
structure Properties where
  anchor : Option String
  tag : TagSpec

namespace Properties

def isEmpty (properties : Properties) : Bool :=
  match properties.anchor, properties.tag with
  | none, .absent => true
  | _, _ => false

def scalarTag (properties : Properties) (text : String) (isPlain : Bool) : Tag :=
  match properties.tag with
  | .named tag => tag
  | .plain => .ofPlain text
  | .absent => if isPlain then .ofPlain text else .text

def collectionTag (properties : Properties) (usual : Tag) : Tag :=
  match properties.tag with
  | .named tag => tag
  | .plain | .absent => usual

end Properties

namespace Setting

def peek (setting : Setting) (reading : Reading) : Except Fault Token :=
  match reading.tokens with
  | [] => .error setting.fault
  | token :: _ => .ok token

def readTag (setting : Setting) (text : TagText) : Except Fault TagSpec :=
  match setting.handles.resolve? text with
  | some tag => .ok tag
  | none => .error .malformed

/-- The anchor and the tag before a node, in either order. -/
def readProperties (setting : Setting) (reading : Reading) :
    Except Fault (Properties × Reading) :=
  match reading.tokens with
  | .anchor name :: .tag text :: tokens | .tag text :: .anchor name :: tokens => do
      let tag ← setting.readTag text
      .ok (⟨some name, tag⟩, { reading with tokens := tokens })
  | .anchor name :: tokens =>
      if tokens.isEmpty then .error setting.fault
      else .ok (⟨some name, .absent⟩, { reading with tokens := tokens })
  | .tag text :: tokens =>
      if tokens.isEmpty then .error setting.fault
      else do
        let tag ← setting.readTag text
        .ok (⟨none, tag⟩, { reading with tokens := tokens })
  | _ => .ok (⟨none, .absent⟩, reading)

end Setting

namespace Reading

def emptyScalar (reading : Reading) : Nat × Reading :=
  let (id, graph) := reading.graph.addScalar none .null ""
  (id, { reading with graph := graph })

def addScalar (reading : Reading) (properties : Properties) (text : String) (isPlain : Bool) :
    Nat × Reading :=
  let (id, graph) :=
    reading.graph.addScalar properties.anchor (properties.scalarTag text isPlain) text
  (id, { reading with graph := graph })

/-- Whether an anchor is in use already. -/
def isTaken (reading : Reading) (anchor : Option String) : Bool :=
  anchor.any fun name => (reading.graph.anchors.lookup name).isSome

/-- A collection whose parts are read by a function. -/
def collect {α : Type} (reading : Reading) (properties : Properties) (usual : Tag)
    (content : List α → Content) (read : Reading → Except Fault (List α × Reading)) :
    Except Fault (Nat × Reading) := do
  let (id, graph) :=
    reading.graph.begin properties.anchor ⟨properties.collectionTag usual, content []⟩
  let (parts, reading) ← read { reading with graph := graph }
  .ok (id, { reading with graph := reading.graph.complete id (content parts) })

end Reading

/-- Skips the comma before an entry of a flow collection, which stands before all but the first. -/
def Setting.afterComma (setting : Setting) (isFirst : Bool) (close : Token) (reading : Reading) :
    Except Fault Reading := do
  let token ← setting.peek reading
  if isFirst || token = close then .ok reading
  else if token = .comma then .ok reading.advance
  else .error .malformed

namespace Setting

mutual
def readNode (setting : Setting) :
    (fuel : Nat) → Place → Reading → Except Fault (Nat × Reading)
  | 0, _, _ => .error .malformed
  | fuel + 1, place, reading =>
      match reading.tokens with
      | .alias name :: _ =>
          match reading.graph.anchors.lookup name with
          | some id => .ok (id, reading.advance)
          | none => .error .malformed
      | _ => do
          let (properties, reading) ← setting.readProperties reading
          readContent setting fuel place properties reading

def readContent (setting : Setting) :
    (fuel : Nat) → Place → Properties → Reading → Except Fault (Nat × Reading)
  | 0, _, _, _ => .error .malformed
  | fuel + 1, place, properties, reading => do
      let token ← setting.peek reading
      if reading.isTaken properties.anchor then .error .malformed
      else
        match token, place with
        | .scalar text isPlain, _ => .ok (reading.advance.addScalar properties text isPlain)
        | .dash, .entry =>
            reading.collect properties .sequence .sequence (readDashes setting fuel)
        | .openSequence, _ =>
            reading.advance.collect properties .sequence .sequence
              (readFlowItems setting fuel true)
        | .openMapping, _ =>
            reading.advance.collect properties .mapping .mapping
              (readFlowEntries setting fuel true)
        | .blockSequence, .block | .blockSequence, .entry =>
            reading.advance.collect properties .sequence .sequence
              (readBlockItems setting fuel)
        | .blockMapping, .block | .blockMapping, .entry =>
            reading.advance.collect properties .mapping .mapping
              (readBlockEntries setting fuel)
        | _, _ =>
            if properties.isEmpty then .error .malformed
            else .ok (reading.addScalar properties "" true)

/-- A node, or an empty scalar where a token stands before which there is no node. -/
def readNodeUnless (setting : Setting) :
    (fuel : Nat) → Place → (stops : List Token) → Reading → Except Fault (Nat × Reading)
  | 0, _, _, _ => .error .malformed
  | fuel + 1, place, stops, reading => do
      let token ← setting.peek reading
      if stops.contains token then .ok reading.emptyScalar
      else readNode setting fuel place reading

/-- A value after its mark, or an empty scalar where there is no mark. -/
def readValue (setting : Setting) :
    (fuel : Nat) → Place → (stops : List Token) → Reading → Except Fault (Nat × Reading)
  | 0, _, _, _ => .error .malformed
  | fuel + 1, place, stops, reading => do
      let token ← setting.peek reading
      if token = .value then readNodeUnless setting fuel place stops reading.advance
      else .ok reading.emptyScalar

def readBlockItems (setting : Setting) :
    (fuel : Nat) → Reading → Except Fault (List Nat × Reading)
  | 0, _ => .error .malformed
  | fuel + 1, reading => do
      let token ← setting.peek reading
      match token with
      | .dash =>
          let (item, reading) ←
            readNodeUnless setting fuel .block [.dash, .blockEnd] reading.advance
          let (items, reading) ← readBlockItems setting fuel reading
          .ok (item :: items, reading)
      | .blockEnd => .ok ([], reading.advance)
      | _ => .error .malformed

/-- The items of a block sequence that is not indented. -/
def readDashes (setting : Setting) :
    (fuel : Nat) → Reading → Except Fault (List Nat × Reading)
  | 0, _ => .error .malformed
  | fuel + 1, reading => do
      let token ← setting.peek reading
      match token with
      | .dash =>
          let (item, reading) ←
            readNodeUnless setting fuel .block [.dash, .key, .value, .blockEnd] reading.advance
          let (items, reading) ← readDashes setting fuel reading
          .ok (item :: items, reading)
      | _ => .ok ([], reading)

def readBlockEntries (setting : Setting) :
    (fuel : Nat) → Reading → Except Fault (List (Nat × Nat) × Reading)
  | 0, _ => .error .malformed
  | fuel + 1, reading => do
      let token ← setting.peek reading
      match token with
      | .key =>
          let stops := [.key, .value, .blockEnd]
          let (key, reading) ← readNodeUnless setting fuel .entry stops reading.advance
          let (value, reading) ← readValue setting fuel .entry stops reading
          let (entries, reading) ← readBlockEntries setting fuel reading
          .ok ((key, value) :: entries, reading)
      | .blockEnd => .ok ([], reading.advance)
      | _ => .error .malformed

def readFlowItems (setting : Setting) :
    (fuel : Nat) → (isFirst : Bool) → Reading → Except Fault (List Nat × Reading)
  | 0, _, _ => .error .malformed
  | fuel + 1, isFirst, reading => do
      let reading ← setting.afterComma isFirst .closeSequence reading
      let token ← setting.peek reading
      match token with
      | .closeSequence => .ok ([], reading.advance)
      | .key =>
          let (item, reading) ←
            reading.advance.collect ⟨none, .absent⟩ .mapping .mapping (readFlowPair setting fuel)
          let (items, reading) ← readFlowItems setting fuel false reading
          .ok (item :: items, reading)
      | _ =>
          let (item, reading) ← readNode setting fuel .flow reading
          let (items, reading) ← readFlowItems setting fuel false reading
          .ok (item :: items, reading)

/-- The only entry of a mapping that is written as an item of a flow sequence, after its mark. -/
def readFlowPair (setting : Setting) :
    (fuel : Nat) → Reading → Except Fault (List (Nat × Nat) × Reading)
  | 0, _ => .error .malformed
  | fuel + 1, reading => do
      let (key, reading) ←
        readNodeUnless setting fuel .flow [.value, .comma, .closeSequence] reading
      let (value, reading) ← readValue setting fuel .flow [.comma, .closeSequence] reading
      .ok ([(key, value)], reading)

def readFlowEntries (setting : Setting) :
    (fuel : Nat) → (isFirst : Bool) → Reading → Except Fault (List (Nat × Nat) × Reading)
  | 0, _, _ => .error .malformed
  | fuel + 1, isFirst, reading => do
      let reading ← setting.afterComma isFirst .closeMapping reading
      let token ← setting.peek reading
      match token with
      | .closeMapping => .ok ([], reading.advance)
      | .key =>
          let (key, reading) ← readNodeUnless setting fuel .flow [.value, .comma, .closeMapping]
            reading.advance
          let (value, reading) ← readValue setting fuel .flow [.comma, .closeMapping] reading
          let (entries, reading) ← readFlowEntries setting fuel false reading
          .ok ((key, value) :: entries, reading)
      | _ =>
          let (key, reading) ← readNode setting fuel .flow reading
          let (value, reading) := reading.emptyScalar
          let (entries, reading) ← readFlowEntries setting fuel false reading
          .ok ((key, value) :: entries, reading)
end

end Setting

/-! ## Documents -/

/-- Whether a token ends a document that has begun with its mark, or precedes such a mark. -/
def Token.isBoundary : Token → Bool
  | directive _ | documentStart | documentEnd | streamEnd => true
  | _ => false

/-- What the directives read so far say. -/
structure Prologue where
  hasVersion : Bool
  handles : Handles

namespace Prologue

def empty : Prologue :=
  ⟨false, .empty⟩

/-- The version is given at most once and is 1; a handle is explained at most once. -/
def add (prologue : Prologue) : Directive → Except Fault Prologue
  | .version major =>
      if prologue.hasVersion || major ≠ 1 then .error .malformed
      else .ok { prologue with hasVersion := true }
  | .handle name text =>
      if prologue.handles.contains name then .error .malformed
      else .ok { prologue with handles := prologue.handles.insert name text }
  | .reserved => .ok prologue

/-- The directives at the start of some tokens. -/
def read (prologue : Prologue) : List Token → Except Fault (Prologue × List Token)
  | .directive directive :: tokens => do
      let prologue ← prologue.add directive
      prologue.read tokens
  | tokens => .ok (prologue, tokens)

end Prologue

def firstOf (fault : Fault) : List Token → Except Fault Token
  | [] => .error fault
  | token :: _ => .ok token

/-- Nothing but marks for the end of a document may follow it. -/
def checkEnd (fault : Fault) (tokens : List Token) : Except Fault Unit := do
  let tokens := tokens.dropWhile (· = .documentEnd)
  let token ← firstOf fault tokens
  if token = .streamEnd then .ok ()
  else
    let (_, tokens) ← Prologue.empty.read tokens
    let _ ← firstOf fault tokens
    .error .malformed

namespace Graph

/-- The graph of a document and its root. -/
def readRoot (setting : Setting) (tokens : List Token) : Except Fault (Nat × Graph) := do
  let (id, reading) ← setting.readNode (4 * tokens.length + 8) .block ⟨tokens, .empty⟩
  checkEnd setting.fault reading.tokens
  .ok (id, reading.graph)

/-- A document after its mark, where it may be empty. -/
def readMarked (setting : Setting) (tokens : List Token) :
    Except Fault (Option (Nat × Graph)) := do
  let token ← firstOf setting.fault tokens
  if token.isBoundary then
    checkEnd setting.fault tokens
    .ok none
  else
    let document ← readRoot setting tokens
    .ok (some document)

/-- The graph and the root of the only document, unless it is empty. -/
def ofTokens (stream : Tokens) : Except Fault (Option (Nat × Graph)) := do
  let token ← firstOf stream.fault stream.tokens
  match token with
  | .streamEnd => .ok none
  | .directive _ | .documentStart => do
      let (prologue, tokens) ← Prologue.empty.read stream.tokens
      let token ← firstOf stream.fault tokens
      if token = .documentStart then
        readMarked ⟨prologue.handles.withDefaults, stream.fault⟩ tokens.tail
      else
        .error .malformed
  | _ =>
      let document ← readRoot ⟨.withDefaults .empty, stream.fault⟩ stream.tokens
      .ok (some document)

end Graph

end Interlinear.Yaml
