import Interlinear.Pattern.Escape
import Interlinear.Pattern.Flags
import Interlinear.Unicode.Identifier

/-!
# Reading patterns

A pattern is a choice of sequences of items, and an item is a character, a class, an anchor, a group
or a repetition of the item before it.  Reading keeps the groups opened so far, with their widths
once they are closed, because a reference may only name a closed group and looking behind needs a
width.

A group without a name and flags only brackets its part, which becomes part of the sequence around
it. Alternatives share the leaves that they all begin with, and alternatives of one character each
become a class.

Every call of the reader is for a part of the pattern that begins one symbol later, or opens a level
of which there are three kinds, so that a multiple of the number of symbols bounds the nesting.
-/

namespace Interlinear.Pattern

/-- What has been read of a pattern. -/
structure Build where
  cursor : Cursor
  /-- The widths of the groups in order; an open group has none. -/
  groups : List (Option Width)
  names : List (List Char × Nat)
  /-- The number of groups when the outermost lookbehind was opened. -/
  lookbehind : Option Nat
  /-- Groups that conditions name by number, with their positions; they may come later. -/
  awaited : List (Nat × Nat)
  /-- The flags of the whole pattern. -/
  flags : Flags

abbrev Builder := StateT Build (Except CompileError)

namespace Builder

def stop {α : Type} (fault : Fault) : Builder α :=
  throw (.ofFault fault)

def onCursor {α : Type} (move : Cursor → Except Fault (α × Cursor)) : Builder α := do
  match move (← get).cursor with
  | .ok (a, cursor) => modifyGet fun b => (a, { b with cursor := cursor })
  | .error fault => stop fault

def cursor : Builder Cursor := do
  return (← get).cursor

def position : Builder Nat := do
  return (← cursor).position

/-- Fails `back` characters before the cursor. -/
def fail {α : Type} (cause : Cause) (back : Nat) : Builder α := do
  stop ((← cursor).fault cause back)

def failAt {α : Type} (cause : Cause) (position : Nat) : Builder α := do
  stop ⟨(← cursor).source, cause, some position⟩

def peek : Builder (Option Symbol) := do
  return (← cursor).peek

def skip : Builder Unit :=
  onCursor fun cursor => do .ok ((), ← cursor.advance)

/-- Passes the character if it comes next. -/
def accept (c : Char) : Builder Bool := do
  if (← cursor).isNext c then
    skip
    return true
  else
    return false

def groupCount : Builder Nat := do
  return (← get).groups.length

/-- The width of a group: none for a group that is open or does not exist. -/
def groupWidth? (group : Nat) : Builder (Option Width) := do
  return ((← get).groups[group - 1]?).join

def groupNamed? (name : List Char) : Builder (Option Nat) := do
  return (← get).names.lookup name

/-- Groups opened in a lookbehind may not be referred to in it. -/
def checkLookbehind (group : Nat) : Builder Unit := do
  if let some count := (← get).lookbehind then
    if (← groupWidth? group).isNone then
      fail .openGroup 0
    if count < group then
      fail .groupInSameLookbehind 0

def openGroup (name : Option (List Char)) : Builder Nat := do
  let index := (← groupCount) + 1
  if let some name := name then
    if let some previous ← groupNamed? name then
      fail (.redefinedGroup name index previous) (name.length + 1)
    modify fun b => { b with names := b.names ++ [(name, index)] }
  modify fun b => { b with groups := b.groups ++ [none] }
  return index

def widthOf (nodes : List Node) : Builder Width := do
  let groups := (← get).groups
  return Width.ofNode (fun group => (groups[group - 1]?).join.getD .zero) (.ofList nodes)

def closeGroup (index : Nat) (nodes : List Node) : Builder Unit := do
  let width ← widthOf nodes
  modify fun b => { b with groups := b.groups.set (index - 1) (some width) }

end Builder

/-- An item of a sequence: one node, or the nodes of a group that only brackets. -/
inductive Item where
  | one (node : Node)
  | splice (nodes : List Node)

def Item.nodes : Item → List Node
  | one node => [node]
  | splice nodes => nodes

/-- The nodes of a sequence whose items are in reverse. -/
def sequenceNodes (items : List Item) : List Node :=
  items.reverse.flatMap Item.nodes

/-! Alternatives. -/

/-- Whether two nodes are the same leaf.  Groups and repetitions are never the same. -/
def Node.sameLeaf : Node → Node → Bool
  | .char a, .char b => a == b
  | .anchor a, .anchor b => a == b
  | .reference g f, .reference h e => g == h && f == e
  | _, _ => false

/-- The leaf that all alternatives begin with. -/
def sharedLeaf? : List (List Node) → Option Node
  | (node :: _) :: others =>
      if others.all (fun nodes => nodes.head?.any (node.sameLeaf ·)) && node.sameLeaf node then
        some node
      else
        none
  | _ => none

/-- The leaves that all alternatives begin with, and the alternatives without them. -/
def splitShared : (fuel : Nat) → List (List Node) → List Node × List (List Node)
  | 0, alternatives => ([], alternatives)
  | fuel + 1, alternatives =>
      match sharedLeaf? alternatives with
      | none => ([], alternatives)
      | some node =>
          let (shared, rest) := splitShared fuel (alternatives.map List.tail)
          (node :: shared, rest)

/-- The class that an alternative of one character stands for. -/
def classItems? : List Node → Option (List ClassItem)
  | [.char (.code code false _)] => some [.code code]
  | [.char (.set items false _)] => some items
  | _ => none

def allClassItems? : List (List Node) → Option (List ClassItem)
  | [] => some []
  | alternative :: alternatives =>
      match classItems? alternative, allClassItems? alternatives with
      | some items, some others => some (items ++ others)
      | _, _ => none

/-- The nodes of a choice. -/
def choiceNodes (folding : Folding) (alternatives : List (List Node)) : List Node :=
  match alternatives with
  | [nodes] => nodes
  | _ =>
      let (shared, rest) :=
        splitShared (alternatives.head?.map List.length |>.getD 0) alternatives
      match allClassItems? rest with
      | some items => shared ++ [.char (.set items.eraseDups false folding)]
      | none => shared ++ [.choice (rest.map Node.ofList)]

/-! Leaves. -/

namespace Builder

def literal (flags : Flags) (code : Nat) : Node :=
  .char (.code code false flags.folding)

/-- A reference by number, after its digits. -/
def numberedReference (flags : Flags) (digits : List Char) : Builder Node := do
  let group := numberIn 10 digits
  if group ≤ (← groupCount) then
    if (← groupWidth? group).isNone then
      fail .openGroup (digits.length + 1)
    checkLookbehind group
    return .reference group flags.folding
  else
    fail (.invalidGroup group) digits.length

variable [Unicode.Names]

/-- The node of an escape outside classes. -/
def escapeNode (flags : Flags) (c : Char) : Builder Node := do
  if c = 'A' then return .anchor .textStart
  if c = 'Z' then return .anchor .textEnd
  if c = 'b' ∨ c = 'B' then return .anchor (.boundary (c == 'B') flags.isAscii)
  if let some item := category? flags.isAscii c then
    return .char (.set [item] false flags.folding)
  if let some code := controlCode? c then return literal flags code
  if let some count := hexDigitsAfter c then
    return literal flags (← onCursor fun cursor => cursor.hexEscape c count)
  if c = 'N' then
    return literal flags (← onCursor Cursor.namedEscape)
  if c = '0' then
    let digits ← onCursor (Cursor.takeUpTo isOctal 2)
    return literal flags (numberIn 8 digits)
  if Numeral.isAsciiDigit c then
    match ← onCursor fun cursor => cursor.numberEscape c with
    | .code code => return literal flags code
    | .group digits => return ← numberedReference flags digits
  if isAsciiLetter c then
    stop ((← cursor).badEscape c)
  return literal flags c.toNat

/-- A symbol of a class as the member it stands for. -/
def classMember (flags : Flags) (symbol : Symbol) : Builder ClassItem :=
  match symbol with
  | .plain c => pure (.code c.toNat)
  | .escaped c => onCursor fun cursor => cursor.classEscape flags.isAscii c
  | .dangling => pure (.code 0x5C)

/-- The next symbol of a class that began at `start`. -/
def classSymbol (start : Nat) : Builder Symbol := do
  match ← peek with
  | none => failAt .unterminatedSet start
  | some symbol =>
      skip
      return symbol

/-- The members of a class; those read are in reverse. -/
def classMembers (flags : Flags) (start : Nat) :
    (fuel : Nat) → List ClassItem → Builder (List ClassItem)
  | 0, _ => failAt .unterminatedSet start
  | fuel + 1, items => do
      let symbol ← classSymbol start
      if symbol = .plain ']' ∧ !items.isEmpty then
        return items.reverse
      let member ← classMember flags symbol
      if ← accept '-' then
        let second ← classSymbol start
        if second = .plain ']' then
          return (.code '-'.toNat :: member :: items).reverse
        let other ← classMember flags second
        let bad := Cause.badRange symbol.text second.text
        let back := symbol.text.length + 1 + second.text.length
        match member, other with
        | .code low, .code high =>
            if high < low then
              fail bad back
            classMembers flags start fuel (.range low high :: items)
        | _, _ => fail bad back
      else
        classMembers flags start fuel (member :: items)

/-- A class, after its opening bracket. -/
def classNode (flags : Flags) : Builder Node := do
  let start := (← position) - 1
  let negated ← accept '^'
  let fuel := (← cursor).rest.length + 1
  let items := (← classMembers flags start fuel []).eraseDups
  match items with
  | [.code code] => return .char (.code code negated flags.folding)
  | _ => return .char (.set items negated flags.folding)

/-! Repetitions. -/

/-- Repetition counts from here on are too large. -/
def repetitionLimit : Nat := Nat.pow 2 32 - 1

def repetitionCount (digits : List Char) : Builder Nat := do
  if Numeral.digitLimit < digits.length then
    throw (.numberTooLong (.tooLong digits.length))
  let count := numberIn 10 digits
  if repetitionLimit ≤ count then
    throw .repetitionTooLarge
  return count

/-- The bounds in braces, after the opening one; none if the brace is a character of its own. -/
def braceBounds? : Builder (Option (Nat × Option Nat)) := do
  let start ← cursor
  let refuse : Builder (Option (Nat × Option Nat)) := do
    modify fun b => { b with cursor := start }
    return none
  if start.isNext '\x7d' then
    return none
  let low ← onCursor (Cursor.takeWhile Numeral.isAsciiDigit)
  let high ← if ← accept ',' then onCursor (Cursor.takeWhile Numeral.isAsciiDigit) else pure low
  if !(← accept '\x7d') then
    return ← refuse
  let least ← if low.isEmpty then pure 0 else repetitionCount low
  if high.isEmpty then
    return some (least, none)
  let most ← repetitionCount high
  if most < least then
    failAt .leastAboveMost start.position
  return some (least, some most)

def bounds? (c : Char) : Builder (Option (Nat × Option Nat)) :=
  if c = '?' then pure (some (0, some 1))
  else if c = '*' then pure (some (0, none))
  else if c = '+' then pure (some (1, none))
  else braceBounds?

/-- How a repetition goes on, which is said after its bounds. -/
def greed : Builder Greed := do
  if ← accept '?' then
    return .lazy
  if ← accept '+' then
    return .possessive
  return .greedy

/-- The items after the quantifier `c`, which has been passed. -/
def quantified (flags : Flags) (c : Char) (items : List Item) : Builder (List Item) := do
  let start := (← position) - 1
  match ← bounds? c with
  | none => return .one (literal flags c.toNat) :: items
  | some (least, most) =>
      match items with
      | [] => failAt .nothingToRepeat start
      | .one (.anchor _) :: _ => failAt .nothingToRepeat start
      | .one (.repeated _ _ _ _) :: _ => failAt .multipleRepeat start
      | item :: items =>
          let greed ← greed
          return .one (.repeated greed least most (.ofList item.nodes)) :: items

/-! Groups. -/

/-- What comes of a parenthesis: nothing, an item, or flags for the whole pattern. -/
inductive Bracketed where
  | nothing
  | item (item : Item)
  | global

/-- Group numbers from here on are refused. -/
def groupLimit : Nat := Nat.pow 2 30 - 1

def checkName (name : List Char) : Builder Unit := do
  if !Unicode.isIdentifier name then
    fail (.badGroupName name) (name.length + 1)

def knownGroup (name : List Char) : Builder Nat := do
  match ← groupNamed? name with
  | some group => return group
  | none => fail (.unknownGroup name) (name.length + 1)

/-- A reference by name, after the equals sign. -/
def namedReference (flags : Flags) : Builder Node := do
  let name ← onCursor (Cursor.takeName ')' "group name")
  checkName name
  let group ← knownGroup name
  if (← groupWidth? group).isNone then
    fail .openGroup (name.length + 1)
  checkLookbehind group
  return .reference group flags.folding

/-- The group that a condition names, up to its closing parenthesis. -/
def conditionGroup : Builder Nat := do
  let name ← onCursor (Cursor.takeName ')' "group name")
  let back := name.length + 1
  if Unicode.isIdentifier name then
    let group ← knownGroup name
    checkLookbehind group
    return group
  match Numeral.readInteger (String.ofList name) with
  | .ok (.ofNat group) =>
      if group = 0 then
        fail .zeroGroup back
      if groupLimit ≤ group then
        fail (.invalidGroup group) back
      if ((← get).awaited.lookup group).isNone then
        let position ← position
        modify fun b => { b with awaited := b.awaited ++ [(group, position - back)] }
      checkLookbehind group
      return group
  | _ => fail (.badGroupName name) back

def skipComment (start : Nat) : (fuel : Nat) → Builder Unit
  | 0 => failAt .unterminatedComment start
  | fuel + 1 => do
      match ← peek with
      | none => failAt .unterminatedComment start
      | some symbol =>
          skip
          if symbol ≠ .plain ')' then
            skipComment start fuel

/-- Passes the rest of a line. -/
def skipLine : (fuel : Nat) → Builder Unit
  | 0 => pure ()
  | fuel + 1 => do
      match ← peek with
      | none => pure ()
      | some symbol =>
          skip
          if symbol ≠ .plain '\n' then
            skipLine fuel

def close (start : Nat) : Builder Unit := do
  if !(← accept ')') then
    failAt .unterminatedPart start

def isPatternBlank (c : Char) : Bool :=
  Numeral.isAsciiBlank c

/-- The flags in force, and whether the part is the top level of the pattern. -/
structure Scope where
  flags : Flags
  top : Bool

mutual
/-- A choice of sequences. -/
def choice : (fuel : Nat) → Scope → Builder (List Node)
  | 0, _ => pure []
  | fuel + 1, scope => do
      let first ← sequence fuel scope scope.top []
      let globalFlags := (← get).flags
      let scope := if scope.top then { scope with flags := globalFlags } else scope
      let others ← alternatives fuel scope
      return choiceNodes scope.flags.folding (first :: others)
/-- The sequences after the first, each after a bar. -/
def alternatives : (fuel : Nat) → Scope → Builder (List (List Node))
  | 0, _ => pure []
  | fuel + 1, scope => do
      if ← accept '|' then
        let nodes ← sequence fuel scope false []
        let others ← alternatives fuel scope
        return nodes :: others
      else
        return []
/-- A sequence; the items read are in reverse. -/
def sequence : (fuel : Nat) → Scope → (first : Bool) → List Item → Builder (List Node)
  | 0, _, _, items => pure (sequenceNodes items)
  | fuel + 1, scope, first, items => do
      let flags := scope.flags
      match ← peek with
      | none => return sequenceNodes items
      | some (.plain '|') => return sequenceNodes items
      | some (.plain ')') => return sequenceNodes items
      | some (.escaped c) =>
          skip
          let node ← escapeNode flags c
          sequence fuel scope first (.one node :: items)
      | some .dangling => return sequenceNodes items
      | some (.plain c) =>
          skip
          if flags.verbose && isPatternBlank c then
            sequence fuel scope first items
          else if flags.verbose && c == '#' then
            skipLine (← cursor).rest.length
            sequence fuel scope first items
          else if c = '[' then
            let node ← classNode flags
            sequence fuel scope first (.one node :: items)
          else if c = '*' ∨ c = '+' ∨ c = '?' ∨ c = '\x7b' then
            let items ← quantified flags c items
            sequence fuel scope first items
          else if c = '.' then
            sequence fuel scope first (.one (.char (.any flags.dotAll)) :: items)
          else if c = '^' then
            let anchor := if flags.multiline then Anchor.lineStart else Anchor.textStart
            sequence fuel scope first (.one (.anchor anchor) :: items)
          else if c = '$' then
            let anchor := if flags.multiline then Anchor.lineEnd else Anchor.lastEnd
            sequence fuel scope first (.one (.anchor anchor) :: items)
          else if c = '(' then
            let start := (← position) - 1
            match ← bracketed fuel flags start with
            | .nothing => sequence fuel scope first items
            | .item item => sequence fuel scope first (item :: items)
            | .global =>
                if !first || !items.isEmpty then
                  failAt .lateGlobalFlags start
                sequence fuel { scope with flags := (← get).flags } first items
          else
            sequence fuel scope first (.one (literal flags c.toNat) :: items)
/-- What a parenthesis opens, which has been passed. -/
def bracketed : (fuel : Nat) → Flags → (start : Nat) → Builder Bracketed
  | 0, _, start => failAt .unterminatedPart start
  | fuel + 1, flags, start => do
      if !(← accept '?') then
        return ← captured fuel flags start none
      let symbol ← onCursor fun cursor => cursor.next .patternEnd
      match symbol with
      | .plain 'P' =>
          if ← accept '<' then
            let name ← onCursor (Cursor.takeName '>' "group name")
            checkName name
            return ← captured fuel flags start (some name)
          if ← accept '=' then
            return .item (.one (← namedReference flags))
          let symbol ← onCursor fun cursor => cursor.next .patternEnd
          fail (.unknownExtension ('P' :: symbol.text)) (symbol.text.length + 2)
      | .plain ':' =>
          let nodes ← part fuel flags start
          return .item (.splice nodes)
      | .plain '#' =>
          skipComment start ((← cursor).rest.length + 1)
          return .nothing
      | .plain '=' =>
          let nodes ← part fuel flags start
          return .item (.one (.ahead false (.ofList nodes)))
      | .plain '!' =>
          let nodes ← part fuel flags start
          return .item (.one (.ahead true (.ofList nodes)))
      | .plain '<' =>
          let symbol ← onCursor fun cursor => cursor.next .patternEnd
          if symbol = .plain '=' ∨ symbol = .plain '!' then
            let outer := (← get).lookbehind
            let count ← groupCount
            modify fun b => { b with lookbehind := some (outer.getD count) }
            let nodes ← choice fuel ⟨flags, false⟩
            modify fun b => { b with lookbehind := outer }
            close start
            let width ← widthOf nodes
            return .item (.one (.behind width (symbol == .plain '!') (.ofList nodes)))
          else
            fail (.unknownExtension ('<' :: symbol.text)) (symbol.text.length + 2)
      | .plain '(' =>
          let group ← conditionGroup
          let yes ← sequence fuel ⟨flags, false⟩ false []
          let no ←
            if ← accept '|' then
              let no ← sequence fuel ⟨flags, false⟩ false []
              if (← cursor).isNext '|' then
                fail .thirdBranch 0
              pure no
            else
              pure []
          close start
          return .item (.one (.conditional group (.ofList yes) (.ofList no)))
      | .plain '>' =>
          let nodes ← part fuel flags start
          return .item (.one (.atomic (.ofList nodes)))
      | .plain c =>
          if c = '-' ∨ Flags.isLetter c then
            match ← onCursor fun cursor => cursor.flagGroup c with
            | .global on =>
                modify fun b => { b with flags := b.flags.setAll true on }
                return .global
            | .part on off =>
                let nodes ← part fuel (flags.within on off) start
                return .item (.one (.flagged (.ofList nodes)))
          else
            fail (.unknownExtension [c]) 2
      | symbol => fail (.unknownExtension symbol.text) (symbol.text.length + 1)
/-- A choice in parentheses, up to the closing one. -/
def part : (fuel : Nat) → Flags → (start : Nat) → Builder (List Node)
  | 0, _, start => failAt .unterminatedPart start
  | fuel + 1, flags, start => do
      let nodes ← choice fuel ⟨flags, false⟩
      close start
      return nodes
/-- A group that captures what it matches. -/
def captured : (fuel : Nat) → Flags → (start : Nat) → Option (List Char) → Builder Bracketed
  | 0, _, start, _ => failAt .unterminatedPart start
  | fuel + 1, flags, start, name => do
      let index ← openGroup name
      let nodes ← choice fuel ⟨flags, false⟩
      close start
      closeGroup index nodes
      return .item (.one (.group index (.ofList nodes)))
end

end Builder

/-! Patterns. -/

/-- The greatest distance that a pattern can look behind. -/
def lookbehindLimit : Nat := Nat.pow 2 32 - 1

def Greed.refused : Greed → Cause
  | greedy => .refusedRepeat "MAX_REPEAT"
  | lazy => .refusedRepeat "MIN_REPEAT"
  | possessive => .refusedRepeat "POSSESSIVE_REPEAT"

/-- The first part, from left to right and from the outside in, that cannot be matched: a lookbehind
without a fixed width, or a repetition where they are refused. -/
def Node.defect? (plain : Bool) : Node → Option Cause
  | empty | char _ | anchor _ | reference _ _ => none
  | seq first second => (first.defect? plain).or (second.defect? plain)
  | either first second => (first.defect? plain).or (second.defect? plain)
  | group _ body => body.defect? plain
  | flagged body => body.defect? plain
  | atomic body => body.defect? plain
  | ahead _ body => body.defect? plain
  | behind width _ body =>
      if lookbehindLimit < width.least then some .farLookbehind
      else if width.least ≠ width.most then some .variableLookbehind
      else body.defect? plain
  | conditional _ yes no => (yes.defect? plain).or (no.defect? plain)
  | repeated greed _ _ body => if plain then some greed.refused else body.defect? plain

end Pattern

/-- A pattern that compiles, with its groups. -/
structure Pattern where
  source : String
  root : Pattern.Node
  groups : Nat
  names : List (List Char × Nat)

namespace Pattern

variable [Unicode.Names]

def fuel (cursor : Cursor) : Nat :=
  4 * cursor.rest.length + 8

def build (source : String) : Builder Pattern := do
  let nodes ← Builder.choice (fuel (← Builder.cursor)) ⟨.none, true⟩
  let flags := (← get).flags
  if flags.ascii && flags.unicode then
    throw .bothAlphabets
  if (← Builder.peek).isSome then
    Builder.fail .unbalancedParenthesis 0
  let groups ← Builder.groupCount
  for (group, position) in (← get).awaited do
    if groups < group then
      Builder.failAt (.invalidGroup group) position
  let root := Node.ofList nodes
  if let some cause := root.defect? flags.plain then
    Builder.stop ⟨source, cause, none⟩
  return ⟨source, root, groups, (← get).names⟩

def compile (source : String) : Except CompileError Pattern := do
  let cursor ← (Cursor.start source).mapError .fault
  let (pattern, _) ← (build source).run ⟨cursor, [], [], none, [], .none⟩
  return pattern

end Pattern

end Interlinear
