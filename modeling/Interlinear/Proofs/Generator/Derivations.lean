import Interlinear.Generator.Basic
import Interlinear.Proofs.Dictionary
import Interlinear.Proofs.Generator.Choice
import Interlinear.Proofs.Outcome
import Mathlib

/-!
# Derivation trees of generated words

A word that a generator returns is the word of a derivation tree.  Its nodes are rules: an undefined
rule is a leaf, and a defined rule stands over what the parts of one of its expansions derive.  The
draws are used up by the nodes of defined rules, one for each, in the order in which every node
comes before those below it and these go from left to right.  So the tree is settled by the draws,
and the state of their source afterwards is that behind as many draws as the tree has such nodes.

A tree is nested as deeply as its longest branch has nodes.  Within a nesting limit a word is
returned exactly if the draws settle a tree that is nested no deeper.
-/

namespace Interlinear.Generator

open Outcome

variable {σ W : Type}

mutual
/-- A rule that is not defined, or one with the expansion that it takes. -/
inductive Tree (W : Type) where
  | undefined (rule : String)
  | expanded (rule : String) (expansion : Expansion W) (branches : Branches W)
/-- What the parts of an expansion derive, from left to right. -/
inductive Branches (W : Type) where
  | nil
  | text (text : String) (others : Branches W)
  | reference (tree : Tree W) (others : Branches W)
end

mutual
/-- The leaves of a tree from left to right. -/
def Tree.word : Tree W → String
  | .undefined rule => undefinedRule rule
  | .expanded _ _ branches => branches.word
def Branches.word : Branches W → String
  | .nil => ""
  | .text text others => text ++ others.word
  | .reference tree others => tree.word ++ others.word
end

mutual
/-- The defined rules of a tree with the expansions that they take, in preorder. -/
def Tree.choices : Tree W → List (String × Expansion W)
  | .undefined _ => []
  | .expanded rule expansion branches => (rule, expansion) :: branches.choices
def Branches.choices : Branches W → List (String × Expansion W)
  | .nil => []
  | .text _ others => others.choices
  | .reference tree others => tree.choices ++ others.choices
end

mutual
/-- The number of nodes on the longest branch. -/
def Tree.nesting : Tree W → Nat
  | .undefined _ => 1
  | .expanded _ _ branches => branches.nesting + 1
def Branches.nesting : Branches W → Nat
  | .nil => 0
  | .text _ others => others.nesting
  | .reference tree others => max tree.nesting others.nesting
end

mutual
/-- The derivation trees of a rule. -/
inductive TreeOf (rules : Rules W) : String → Tree W → Prop
  | undefined {rule : String} (hrule : rules.get? rule = none) : TreeOf rules rule (.undefined rule)
  | expanded {rule : String} {expansions : List (Expansion W)} {expansion : Expansion W}
      {branches : Branches W} (hrule : rules.get? rule = some expansions)
      (hexpansion : expansion ∈ expansions)
      (hbranches : BranchesOf rules expansion.parts branches) :
      TreeOf rules rule (.expanded rule expansion branches)
inductive BranchesOf (rules : Rules W) : List Part → Branches W → Prop
  | nil : BranchesOf rules [] .nil
  | text {text : String} {parts : List Part} {others : Branches W}
      (hothers : BranchesOf rules parts others) :
      BranchesOf rules (.text text :: parts) (.text text others)
  | reference {name : String} {parts : List Part} {tree : Tree W} {others : Branches W}
      (htree : TreeOf rules (startRule name) tree) (hothers : BranchesOf rules parts others) :
      BranchesOf rules (.reference name :: parts) (.reference tree others)
end

/-! ### Choices of compiled rules -/

/-- The weighted choice among the expansions of a rule. -/
def choice? (rules : Rules W) (rule : String) : Option (Choice W (Expansion W)) :=
  (rules.get? rule).bind fun expansions =>
    (Choice.ofList (expansions.map fun expansion => (expansion, expansion.weight))).toOption

theorem alternatives_of_ofList {α : Type} {alternatives : List (α × W)} {choice : Choice W α}
    (h : Choice.ofList alternatives = .ok choice) : choice.alternatives = alternatives := by
  cases alternatives with
  | nil => cases h
  | cons first others =>
      obtain rfl := Except.ok.inj h
      rfl

theorem exists_of_choice?_eq_some {rules : Rules W} {rule : String}
    {choice : Choice W (Expansion W)} (h : choice? rules rule = some choice) :
    ∃ expansions, rules.get? rule = some expansions ∧
      choice.alternatives = expansions.map fun expansion => (expansion, expansion.weight) := by
  obtain ⟨expansions, hrule, hchoice⟩ := Option.bind_eq_some_iff.mp h
  refine ⟨expansions, hrule, ?_⟩
  cases hlist : Choice.ofList (expansions.map fun expansion => (expansion, expansion.weight)) with
  | error e => simp [hlist, Except.toOption] at hchoice
  | ok other =>
      obtain rfl : other = choice := by simpa [hlist, Except.toOption] using hchoice
      exact alternatives_of_ofList hlist

theorem compileRules_cons {name : String} {expansions : List (Expansion W)}
    {entries : List (String × List (Expansion W))}
    {choices : List (String × Choice W (Expansion W))} :
    compileRules ((name, expansions) :: entries) = .ok choices ↔
      ∃ choice others, Choice.ofList
          (expansions.map fun expansion => (expansion, expansion.weight)) = .ok choice ∧
        compileRules entries = .ok others ∧ choices = (name, choice) :: others := by
  rw [compileRules]
  cases expansions.map fun expansion => (expansion, expansion.weight) with
  | nil => simp [Choice.ofList]
  | cons first others =>
      simp only [Choice.ofList, bind_eq_ok_iff, Except.ok.injEq]
      constructor
      · rintro ⟨choices, hentries, rfl⟩
        exact ⟨_, choices, rfl, hentries, rfl⟩
      · rintro ⟨_, choices, rfl, hentries, rfl⟩
        exact ⟨choices, hentries, rfl⟩

theorem compileRules_eq_ok {entries : List (String × List (Expansion W))}
    {choices : List (String × Choice W (Expansion W))} (h : compileRules entries = .ok choices) :
    choices.length = entries.length ∧ ∀ rule, choices.lookup rule =
      (entries.lookup rule).bind fun expansions =>
        (Choice.ofList (expansions.map fun expansion => (expansion, expansion.weight))).toOption := by
  induction entries generalizing choices with
  | nil =>
      obtain rfl : [] = choices := Except.ok.inj h
      exact ⟨rfl, fun rule => rfl⟩
  | cons entry entries ih =>
      obtain ⟨name, expansions⟩ := entry
      obtain ⟨choice, others, hchoice, hothers, rfl⟩ := compileRules_cons.mp h
      obtain ⟨hlength, hlookup⟩ := ih hothers
      refine ⟨by simp [hlength], fun rule => ?_⟩
      rw [List.lookup_cons, List.lookup_cons]
      cases rule == name with
      | false => exact hlookup rule
      | true => simp [hchoice, Except.toOption]

theorem ne_nil_of_compileRules {entries : List (String × List (Expansion W))}
    {choices : List (String × Choice W (Expansion W))} (h : compileRules entries = .ok choices) :
    ∀ entry ∈ entries, entry.2 ≠ [] := by
  induction entries generalizing choices with
  | nil => simp
  | cons entry entries ih =>
      obtain ⟨name, expansions⟩ := entry
      obtain ⟨choice, others, hchoice, hothers, -⟩ := compileRules_cons.mp h
      refine List.forall_mem_cons.mpr ⟨?_, ih hothers⟩
      rintro rfl
      cases hchoice

theorem exists_compileRules {entries : List (String × List (Expansion W))}
    (h : ∀ entry ∈ entries, entry.2 ≠ []) : ∃ choices, compileRules entries = .ok choices := by
  induction entries with
  | nil => exact ⟨[], rfl⟩
  | cons entry entries ih =>
      obtain ⟨name, expansions⟩ := entry
      obtain ⟨hexpansions, hothers⟩ := List.forall_mem_cons.mp h
      obtain ⟨others, hcompile⟩ := ih hothers
      cases expansions with
      | nil => exact absurd rfl hexpansions
      | cons first rest => exact ⟨_, compileRules_cons.mpr ⟨_, others, rfl, hcompile, rfl⟩⟩

/-- What is compiled from rules offers, for every rule, the choice among its expansions. -/
structure IsCompiled (rules : Rules W) (generator : Compiled W) : Prop where
  size_eq : generator.choices.size = rules.size
  get?_eq : ∀ rule, generator.choices.get? rule = choice? rules rule
  undefined : ∀ {rule}, choice? rules rule = none → rules.get? rule = none

theorem isCompiled_of_compile {rules : Rules W} {generator : Compiled W}
    (h : compile rules = .ok generator) : IsCompiled rules generator := by
  obtain ⟨choices, hchoices, hgenerator⟩ := bind_eq_ok_iff.mp h
  obtain rfl := Except.ok.inj hgenerator
  obtain ⟨hlength, hlookup⟩ := compileRules_eq_ok hchoices
  refine ⟨hlength, hlookup, ?_⟩
  intro rule hnone
  cases hrule : rules.get? rule with
  | none => rfl
  | some expansions =>
      have hexpansions : expansions ≠ [] :=
        ne_nil_of_compileRules hchoices (rule, expansions) (mem_of_lookup hrule)
      cases expansions with
      | nil => exact absurd rfl hexpansions
      | cons first others => simp [choice?, hrule, Choice.ofList, Except.toOption] at hnone

theorem exists_compile {rules : Rules W} (h : ∀ entry ∈ rules.entries, entry.2 ≠ []) :
    ∃ generator, compile rules = .ok generator := by
  obtain ⟨choices, hchoices⟩ := exists_compileRules h
  exact ⟨⟨⟨choices⟩⟩, by rw [compile, hchoices]; rfl⟩

/-! ### Draws -/

variable [Add W] [Mul W] [OfNat W 0] [LT W] [DecidableLT W]

/-- A rule takes the expansion that its choice picks for a draw. -/
def Takes (rules : Rules W) (draw : W) (node : String × Expansion W) : Prop :=
  ∃ choice, choice? rules node.1 = some choice ∧ choice.pick draw = node.2

/-- The nodes take the draws of a source, one after the other, which leaves it in the last state. -/
inductive Drawn (rules : Rules W) (source : Source σ W) : σ → List (String × Expansion W) → σ → Prop
  | nil (state : σ) : Drawn rules source state [] state
  | cons {state last : σ} {node : String × Expansion W} {nodes : List (String × Expansion W)}
      (hnode : Takes rules (source.draw state).1 node)
      (hnodes : Drawn rules source (source.draw state).2 nodes last) :
      Drawn rules source state (node :: nodes) last

variable {rules : Rules W} {source : Source σ W}

theorem drawn_nil_iff {state last : σ} : Drawn rules source state [] last ↔ last = state := by
  constructor
  · intro h
    cases h
    rfl
  · rintro rfl
    exact .nil last

theorem drawn_cons_iff {state last : σ} {node : String × Expansion W}
    {nodes : List (String × Expansion W)} :
    Drawn rules source state (node :: nodes) last ↔
      Takes rules (source.draw state).1 node ∧
        Drawn rules source (source.draw state).2 nodes last := by
  constructor
  · intro h
    cases h with
    | cons hnode hnodes => exact ⟨hnode, hnodes⟩
  · rintro ⟨hnode, hnodes⟩
    exact .cons hnode hnodes

theorem drawn_append_iff {state last : σ} {nodes others : List (String × Expansion W)} :
    Drawn rules source state (nodes ++ others) last ↔
      ∃ middle, Drawn rules source state nodes middle ∧ Drawn rules source middle others last := by
  induction nodes generalizing state with
  | nil => simp [drawn_nil_iff]
  | cons node nodes ih =>
      simp only [List.cons_append, drawn_cons_iff, ih, and_assoc, exists_and_left]

theorem Drawn.last_eq {state last other : σ} {nodes : List (String × Expansion W)}
    (h : Drawn rules source state nodes last) (hother : Drawn rules source state nodes other) :
    other = last := by
  induction h with
  | nil state => exact drawn_nil_iff.mp hother
  | cons _ _ ih => exact ih (drawn_cons_iff.mp hother).2

theorem Takes.expansion_eq {rule : String} {draw : W} {expansion other : Expansion W}
    (h : Takes rules draw (rule, expansion)) (hother : Takes rules draw (rule, other)) :
    other = expansion := by
  obtain ⟨choice, hchoice, rfl⟩ := h
  obtain ⟨otherChoice, hotherChoice, rfl⟩ := hother
  obtain rfl := Option.some.inj (hchoice.symm.trans hotherChoice)
  rfl

mutual
/-- The draws settle the tree. -/
theorem TreeOf.eq_of_drawn {rule : String} {tree other : Tree W} {state last otherLast : σ}
    (h : TreeOf rules rule tree) (hother : TreeOf rules rule other)
    (hdrawn : Drawn rules source state tree.choices last)
    (hotherDrawn : Drawn rules source state other.choices otherLast) : other = tree := by
  cases h with
  | undefined hrule =>
      cases hother with
      | undefined _ => rfl
      | expanded hsome _ _ => simp [hrule] at hsome
  | expanded hrule _ hbranches =>
      cases hother with
      | undefined hnone => simp [hrule] at hnone
      | expanded _ _ hotherBranches =>
          rw [Tree.choices, drawn_cons_iff] at hdrawn hotherDrawn
          obtain rfl := hdrawn.1.expansion_eq hotherDrawn.1
          rw [hbranches.eq_of_drawn hotherBranches hdrawn.2 hotherDrawn.2]
theorem BranchesOf.eq_of_drawn {parts : List Part} {branches others : Branches W}
    {state last otherLast : σ} (h : BranchesOf rules parts branches)
    (hothers : BranchesOf rules parts others)
    (hdrawn : Drawn rules source state branches.choices last)
    (hotherDrawn : Drawn rules source state others.choices otherLast) : others = branches := by
  cases h with
  | nil =>
      cases hothers
      rfl
  | text hrest =>
      cases hothers with
      | text hotherRest => rw [hrest.eq_of_drawn hotherRest hdrawn hotherDrawn]
  | reference htree hrest =>
      cases hothers with
      | reference hotherTree hotherRest =>
          obtain ⟨middle, hfirst, hsecond⟩ := drawn_append_iff.mp hdrawn
          obtain ⟨otherMiddle, hotherFirst, hotherSecond⟩ := drawn_append_iff.mp hotherDrawn
          obtain rfl := htree.eq_of_drawn hotherTree hfirst hotherFirst
          obtain rfl := hfirst.last_eq hotherFirst
          rw [hrest.eq_of_drawn hotherRest hsecond hotherSecond]
end

/-! ### Expanding within a nesting limit -/

/-- The draws settle a derivation tree of the rule that is nested within the limit. -/
structure Settles (rules : Rules W) (source : Source σ W) (limit : Nat) (rule : String) (state : σ)
    (tree : Tree W) (last : σ) : Prop where
  treeOf : TreeOf rules rule tree
  nesting_le : tree.nesting ≤ limit
  drawn : Drawn rules source state tree.choices last

structure SettlesBranches (rules : Rules W) (source : Source σ W) (limit : Nat) (parts : List Part)
    (state : σ) (branches : Branches W) (last : σ) : Prop where
  branchesOf : BranchesOf rules parts branches
  nesting_le : branches.nesting ≤ limit
  drawn : Drawn rules source state branches.choices last

section Parts

variable {limit : Nat} {parts : List Part} {state last : σ}

theorem settlesBranches_nil_iff {branches : Branches W} :
    SettlesBranches rules source limit [] state branches last ↔ branches = .nil ∧ last = state := by
  constructor
  · rintro ⟨hbranches, -, hdrawn⟩
    cases hbranches
    exact ⟨rfl, drawn_nil_iff.mp hdrawn⟩
  · rintro ⟨rfl, rfl⟩
    exact ⟨.nil, Nat.zero_le _, .nil _⟩

theorem settlesBranches_text_iff {text : String} {branches : Branches W} :
    SettlesBranches rules source limit (.text text :: parts) state branches last ↔
      ∃ others, branches = .text text others ∧
        SettlesBranches rules source limit parts state others last := by
  constructor
  · rintro ⟨hbranches, hnesting, hdrawn⟩
    cases hbranches with
    | text hothers => exact ⟨_, rfl, hothers, hnesting, hdrawn⟩
  · rintro ⟨others, rfl, hothers, hnesting, hdrawn⟩
    exact ⟨.text hothers, hnesting, hdrawn⟩

theorem settlesBranches_reference_iff {name : String} {branches : Branches W} :
    SettlesBranches rules source limit (.reference name :: parts) state branches last ↔
      ∃ tree middle others, branches = .reference tree others ∧
        Settles rules source limit (startRule name) state tree middle ∧
        SettlesBranches rules source limit parts middle others last := by
  constructor
  · rintro ⟨hbranches, hnesting, hdrawn⟩
    cases hbranches with
    | reference htree hothers =>
        obtain ⟨htreeNesting, hothersNesting⟩ := max_le_iff.mp hnesting
        obtain ⟨middle, htreeDrawn, hothersDrawn⟩ := drawn_append_iff.mp hdrawn
        exact ⟨_, middle, _, rfl, ⟨htree, htreeNesting, htreeDrawn⟩,
          hothers, hothersNesting, hothersDrawn⟩
  · rintro ⟨tree, middle, others, rfl, ⟨htree, htreeNesting, htreeDrawn⟩, hothers,
      hothersNesting, hothersDrawn⟩
    exact ⟨.reference htree hothers, max_le htreeNesting hothersNesting,
      drawn_append_iff.mpr ⟨middle, htreeDrawn, hothersDrawn⟩⟩

variable {expand : String → σ → Except ExpansionError String × σ} {word : String}

theorem expandParts_text_eq_ok_iff {text : String} :
    expandParts expand (.text text :: parts) state = (.ok word, last) ↔
      ∃ rest, expandParts expand parts state = (.ok rest, last) ∧ text ++ rest = word := by
  rw [expandParts]
  rcases expandParts expand parts state with ⟨_ | rest, next⟩
  · simp
  · simp [and_comm]

theorem expandParts_reference_eq_ok_iff {name : String} :
    expandParts expand (.reference name :: parts) state = (.ok word, last) ↔
      ∃ first middle rest, expand name state = (.ok first, middle) ∧
        expandParts expand parts middle = (.ok rest, last) ∧ first ++ rest = word := by
  rw [expandParts]
  rcases expand name state with ⟨_ | first, middle⟩
  · simp
  · rcases hrest : expandParts expand parts middle with ⟨_ | rest, next⟩
    · simp [hrest]
    · simp [hrest, and_comm]

/-- Parts are expanded from left to right, references as their rules are. -/
theorem expandParts_eq_ok_iff
    (hexpand : ∀ name state word last, expand name state = (.ok word, last) ↔
      ∃ tree, Settles rules source limit (startRule name) state tree last ∧ tree.word = word) :
    expandParts expand parts state = (.ok word, last) ↔
      ∃ branches, SettlesBranches rules source limit parts state branches last ∧
        branches.word = word := by
  induction parts generalizing state word with
  | nil =>
      rw [expandParts, Prod.mk.injEq, Except.ok.injEq]
      simp only [settlesBranches_nil_iff]
      constructor
      · rintro ⟨rfl, rfl⟩
        exact ⟨.nil, ⟨rfl, rfl⟩, rfl⟩
      · rintro ⟨branches, ⟨rfl, rfl⟩, rfl⟩
        exact ⟨rfl, rfl⟩
  | cons part parts ih =>
      cases part with
      | text text =>
          simp only [expandParts_text_eq_ok_iff, settlesBranches_text_iff, ih]
          constructor
          · rintro ⟨_, ⟨others, hothers, rfl⟩, rfl⟩
            exact ⟨_, ⟨others, rfl, hothers⟩, rfl⟩
          · rintro ⟨_, ⟨others, rfl, hothers⟩, rfl⟩
            exact ⟨_, ⟨others, hothers, rfl⟩, rfl⟩
      | reference name =>
          simp only [expandParts_reference_eq_ok_iff, settlesBranches_reference_iff, ih, hexpand]
          constructor
          · rintro ⟨_, middle, _, ⟨tree, htree, rfl⟩, ⟨others, hothers, rfl⟩, rfl⟩
            exact ⟨_, ⟨tree, middle, others, rfl, htree, hothers⟩, rfl⟩
          · rintro ⟨_, ⟨tree, middle, others, rfl, htree, hothers⟩, rfl⟩
            exact ⟨_, middle, _, ⟨tree, htree, rfl⟩, ⟨others, hothers, rfl⟩, rfl⟩
      | stray text =>
          rw [expandParts]
          constructor
          · intro h
            cases h
          · rintro ⟨branches, ⟨hbranches, -, -⟩, -⟩
            cases hbranches

end Parts

theorem not_settles_zero {rule : String} {state last : σ} {tree : Tree W} :
    ¬ Settles rules source 0 rule state tree last := by
  rintro ⟨-, hnesting, -⟩
  cases tree <;> simp [Tree.nesting] at hnesting

theorem settles_undefined_iff {limit : Nat} {rule : String} {state last : σ} {tree : Tree W}
    (hrule : rules.get? rule = none) :
    Settles rules source (limit + 1) rule state tree last ↔
      tree = .undefined rule ∧ last = state := by
  constructor
  · rintro ⟨htree, -, hdrawn⟩
    cases htree with
    | undefined _ => exact ⟨rfl, drawn_nil_iff.mp hdrawn⟩
    | expanded hsome _ _ => simp [hrule] at hsome
  · rintro ⟨rfl, rfl⟩
    exact ⟨.undefined hrule, by simp [Tree.nesting], .nil _⟩

theorem settles_expanded_iff {limit : Nat} {rule : String} {state last : σ} {tree : Tree W}
    {choice : Choice W (Expansion W)} (hchoice : choice? rules rule = some choice) :
    Settles rules source (limit + 1) rule state tree last ↔
      ∃ branches, tree = .expanded rule (choice.pick (source.draw state).1) branches ∧
        SettlesBranches rules source limit (choice.pick (source.draw state).1).parts
          (source.draw state).2 branches last := by
  obtain ⟨expansions, hrule, halternatives⟩ := exists_of_choice?_eq_some hchoice
  have htakes : Takes rules (source.draw state).1 (rule, choice.pick (source.draw state).1) :=
    ⟨choice, hchoice, rfl⟩
  constructor
  · rintro ⟨htree, hnesting, hdrawn⟩
    cases htree with
    | undefined hnone => simp [hrule] at hnone
    | @expanded _ _ expansion branches _ _ hbranches =>
        rw [Tree.choices, drawn_cons_iff] at hdrawn
        obtain rfl := htakes.expansion_eq hdrawn.1
        exact ⟨branches, rfl, hbranches, Nat.le_of_succ_le_succ hnesting, hdrawn.2⟩
  · rintro ⟨branches, rfl, hbranches, hnesting, hdrawn⟩
    have hmem := choice.pick_mem (source.draw state).1
    rw [halternatives] at hmem
    refine ⟨.expanded hrule ?_ hbranches, Nat.succ_le_succ hnesting,
      drawn_cons_iff.mpr ⟨htakes, hdrawn⟩⟩
    simpa using hmem

/-- Within a nesting limit a word is returned exactly if the draws settle a tree with this word that
is nested no deeper. -/
theorem IsCompiled.expand_eq_ok_iff {generator : Compiled W} (h : IsCompiled rules generator)
    {limit : Nat} {name : String} {state last : σ} {word : String} :
    generator.expand source limit name state = (.ok word, last) ↔
      ∃ tree, Settles rules source limit (startRule name) state tree last ∧ tree.word = word := by
  induction limit generalizing name state word last with
  | zero => simp [Compiled.expand, not_settles_zero]
  | succ limit ih =>
      rw [Compiled.expand, h.get?_eq]
      cases hchoice : choice? rules (startRule name) with
      | none =>
          simp only [settles_undefined_iff (h.undefined hchoice), Prod.mk.injEq, Except.ok.injEq]
          constructor
          · rintro ⟨rfl, rfl⟩
            exact ⟨_, ⟨rfl, rfl⟩, rfl⟩
          · rintro ⟨_, ⟨rfl, rfl⟩, rfl⟩
            exact ⟨rfl, rfl⟩
      | some choice =>
          simp only [settles_expanded_iff hchoice,
            expandParts_eq_ok_iff fun name state word last => ih]
          constructor
          · rintro ⟨branches, hbranches, rfl⟩
            exact ⟨_, ⟨branches, rfl, hbranches⟩, rfl⟩
          · rintro ⟨_, ⟨branches, rfl, hbranches⟩, rfl⟩
            exact ⟨branches, hbranches, rfl⟩

end Interlinear.Generator
