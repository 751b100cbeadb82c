import Interlinear.Proofs.Generator.Draws
import Mathlib.Computability.ContextFreeGrammar

/-!
# The language of a generator

Rules whose weights are exact numbers, none of them negative and not all of them zero in any rule,
are a context-free grammar: its productions are the expansions that have a weight, and an undefined
rule has its name between underscores as its only production.  The words that the generator returns
are the words of the grammar.

A word of the grammar is the word of a derivation tree of which all expansions have a weight.  Draws
from zero up to but not including one pick no other expansions.  Conversely, every expansion with a
weight is picked by such a draw, so that the draws for the nodes of a tree, in preorder, begin a
stream that settles this tree.
-/

namespace Interlinear.Generator

/-! ### Words of derivation trees -/

/-- The symbols that parts stand for, unless one of them is a stray text. -/
def symbols? : List Part → Option (List (Symbol Char String))
  | [] => some []
  | .reference name :: parts => (symbols? parts).map (.nonterminal (startRule name) :: ·)
  | .text text :: parts => (symbols? parts).map (text.toList.map .terminal ++ ·)
  | .stray _ :: _ => none

def productionsOf (rules : Rules ℚ) (rule : String) : List (ContextFreeRule Char String) :=
  match rules.get? rule with
  | some expansions =>
      (expansions.filter fun expansion => 0 < expansion.weight).filterMap fun expansion =>
        (symbols? expansion.parts).map (⟨rule, ·⟩)
  | none => [⟨rule, (undefinedRule rule).toList.map .terminal⟩]

def referenceOf? : Part → Option String
  | .reference name => some (startRule name)
  | _ => none

/-- The rules that are defined, referred to or started from. -/
def namesOf (rules : Rules ℚ) (start : String) : List String :=
  start :: rules.keys ++ rules.entries.flatMap fun entry =>
    entry.2.flatMap fun expansion => expansion.parts.filterMap referenceOf?

/-- The expansions with a weight as productions. -/
def grammar (rules : Rules ℚ) (start : String) : ContextFreeGrammar Char where
  NT := String
  initial := start
  rules := ((namesOf rules start).flatMap (productionsOf rules)).toFinset

/-- All expansions that the rules of a tree take have a weight. -/
def HasWeights (nodes : List (String × Expansion ℚ)) : Prop :=
  ∀ node ∈ nodes, 0 < node.2.weight

variable {rules : Rules ℚ} {rule start : String}

theorem hasWeights_nil : HasWeights [] := by simp [HasWeights]

theorem hasWeights_cons_iff {node : String × Expansion ℚ} {nodes : List (String × Expansion ℚ)} :
    HasWeights (node :: nodes) ↔ 0 < node.2.weight ∧ HasWeights nodes :=
  List.forall_mem_cons

theorem hasWeights_append_iff {nodes others : List (String × Expansion ℚ)} :
    HasWeights (nodes ++ others) ↔ HasWeights nodes ∧ HasWeights others :=
  List.forall_mem_append

theorem mem_productionsOf_defined {expansions : List (Expansion ℚ)}
    (hrule : rules.get? rule = some expansions) {production : ContextFreeRule Char String} :
    production ∈ productionsOf rules rule ↔
      ∃ expansion ∈ expansions, 0 < expansion.weight ∧
        ∃ symbols, symbols? expansion.parts = some symbols ∧ ⟨rule, symbols⟩ = production := by
  simp only [productionsOf, hrule, List.mem_filterMap, List.mem_filter, Option.map_eq_some_iff,
    decide_eq_true_eq, and_assoc]

theorem mem_productionsOf_undefined (hrule : rules.get? rule = none)
    {production : ContextFreeRule Char String} :
    production ∈ productionsOf rules rule ↔
      production = ⟨rule, (undefinedRule rule).toList.map .terminal⟩ := by
  simp [productionsOf, hrule]

theorem input_eq_of_mem {production : ContextFreeRule Char String}
    (h : production ∈ productionsOf rules rule) : production.input = rule := by
  cases hrule : rules.get? rule with
  | none => rw [(mem_productionsOf_undefined hrule).mp h]
  | some expansions =>
      obtain ⟨_, -, -, _, -, rfl⟩ := (mem_productionsOf_defined hrule).mp h
      rfl

theorem mem_rules_grammar {production : ContextFreeRule Char String} :
    production ∈ (grammar rules start).rules ↔
      production.input ∈ namesOf rules start ∧
        production ∈ productionsOf rules production.input := by
  have hmem : production ∈ (grammar rules start).rules ↔
      ∃ name ∈ namesOf rules start, production ∈ productionsOf rules name :=
    List.mem_toFinset.trans List.mem_flatMap
  rw [hmem]
  constructor
  · rintro ⟨name, hname, hproduction⟩
    rw [input_eq_of_mem hproduction]
    exact ⟨hname, hproduction⟩
  · rintro ⟨hname, hproduction⟩
    exact ⟨_, hname, hproduction⟩

theorem startRule_mem_namesOf {expansions : List (Expansion ℚ)} {expansion : Expansion ℚ}
    {name : String} (hrule : rules.get? rule = some expansions)
    (hexpansion : expansion ∈ expansions) (hname : .reference name ∈ expansion.parts) :
    startRule name ∈ namesOf rules start := by
  refine List.mem_append_right _ (List.mem_flatMap.mpr ⟨_, mem_of_lookup hrule, ?_⟩)
  exact List.mem_flatMap.mpr
    ⟨expansion, hexpansion, List.mem_filterMap.mpr ⟨_, hname, rfl⟩⟩

theorem derives_of_mem {output : List (Symbol Char String)} (hname : rule ∈ namesOf rules start)
    (h : ⟨rule, output⟩ ∈ productionsOf rules rule) :
    (grammar rules start).Derives [.nonterminal rule] output :=
  ContextFreeGrammar.Produces.single
    ⟨⟨rule, output⟩, mem_rules_grammar.mpr ⟨hname, h⟩, .input_output⟩

mutual
theorem TreeOf.derives {rule : String} {tree : Tree ℚ} (h : TreeOf rules rule tree)
    (hweights : HasWeights tree.choices) (hname : rule ∈ namesOf rules start) :
    (grammar rules start).Derives [.nonterminal rule] (tree.word.toList.map .terminal) := by
  cases h with
  | undefined hrule =>
      exact derives_of_mem hname ((mem_productionsOf_undefined hrule).mpr rfl)
  | @expanded _ expansions expansion branches hrule hexpansion hbranches =>
      obtain ⟨hweight, hothers⟩ := hasWeights_cons_iff.mp hweights
      have hnames : ∀ name, .reference name ∈ expansion.parts →
          startRule name ∈ namesOf rules start :=
        fun name hname => startRule_mem_namesOf hrule hexpansion hname
      obtain ⟨symbols, hsymbols, hderives⟩ := hbranches.derives hothers hnames
      have hproduction : ⟨rule, symbols⟩ ∈ productionsOf rules rule :=
        (mem_productionsOf_defined hrule).mpr
          ⟨expansion, hexpansion, hweight, symbols, hsymbols, rfl⟩
      exact (derives_of_mem hname hproduction).trans hderives
theorem BranchesOf.derives {parts : List Part} {branches : Branches ℚ}
    (h : BranchesOf rules parts branches) (hweights : HasWeights branches.choices)
    (hnames : ∀ name, .reference name ∈ parts → startRule name ∈ namesOf rules start) :
    ∃ symbols, symbols? parts = some symbols ∧
      (grammar rules start).Derives symbols (branches.word.toList.map .terminal) := by
  cases h with
  | nil => exact ⟨[], rfl, .refl _⟩
  | text hothers =>
      obtain ⟨symbols, hsymbols, hderives⟩ :=
        hothers.derives hweights fun name hname => hnames name (List.mem_cons_of_mem _ hname)
      refine ⟨_, by rw [symbols?, hsymbols]; rfl, ?_⟩
      rw [Branches.word, String.toList_append, List.map_append]
      exact hderives.append_left _
  | reference htree hothers =>
      obtain ⟨htreeWeights, hothersWeights⟩ := hasWeights_append_iff.mp hweights
      have hfirst := htree.derives htreeWeights (hnames _ List.mem_cons_self)
      obtain ⟨symbols, hsymbols, hderives⟩ :=
        hothers.derives hothersWeights fun name hname => hnames name (List.mem_cons_of_mem _ hname)
      refine ⟨_, by rw [symbols?, hsymbols]; rfl, ?_⟩
      rw [Branches.word, String.toList_append, List.map_append]
      exact (hfirst.append_right symbols).trans (hderives.append_left _)
end

/-- The characters that symbols come to when every rule among them is expanded by a tree. -/
inductive Yields (rules : Rules ℚ) : List (Symbol Char String) → List Char → Prop
  | nil : Yields rules [] []
  | terminal (c : Char) {symbols : List (Symbol Char String)} {cs : List Char}
      (hothers : Yields rules symbols cs) : Yields rules (.terminal c :: symbols) (c :: cs)
  | nonterminal {rule : String} {tree : Tree ℚ} {symbols : List (Symbol Char String)}
      {cs : List Char} (htree : TreeOf rules rule tree) (hweights : HasWeights tree.choices)
      (hothers : Yields rules symbols cs) :
      Yields rules (.nonterminal rule :: symbols) (tree.word.toList ++ cs)

theorem Yields.append {symbols others : List (Symbol Char String)} {cs ds : List Char}
    (h : Yields rules symbols cs) (hothers : Yields rules others ds) :
    Yields rules (symbols ++ others) (cs ++ ds) := by
  induction h with
  | nil => exact hothers
  | terminal c _ ih => exact .terminal c ih
  | nonterminal htree hweights _ ih =>
      rw [List.append_assoc]
      exact .nonterminal htree hweights ih

theorem Yields.exists_of_append {symbols others : List (Symbol Char String)} {text : List Char}
    (h : Yields rules (symbols ++ others) text) :
    ∃ cs ds, text = cs ++ ds ∧ Yields rules symbols cs ∧ Yields rules others ds := by
  induction symbols generalizing text with
  | nil => exact ⟨[], text, rfl, .nil, h⟩
  | cons symbol symbols ih =>
      cases h with
      | terminal c hrest =>
          obtain ⟨cs, ds, rfl, hcs, hds⟩ := ih hrest
          exact ⟨c :: cs, ds, rfl, .terminal c hcs, hds⟩
      | nonterminal htree hweights hrest =>
          obtain ⟨cs, ds, rfl, hcs, hds⟩ := ih hrest
          exact ⟨_, ds, (List.append_assoc _ _ _).symm, .nonterminal htree hweights hcs, hds⟩

theorem yields_terminals_iff {text cs : List Char} :
    Yields rules (text.map .terminal) cs ↔ cs = text := by
  induction text generalizing cs with
  | nil =>
      constructor
      · intro h
        cases h
        rfl
      · rintro rfl
        exact .nil
  | cons c text ih =>
      constructor
      · intro h
        cases h with
        | terminal _ hothers => rw [ih.mp hothers]
      · rintro rfl
        exact .terminal c (ih.mpr rfl)

theorem Yields.exists_branches {parts : List Part} {symbols : List (Symbol Char String)}
    {cs : List Char} (h : Yields rules symbols cs) (hsymbols : symbols? parts = some symbols) :
    ∃ branches, BranchesOf rules parts branches ∧ HasWeights branches.choices ∧
      branches.word.toList = cs := by
  induction parts generalizing symbols cs with
  | nil =>
      obtain rfl : [] = symbols := Option.some.inj hsymbols
      cases h
      exact ⟨.nil, .nil, hasWeights_nil, rfl⟩
  | cons part parts ih =>
      cases part with
      | text text =>
          obtain ⟨others, hothers, rfl⟩ := Option.map_eq_some_iff.mp hsymbols
          obtain ⟨first, rest, rfl, hfirst, hrest⟩ := h.exists_of_append
          obtain rfl := yields_terminals_iff.mp hfirst
          obtain ⟨branches, hbranches, hweights, rfl⟩ := ih hrest hothers
          exact ⟨.text text branches, .text hbranches, hweights, String.toList_append⟩
      | reference name =>
          obtain ⟨others, hothers, rfl⟩ := Option.map_eq_some_iff.mp hsymbols
          cases h with
          | nonterminal htree htreeWeights hrest =>
              obtain ⟨branches, hbranches, hweights, rfl⟩ := ih hrest hothers
              exact ⟨.reference _ branches, .reference htree hbranches,
                hasWeights_append_iff.mpr ⟨htreeWeights, hweights⟩, String.toList_append⟩
      | stray text => cases hsymbols

/-- A production is the uppermost step of a tree. -/
theorem Yields.exists_tree {output : List (Symbol Char String)} {cs : List Char}
    (h : Yields rules output cs) (hproduction : ⟨rule, output⟩ ∈ productionsOf rules rule) :
    ∃ tree, TreeOf rules rule tree ∧ HasWeights tree.choices ∧ tree.word.toList = cs := by
  cases hrule : rules.get? rule with
  | none =>
      have hsame := (mem_productionsOf_undefined hrule).mp hproduction
      obtain rfl : output = _ := congrArg ContextFreeRule.output hsame
      obtain rfl := yields_terminals_iff.mp h
      exact ⟨.undefined rule, .undefined hrule, hasWeights_nil, rfl⟩
  | some expansions =>
      obtain ⟨expansion, hexpansion, hweight, symbols, hsymbols, hsame⟩ :=
        (mem_productionsOf_defined hrule).mp hproduction
      obtain rfl : symbols = output := congrArg ContextFreeRule.output hsame
      obtain ⟨branches, hbranches, hweights, rfl⟩ := h.exists_branches hsymbols
      exact ⟨_, .expanded hrule hexpansion hbranches, hasWeights_cons_iff.mpr ⟨hweight, hweights⟩,
        rfl⟩

theorem yields_of_derives {symbols : List (Symbol Char String)} {cs : List Char}
    (h : (grammar rules start).Derives symbols (cs.map .terminal)) : Yields rules symbols cs := by
  induction h using Relation.ReflTransGen.head_induction_on with
  | refl => exact yields_terminals_iff.mpr rfl
  | head hstep _ ih =>
      obtain ⟨production, hproduction, hrewrites⟩ := hstep
      obtain ⟨before, after, rfl, rfl⟩ := hrewrites.exists_parts
      obtain ⟨text, last, rfl, htext, hlast⟩ := ih.exists_of_append
      obtain ⟨first, middle, rfl, hfirst, hmiddle⟩ := htext.exists_of_append
      obtain ⟨tree, htree, hweights, rfl⟩ :=
        hmiddle.exists_tree (mem_rules_grammar.mp hproduction).2
      have hnode : Yields rules [.nonterminal production.input] (tree.word.toList ++ []) :=
        .nonterminal htree hweights .nil
      rw [List.append_nil] at hnode
      exact (hfirst.append hnode).append hlast

/-- The words of the grammar are those of the derivation trees all of whose expansions have a
weight. -/
theorem mem_language_iff {word : String} :
    word.toList ∈ (grammar rules rule).language ↔
      ∃ tree, TreeOf rules rule tree ∧ HasWeights tree.choices ∧ tree.word = word := by
  rw [ContextFreeGrammar.mem_language_iff]
  constructor
  · intro h
    have hyields : Yields rules [.nonterminal rule] word.toList := yields_of_derives h
    generalize htext : word.toList = text at hyields
    cases hyields with
    | nonterminal htree hweights hrest =>
        cases hrest
        refine ⟨_, htree, hweights, String.toList_inj.mp ?_⟩
        rw [htext, List.append_nil]
  · rintro ⟨tree, htree, hweights, rfl⟩
    exact htree.derives hweights (by simp [namesOf])

/-! ### Draws for a tree -/

/-- Weights are not negative, and those of a rule have a positive sum. -/
structure IsWeighted (rules : Rules ℚ) : Prop where
  nonneg : ∀ entry ∈ rules.entries, ∀ expansion ∈ entry.2, 0 ≤ expansion.weight
  sum_pos : ∀ entry ∈ rules.entries, 0 < (entry.2.map Expansion.weight).sum

def IsDraw (draw : ℚ) : Prop :=
  0 ≤ draw ∧ draw < 1

theorem IsWeighted.expansions_ne_nil (h : IsWeighted rules) :
    ∀ entry ∈ rules.entries, entry.2 ≠ [] := by
  intro entry hentry hnil
  have hsum := h.sum_pos entry hentry
  simp [hnil] at hsum

theorem weightSum_expansions (expansions : List (Expansion ℚ)) :
    Choice.weightSum (expansions.map fun expansion => (expansion, expansion.weight)) =
      (expansions.map Expansion.weight).sum := by
  rw [Choice.weightSum, List.map_map]
  rfl

section Choices

variable {choice : Choice ℚ (Expansion ℚ)}

theorem IsWeighted.choice_nonneg (h : IsWeighted rules) (hchoice : choice? rules rule = some choice) :
    ∀ alternative ∈ choice.alternatives, 0 ≤ alternative.2 := by
  obtain ⟨expansions, hrule, halternatives⟩ := exists_of_choice?_eq_some hchoice
  simpa [halternatives] using h.nonneg _ (mem_of_lookup hrule)

theorem IsWeighted.choice_sum_pos (h : IsWeighted rules)
    (hchoice : choice? rules rule = some choice) : 0 < Choice.weightSum choice.alternatives := by
  obtain ⟨expansions, hrule, halternatives⟩ := exists_of_choice?_eq_some hchoice
  rw [halternatives, weightSum_expansions]
  exact h.sum_pos _ (mem_of_lookup hrule)

theorem mem_alternatives_iff (hchoice : choice? rules rule = some choice) {expansion : Expansion ℚ}
    {weight : ℚ} :
    (expansion, weight) ∈ choice.alternatives ↔
      weight = expansion.weight ∧
        ∃ expansions, rules.get? rule = some expansions ∧ expansion ∈ expansions := by
  obtain ⟨expansions, hrule, halternatives⟩ := exists_of_choice?_eq_some hchoice
  rw [halternatives, List.mem_map]
  constructor
  · rintro ⟨_, hmem, hsame⟩
    obtain ⟨rfl, rfl⟩ := Prod.mk.inj hsame
    exact ⟨rfl, expansions, hrule, hmem⟩
  · rintro ⟨rfl, others, hothers, hmem⟩
    obtain rfl := Option.some.inj (hrule.symm.trans hothers)
    exact ⟨expansion, hmem, rfl⟩

end Choices

theorem weight_pos_of_takes (hrules : IsWeighted rules) {draw : ℚ} (hdraw : IsDraw draw)
    {node : String × Expansion ℚ} (h : Takes rules draw node) : 0 < node.2.weight := by
  obtain ⟨choice, hchoice, hpick⟩ := h
  obtain ⟨before, weight, hfalls⟩ := Choice.exists_fallsTo_pick (hrules.choice_nonneg hchoice)
    (hrules.choice_sum_pos hchoice) hdraw.1 hdraw.2
  obtain ⟨rfl, -⟩ := (mem_alternatives_iff hchoice).mp hfalls.mem
  rw [← hpick]
  exact hfalls.weight_pos

/-- Each expansion with a weight is taken for some draw. -/
theorem exists_takes (hrules : IsWeighted rules) {expansions : List (Expansion ℚ)}
    {expansion : Expansion ℚ} (hrule : rules.get? rule = some expansions)
    (hexpansion : expansion ∈ expansions) (hweight : 0 < expansion.weight) :
    ∃ draw, IsDraw draw ∧ Takes rules draw (rule, expansion) := by
  obtain ⟨generator, hcompile⟩ := exists_compile hrules.expansions_ne_nil
  cases hchoice : choice? rules rule with
  | none => simp [(isCompiled_of_compile hcompile).undefined hchoice] at hrule
  | some choice =>
      have hmem := (mem_alternatives_iff hchoice).mpr ⟨rfl, expansions, hrule, hexpansion⟩
      obtain ⟨draw, hlower, hupper, hpick⟩ :=
        Choice.exists_draw_pick_eq (hrules.choice_nonneg hchoice) hmem hweight
      exact ⟨draw, ⟨hlower, hupper⟩, choice, hchoice, hpick⟩

mutual
theorem TreeOf.exists_takes {rule : String} {tree : Tree ℚ} (h : TreeOf rules rule tree)
    (hrules : IsWeighted rules) (hweights : HasWeights tree.choices) :
    ∀ node ∈ tree.choices, ∃ draw, IsDraw draw ∧ Takes rules draw node := by
  cases h with
  | undefined _ => exact fun node hnode => absurd hnode List.not_mem_nil
  | expanded hrule hexpansion hbranches =>
      obtain ⟨hweight, hothers⟩ := hasWeights_cons_iff.mp hweights
      exact List.forall_mem_cons.mpr ⟨Generator.exists_takes hrules hrule hexpansion hweight,
        hbranches.exists_takes hrules hothers⟩
theorem BranchesOf.exists_takes {parts : List Part} {branches : Branches ℚ}
    (h : BranchesOf rules parts branches) (hrules : IsWeighted rules)
    (hweights : HasWeights branches.choices) :
    ∀ node ∈ branches.choices, ∃ draw, IsDraw draw ∧ Takes rules draw node := by
  cases h with
  | nil => exact fun node hnode => absurd hnode List.not_mem_nil
  | text hothers => exact hothers.exists_takes hrules hweights
  | reference htree hothers =>
      obtain ⟨htreeWeights, hothersWeights⟩ := hasWeights_append_iff.mp hweights
      exact List.forall_mem_append.mpr ⟨htree.exists_takes hrules htreeWeights,
        hothers.exists_takes hrules hothersWeights⟩
end

/-- Draws one after the other from a place on, and zero elsewhere. -/
def drawsFrom (place : Nat) (draws : List ℚ) (k : Nat) : ℚ :=
  (draws[k - place]?).getD 0

theorem exists_takeInTurn {nodes : List (String × Expansion ℚ)}
    (h : ∀ node ∈ nodes, ∃ draw, IsDraw draw ∧ Takes rules draw node) (place : Nat) :
    ∃ stream : Nat → ℚ, (∀ k, IsDraw (stream k)) ∧ TakeInTurn rules stream place nodes := by
  choose! draw hdraw htakes using h
  refine ⟨drawsFrom place (nodes.map draw), fun k => ?_, fun k hk => ?_⟩
  · rw [drawsFrom, List.getElem?_map]
    cases hnode : nodes[k - place]? with
    | none => exact ⟨le_rfl, zero_lt_one⟩
    | some node => exact hdraw node (List.mem_of_getElem? hnode)
  · rw [drawsFrom, Nat.add_sub_cancel_left, List.getElem?_map, List.getElem?_eq_getElem hk]
    exact htakes _ (List.getElem_mem hk)

theorem hasWeights_of_takeInTurn (hrules : IsWeighted rules) {stream : Nat → ℚ}
    (hstream : ∀ k, IsDraw (stream k)) {place : Nat} {nodes : List (String × Expansion ℚ)}
    (h : TakeInTurn rules stream place nodes) : HasWeights nodes := by
  intro node hnode
  obtain ⟨k, hk, rfl⟩ := List.getElem_of_mem hnode
  exact weight_pos_of_takes hrules (hstream _) (h k hk)

/-! ### Words that are returned -/

/-- Some draws, from a place on, make the generator return the word within a nesting limit. -/
def CanReturn (generator : Compiled ℚ) (limit : Nat) (name? : Option String) (place : Nat)
    (word : String) : Prop :=
  ∃ stream : Nat → ℚ, (∀ k, IsDraw (stream k)) ∧
    ∃ last, generator.generateWithin (.ofStream stream) limit name? place = (.ok word, last)

theorem canReturn_iff (hrules : IsWeighted rules) {generator : Compiled ℚ}
    (hcompiled : IsCompiled rules generator) {limit place : Nat} {name? : Option String}
    {word : String} :
    CanReturn generator limit name? place word ↔
      ∃ tree, TreeOf rules (startRule (name?.getD "")) tree ∧ HasWeights tree.choices ∧
        tree.nesting ≤ limit ∧ tree.word = word := by
  constructor
  · rintro ⟨stream, hstream, last, hreturns⟩
    obtain ⟨tree, ⟨htree, hnesting, hdrawn⟩, hword⟩ := hcompiled.expand_eq_ok_iff.mp hreturns
    obtain ⟨hturn, -⟩ := drawn_ofStream_iff.mp hdrawn
    exact ⟨tree, htree, hasWeights_of_takeInTurn hrules hstream hturn, hnesting, hword⟩
  · rintro ⟨tree, htree, hweights, hnesting, hword⟩
    obtain ⟨stream, hstream, hturn⟩ := exists_takeInTurn (htree.exists_takes hrules hweights) place
    have hdrawn : Drawn rules (.ofStream stream) place tree.choices (place + tree.choices.length) :=
      drawn_ofStream_iff.mpr ⟨hturn, rfl⟩
    exact ⟨stream, hstream, _,
      hcompiled.expand_eq_ok_iff.mpr ⟨tree, ⟨htree, hnesting, hdrawn⟩, hword⟩⟩

/-- The words that a generator can return are the words of the grammar: each of them within some
nesting limit, and within a limit, such as the generator's own, those of the trees that are nested no
deeper. -/
theorem canReturn_iff_mem_language (rules : Rules ℚ) (hrules : IsWeighted rules) :
    ∃ generator, compile rules = .ok generator ∧
      ∀ (name? : Option String) (place : Nat) (word : String),
        ((∃ limit, CanReturn generator limit name? place word) ↔
          word.toList ∈ (grammar rules (startRule (name?.getD ""))).language) ∧
        ∀ limit, CanReturn generator limit name? place word ↔
          ∃ tree, TreeOf rules (startRule (name?.getD "")) tree ∧ HasWeights tree.choices ∧
            tree.nesting ≤ limit ∧ tree.word = word := by
  obtain ⟨generator, hcompile⟩ := exists_compile hrules.expansions_ne_nil
  have hcompiled := isCompiled_of_compile hcompile
  refine ⟨generator, hcompile, fun name? place word => ⟨?_, fun limit => ?_⟩⟩
  · simp only [canReturn_iff hrules hcompiled, mem_language_iff]
    constructor
    · rintro ⟨limit, tree, htree, hweights, -, hword⟩
      exact ⟨tree, htree, hweights, hword⟩
    · rintro ⟨tree, htree, hweights, hword⟩
      exact ⟨tree.nesting, tree, htree, hweights, le_rfl, hword⟩
  · exact canReturn_iff hrules hcompiled

/-- The rule refers to itself and to one that is not defined; its first expansion has no weight. -/
def waveRules : Rules ℚ :=
  .ofList [("default", [⟨0, [.text "x"]⟩, ⟨2, [.text "na", .reference "default"]⟩,
    ⟨1, [.reference "end"]⟩])]

def waveTree : Tree ℚ :=
  .expanded "default" ⟨2, [.text "na", .reference "default"]⟩
    (.text "na" (.reference (.expanded "default" ⟨1, [.reference "end"]⟩
      (.reference (.undefined "end") .nil)) .nil))

theorem isWeighted_waveRules : IsWeighted waveRules := by
  constructor
  · simp [show waveRules.entries = [_] from rfl]
  · simp [show waveRules.entries = [_] from rfl]
    norm_num

theorem treeOf_waveTree : TreeOf waveRules "default" waveTree := by
  have hend : TreeOf waveRules (startRule "end") (.undefined "end") := .undefined rfl
  have hlast : TreeOf waveRules (startRule "default")
      (.expanded "default" ⟨1, [.reference "end"]⟩ (.reference (.undefined "end") .nil)) :=
    .expanded rfl (by simp) (.reference hend .nil)
  exact .expanded rfl (by simp) (.text (.reference hlast .nil))

/-- The expansion without a weight is in none of the trees that count. -/
theorem word_ne_of_treeOf_waveRules {tree : Tree ℚ} (h : TreeOf waveRules "default" tree)
    (hweights : HasWeights tree.choices) : tree.word ≠ "x" := by
  cases h with
  | undefined hrule => cases hrule
  | expanded hrule hexpansion hbranches =>
      obtain rfl := Option.some.inj hrule
      simp only [List.mem_cons, List.not_mem_nil, or_false] at hexpansion
      rcases hexpansion with rfl | rfl | rfl
      · exact absurd (hasWeights_cons_iff.mp hweights).1 (lt_irrefl _)
      · cases hbranches with
        | text hothers =>
            intro hword
            have hhead := congrArg (fun word => word.toList.head?) hword
            simp [Tree.word, Branches.word] at hhead
      · cases hbranches with
        | reference hend hothers =>
            cases hend with
            | undefined _ =>
                cases hothers
                decide
            | expanded hsome _ _ => cases hsome

theorem canReturn_iff_mem_language_wave :
    IsWeighted waveRules ∧
      ∃ generator, compile waveRules = .ok generator ∧ CanReturn generator 3 none 0 "na_end_" ∧
        "na_end_".toList ∈ (grammar waveRules "default").language ∧
        ∀ limit, ¬ CanReturn generator limit none 0 "x" := by
  obtain ⟨generator, hcompile, hreturns⟩ :=
    canReturn_iff_mem_language waveRules isWeighted_waveRules
  obtain ⟨hlanguage, hwithin⟩ := hreturns none 0 "na_end_"
  have hreturn : CanReturn generator 3 none 0 "na_end_" :=
    (hwithin 3).mpr ⟨waveTree, treeOf_waveTree, by simp [HasWeights, waveTree, Tree.choices,
      Branches.choices], by decide, rfl⟩
  refine ⟨isWeighted_waveRules, generator, hcompile, hreturn, hlanguage.mp ⟨3, hreturn⟩, ?_⟩
  intro limit hx
  obtain ⟨tree, htree, hweights, -, hword⟩ := ((hreturns none 0 "x").2 limit).mp hx
  exact word_ne_of_treeOf_waveRules htree hweights hword

end Interlinear.Generator
