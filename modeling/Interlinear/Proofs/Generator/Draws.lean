import Interlinear.Proofs.Generator.Derivations

/-!
# The draws of a generator

The draws of a stream are used up in turn.  A word that is returned is the word of the one
derivation tree whose defined rules, taken in preorder, have the expansions that their choices give
for the draws from the first place on, and the next place is behind as many draws.  A row of calls
goes through the stream without gaps.

Where no rule reaches itself through references, the rules on a branch of a tree are distinct, so
that there are no more of them than rules.  One node may stand below them, for a rule that is not
defined.  Hence every stream settles a tree that is nested no deeper than the number of rules and
one, and with so much room every call returns.
-/

namespace Interlinear.Generator

open Outcome

variable {W : Type}

/-- The numbers of a stream in turn; the state is the place of the next one. -/
def Source.ofStream (stream : Nat → W) : Source Nat W :=
  ⟨fun place => (stream place, place + 1)⟩

/-- A rule refers to another: one of its expansions holds a name that stands for it. -/
def Refers (rules : Rules W) (rule other : String) : Prop :=
  ∃ expansions, rules.get? rule = some expansions ∧
    ∃ expansion ∈ expansions, ∃ name, .reference name ∈ expansion.parts ∧ startRule name = other

variable {rules : Rules W}

/-- Rules that are being expanded: distinct ones that reach the rule at hand. -/
structure IsAbove (rules : Rules W) (path : List String) (rule : String) : Prop where
  nodup : path.Nodup
  defined : ∀ other ∈ path, other ∈ rules.keys
  reaches : ∀ other ∈ path, Relation.TransGen (Refers rules) other rule

theorem isAbove_nil (rules : Rules W) (rule : String) : IsAbove rules [] rule :=
  ⟨List.nodup_nil, by simp, by simp⟩

theorem IsAbove.length_le {path : List String} {rule : String} (h : IsAbove rules path rule) :
    path.length ≤ rules.size := by
  have hlength : rules.keys.length = rules.size := List.length_map Prod.fst
  rw [← hlength]
  exact h.nodup.length_le_of_subset h.defined

theorem IsAbove.cons {path : List String} {rule other : String} (h : IsAbove rules path rule)
    (hacyclic : ∀ rule, ¬ Relation.TransGen (Refers rules) rule rule)
    (hrefers : Refers rules rule other) : IsAbove rules (rule :: path) other where
  nodup := List.nodup_cons.mpr ⟨fun hmem => hacyclic rule (h.reaches rule hmem), h.nodup⟩
  defined := by
    obtain ⟨expansions, hrule, -⟩ := hrefers
    have hkey : rule ∈ rules.keys := List.mem_map.mpr ⟨(rule, expansions), mem_of_lookup hrule, rfl⟩
    exact List.forall_mem_cons.mpr ⟨hkey, h.defined⟩
  reaches := by
    refine List.forall_mem_cons.mpr ⟨.single hrefers, fun upper hupper => ?_⟩
    exact (h.reaches upper hupper).tail hrefers

/-! ### Draws in turn -/

variable [Add W] [Mul W] [OfNat W 0] [LT W] [DecidableLT W]

/-- Each node takes the expansion that its choice gives for its draw: the first node for the draw at
the place, and so on. -/
def TakeInTurn (rules : Rules W) (stream : Nat → W) (place : Nat)
    (nodes : List (String × Expansion W)) : Prop :=
  ∀ k (hk : k < nodes.length), Takes rules (stream (place + k)) nodes[k]

theorem takeInTurn_cons_iff {stream : Nat → W} {place : Nat} {node : String × Expansion W}
    {nodes : List (String × Expansion W)} :
    TakeInTurn rules stream place (node :: nodes) ↔
      Takes rules (stream place) node ∧ TakeInTurn rules stream (place + 1) nodes := by
  constructor
  · intro h
    refine ⟨h 0 (by simp), fun k hk => ?_⟩
    have hnext := h (k + 1) (by simpa using hk)
    rwa [← Nat.add_assoc, Nat.add_right_comm] at hnext
  · rintro ⟨hnode, hnodes⟩ k hk
    cases k with
    | zero => exact hnode
    | succ k =>
        have hnext := hnodes k (by simpa using hk)
        rwa [Nat.add_right_comm, Nat.add_assoc] at hnext

theorem drawn_ofStream_iff {stream : Nat → W} {place last : Nat}
    {nodes : List (String × Expansion W)} :
    Drawn rules (.ofStream stream) place nodes last ↔
      TakeInTurn rules stream place nodes ∧ last = place + nodes.length := by
  induction nodes generalizing place with
  | nil => simp [drawn_nil_iff, TakeInTurn]
  | cons node nodes ih =>
      rw [drawn_cons_iff, takeInTurn_cons_iff, and_assoc, List.length_cons]
      have hplace : place + (nodes.length + 1) = place + 1 + nodes.length := by omega
      rw [hplace]
      exact and_congr_right fun _ => ih

/-! ### Calls in a row -/

/-- Calls one after the other, each of which returns a word. -/
inductive Returns (generator : Compiled W) (stream : Nat → W) (limit : Nat) :
    Nat → List (Option String × String) → Nat → Prop
  | nil (place : Nat) : Returns generator stream limit place [] place
  | cons {place next last : Nat} {name? : Option String} {word : String}
      {calls : List (Option String × String)}
      (hcall : generator.generateWithin (.ofStream stream) limit name? place = (.ok word, next))
      (hcalls : Returns generator stream limit next calls last) :
      Returns generator stream limit place ((name?, word) :: calls) last

theorem Returns.exists_trees {generator : Compiled W} (h : IsCompiled rules generator)
    {stream : Nat → W} {limit place last : Nat} {calls : List (Option String × String)}
    (hcalls : Returns generator stream limit place calls last) :
    ∃ trees : List (Tree W),
      List.Forall₂ (fun call tree =>
        TreeOf rules (startRule (call.1.getD "")) tree ∧ tree.word = call.2) calls trees ∧
      Drawn rules (.ofStream stream) place (trees.flatMap Tree.choices) last := by
  induction hcalls with
  | nil place => exact ⟨[], .nil, .nil place⟩
  | cons hcall _ ih =>
      obtain ⟨tree, ⟨htree, -, hdrawn⟩, hword⟩ := h.expand_eq_ok_iff.mp hcall
      obtain ⟨trees, htrees, hothers⟩ := ih
      exact ⟨tree :: trees, .cons ⟨htree, hword⟩ htrees, drawn_append_iff.mpr ⟨_, hdrawn, hothers⟩⟩

/-! ### Rules that do not reach themselves -/

theorem Settles.mono {σ : Type} {source : Source σ W} {limit more : Nat} {rule : String}
    {state last : σ} {tree : Tree W} (h : Settles rules source limit rule state tree last)
    (hmore : limit ≤ more) : Settles rules source more rule state tree last :=
  ⟨h.treeOf, h.nesting_le.trans hmore, h.drawn⟩

theorem exists_settlesBranches {σ : Type} {source : Source σ W} {limit : Nat} {parts : List Part}
    (hparts : ∀ text, .stray text ∉ parts)
    (hreferences : ∀ name, .reference name ∈ parts → ∀ state, ∃ tree last,
      Settles rules source limit (startRule name) state tree last) (state : σ) :
    ∃ branches last, SettlesBranches rules source limit parts state branches last := by
  induction parts generalizing state with
  | nil => exact ⟨.nil, state, settlesBranches_nil_iff.mpr ⟨rfl, rfl⟩⟩
  | cons part parts ih =>
      have hothers := ih (fun text hmem => hparts text (List.mem_cons_of_mem _ hmem))
        fun name hmem => hreferences name (List.mem_cons_of_mem _ hmem)
      cases part with
      | text text =>
          obtain ⟨others, last, hsettles⟩ := hothers state
          exact ⟨_, last, settlesBranches_text_iff.mpr ⟨others, rfl, hsettles⟩⟩
      | reference name =>
          obtain ⟨tree, middle, htree⟩ := hreferences name List.mem_cons_self state
          obtain ⟨others, last, hsettles⟩ := hothers middle
          exact ⟨_, last, settlesBranches_reference_iff.mpr
            ⟨tree, middle, others, rfl, htree, hsettles⟩⟩
      | stray text => exact absurd List.mem_cons_self (hparts text)

theorem exists_settles {σ : Type} {source : Source σ W} {generator : Compiled W}
    (h : IsCompiled rules generator)
    (hsymbols : ∀ entry ∈ rules.entries, ∀ expansion ∈ entry.2, ∀ text,
      .stray text ∉ expansion.parts)
    (hacyclic : ∀ rule, ¬ Relation.TransGen (Refers rules) rule rule) {limit : Nat} {rule : String}
    {path : List String} (hpath : IsAbove rules path rule)
    (hroom : rules.size < limit + path.length) (state : σ) :
    ∃ tree last, Settles rules source limit rule state tree last := by
  induction limit generalizing rule path state with
  | zero =>
      have hlength := hpath.length_le
      omega
  | succ limit ih =>
      cases hchoice : choice? rules rule with
      | none => exact ⟨_, state, (settles_undefined_iff (h.undefined hchoice)).mpr ⟨rfl, rfl⟩⟩
      | some choice =>
          obtain ⟨expansions, hrule, halternatives⟩ := exists_of_choice?_eq_some hchoice
          have hpick : choice.pick (source.draw state).1 ∈ expansions := by
            simpa [halternatives] using choice.pick_mem (source.draw state).1
          have hparts := hsymbols (rule, expansions) (mem_of_lookup hrule) _ hpick
          have hreferences : ∀ name,
              .reference name ∈ (choice.pick (source.draw state).1).parts → ∀ state,
                ∃ tree last, Settles rules source limit (startRule name) state tree last := by
            intro name hname state
            have hrefers : Refers rules rule (startRule name) :=
              ⟨expansions, hrule, _, hpick, name, hname, rfl⟩
            refine ih (hpath.cons hacyclic hrefers) ?_ state
            rw [List.length_cons]
            omega
          obtain ⟨branches, last, hbranches⟩ :=
            exists_settlesBranches hparts hreferences (source.draw state).2
          exact ⟨_, last, (settles_expanded_iff hchoice).mpr ⟨branches, rfl, hbranches⟩⟩

/-- A generator compiled from rules with expansions returns the word of the derivation tree that the
draws settle in preorder, one draw for each defined rule, and a row of calls uses the draws without
gaps.  Where no rule reaches itself, every call returns and is nested no deeper than the number of
rules and one. -/
theorem generate_settled_by_draws (rules : Rules W)
    (hexpansions : ∀ entry ∈ rules.entries, entry.2 ≠ [])
    (hsymbols : ∀ entry ∈ rules.entries, ∀ expansion ∈ entry.2, ∀ text,
      .stray text ∉ expansion.parts) :
    ∃ generator, compile rules = .ok generator ∧
      (∀ (limit : Nat) (stream : Nat → W) (name? : Option String) (place last : Nat) (word : String),
        generator.generateWithin (.ofStream stream) limit name? place = (.ok word, last) →
          ∃ tree, TreeOf rules (startRule (name?.getD "")) tree ∧
            TakeInTurn rules stream place tree.choices ∧
            (∀ other, TreeOf rules (startRule (name?.getD "")) other →
              TakeInTurn rules stream place other.choices → other = tree) ∧
            word = tree.word ∧ last = place + tree.choices.length) ∧
      (∀ (limit : Nat) (stream : Nat → W) (place last : Nat) (calls : List (Option String × String)),
        Returns generator stream limit place calls last →
          ∃ trees : List (Tree W),
            List.Forall₂ (fun call tree =>
              TreeOf rules (startRule (call.1.getD "")) tree ∧ tree.word = call.2) calls trees ∧
            TakeInTurn rules stream place (trees.flatMap Tree.choices) ∧
            last = place + (trees.flatMap Tree.choices).length) ∧
      ((∀ rule, ¬ Relation.TransGen (Refers rules) rule rule) →
        ∀ (stream : Nat → W) (name? : Option String) (place : Nat),
          ∃ tree, TreeOf rules (startRule (name?.getD "")) tree ∧
            TakeInTurn rules stream place tree.choices ∧ tree.nesting ≤ rules.size + 1 ∧
            (∀ limit, rules.size + 1 ≤ limit →
              generator.generateWithin (.ofStream stream) limit name? place =
                (.ok tree.word, place + tree.choices.length)) ∧
            generator.generate (.ofStream stream) name? place =
              (.ok tree.word, place + tree.choices.length)) := by
  obtain ⟨generator, hcompile⟩ := exists_compile hexpansions
  have hcompiled := isCompiled_of_compile hcompile
  refine ⟨generator, hcompile, ?_, ?_, ?_⟩
  · intro limit stream name? place last word hreturns
    obtain ⟨tree, ⟨htree, -, hdrawn⟩, hword⟩ := hcompiled.expand_eq_ok_iff.mp hreturns
    obtain ⟨hturn, hlast⟩ := drawn_ofStream_iff.mp hdrawn
    refine ⟨tree, htree, hturn, fun other hother hotherTurn => ?_, hword.symm, hlast⟩
    exact htree.eq_of_drawn hother hdrawn (drawn_ofStream_iff.mpr ⟨hotherTurn, rfl⟩)
  · intro limit stream place last calls hcalls
    obtain ⟨trees, htrees, hdrawn⟩ := hcalls.exists_trees hcompiled
    exact ⟨trees, htrees, drawn_ofStream_iff.mp hdrawn⟩
  · intro hacyclic stream name? place
    have hroom : rules.size < rules.size + 1 + ([] : List String).length := by simp
    obtain ⟨tree, last, hsettles⟩ : ∃ tree last, Settles rules (.ofStream stream) (rules.size + 1)
        (startRule (name?.getD "")) place tree last :=
      exists_settles hcompiled hsymbols hacyclic (isAbove_nil rules _) hroom place
    obtain ⟨hturn, rfl⟩ := drawn_ofStream_iff.mp hsettles.drawn
    have hwithin : ∀ limit, rules.size + 1 ≤ limit →
        generator.generateWithin (.ofStream stream) limit name? place =
          (.ok tree.word, place + tree.choices.length) := fun limit hlimit =>
      hcompiled.expand_eq_ok_iff.mpr ⟨tree, hsettles.mono hlimit, rfl⟩
    refine ⟨tree, hsettles.treeOf, hturn, hsettles.nesting_le, hwithin, hwithin _ ?_⟩
    rw [nestingLimit, hcompiled.size_eq]
    exact le_max_right _ _

/-- The rule of the coda is not defined. -/
def syllableRules : Rules ℚ :=
  .ofList [("default", [⟨1, [.reference "onset", .reference "nucleus", .reference "coda"]⟩,
      ⟨1, [.text "o"]⟩]),
    ("onset", [⟨1, [.text "m"]⟩, ⟨3, [.text "n"]⟩]),
    ("nucleus", [⟨1, [.text "a"]⟩])]

def syllableTree : Tree ℚ :=
  .expanded "default" ⟨1, [.reference "onset", .reference "nucleus", .reference "coda"]⟩
    (.reference (.expanded "onset" ⟨3, [.text "n"]⟩ (.text "n" .nil))
      (.reference (.expanded "nucleus" ⟨1, [.text "a"]⟩ (.text "a" .nil))
        (.reference (.undefined "coda") .nil)))

def alternatingStream (place : Nat) : ℚ :=
  if place % 2 = 0 then 0 else 1 / 2

theorem refers_syllables {rule other : String} (h : Refers syllableRules rule other) :
    rule = "default" ∧ (other = "onset" ∨ other = "nucleus" ∨ other = "coda") := by
  obtain ⟨expansions, hrule, expansion, hexpansion, name, hname, rfl⟩ := h
  have hentry : (rule, expansions) ∈ syllableRules.entries := mem_of_lookup hrule
  simp only [show syllableRules.entries = [_, _, _] from rfl, List.mem_cons, List.not_mem_nil,
    or_false, Prod.mk.injEq] at hentry
  rcases hentry with ⟨rfl, rfl⟩ | ⟨rfl, rfl⟩ | ⟨rfl, rfl⟩
  · simp only [List.mem_cons, List.not_mem_nil, or_false] at hexpansion
    rcases hexpansion with rfl | rfl
    · simp only [List.mem_cons, List.not_mem_nil, or_false, Part.reference.injEq] at hname
      rcases hname with rfl | rfl | rfl <;> decide
    · simp at hname
  · simp only [List.mem_cons, List.not_mem_nil, or_false] at hexpansion
    rcases hexpansion with rfl | rfl <;> simp at hname
  · simp only [List.mem_cons, List.not_mem_nil, or_false] at hexpansion
    subst hexpansion
    simp at hname

theorem not_reachesItself_syllables (rule : String) :
    ¬ Relation.TransGen (Refers syllableRules) rule rule := by
  intro hreaches
  obtain ⟨_, hfirst, -⟩ := Relation.TransGen.head'_iff.mp hreaches
  obtain ⟨_, -, hlast⟩ := Relation.TransGen.tail'_iff.mp hreaches
  obtain ⟨rfl, -⟩ := refers_syllables hfirst
  exact absurd (refers_syllables hlast).2 (by decide)

theorem treeOf_syllableTree : TreeOf syllableRules "default" syllableTree := by
  have honset : TreeOf syllableRules (startRule "onset")
      (.expanded "onset" ⟨3, [.text "n"]⟩ (.text "n" .nil)) := .expanded rfl (by simp) (.text .nil)
  have hnucleus : TreeOf syllableRules (startRule "nucleus")
      (.expanded "nucleus" ⟨1, [.text "a"]⟩ (.text "a" .nil)) :=
    .expanded rfl (by simp) (.text .nil)
  have hcoda : TreeOf syllableRules (startRule "coda") (.undefined "coda") := .undefined rfl
  exact .expanded rfl (by simp) (.reference honset (.reference hnucleus (.reference hcoda .nil)))

theorem takeInTurn_syllableTree :
    TakeInTurn syllableRules alternatingStream 4 syllableTree.choices := by
  simp only [syllableTree, Tree.choices, Branches.choices, List.append_nil, List.nil_append,
    List.cons_append, takeInTurn_cons_iff]
  refine ⟨⟨_, rfl, by cbv⟩, ⟨_, rfl, by cbv⟩, ⟨_, rfl, by cbv⟩, ?_⟩
  intro k hk
  simp at hk

theorem generate_settled_by_draws_syllables :
    (∀ rule, ¬ Relation.TransGen (Refers syllableRules) rule rule) ∧
      ∃ generator, compile syllableRules = .ok generator ∧
        generator.generate (.ofStream alternatingStream) none 4 = (.ok "na_coda_", 7) := by
  have hexpansions : ∀ entry ∈ syllableRules.entries, entry.2 ≠ [] := by
    simp [show syllableRules.entries = [_, _, _] from rfl]
  have hsymbols : ∀ entry ∈ syllableRules.entries, ∀ expansion ∈ entry.2, ∀ text,
      .stray text ∉ expansion.parts := by
    simp [show syllableRules.entries = [_, _, _] from rfl]
  obtain ⟨generator, hcompile, hsettled, -, hreturns⟩ :=
    generate_settled_by_draws syllableRules hexpansions hsymbols
  obtain ⟨tree, htree, hturn, -, hwithin, hgenerate⟩ :=
    hreturns not_reachesItself_syllables alternatingStream none 4
  obtain ⟨settled, -, -, hunique, -, -⟩ := hsettled _ _ _ _ _ _ (hwithin _ le_rfl)
  obtain rfl : tree = syllableTree :=
    (hunique tree htree hturn).trans
      (hunique syllableTree treeOf_syllableTree takeInTurn_syllableTree).symm
  exact ⟨not_reachesItself_syllables, generator, hcompile, hgenerate⟩

end Interlinear.Generator
