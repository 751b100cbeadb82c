import Interlinear.Proofs.Generator.Derivations

/-!
# What can keep a word from being generated

Rules that are read from a text are made of texts and references.  So the expansion of a rule goes
wrong in one way only, by nesting too deeply.
-/

namespace Interlinear.Generator

open Outcome

/-- All parts are texts and references. -/
def IsRow (parts : List Part) : Prop :=
  ∀ text, .stray text ∉ parts

def AreRows {W : Type} (expansions : List (Expansion W)) : Prop :=
  ∀ expansion ∈ expansions, IsRow expansion.parts

def Rules.AreRows {W : Type} (rules : Rules W) : Prop :=
  ∀ rule ∈ rules.entries, Generator.AreRows rule.2

theorem isRow_nil : IsRow [] :=
  fun _ => List.not_mem_nil

theorem isRow_cons_iff {part : Part} {parts : List Part} :
    IsRow (part :: parts) ↔ (∀ text, part ≠ .stray text) ∧ IsRow parts := by
  unfold IsRow
  simp only [List.mem_cons, not_or, forall_and, ne_eq, eq_comm]

/-! ## Rules that are read -/

theorem isRow_of_readParts {fuel : Nat} {cs : List Char} {parts : List Part}
    (h : readParts fuel cs = .ok parts) : IsRow parts := by
  induction fuel generalizing cs parts with
  | zero =>
      cases cs with
      | nil =>
          obtain rfl : [] = parts := Except.ok.inj h
          exact isRow_nil
      | cons c cs => cases h
  | succ fuel ih =>
      cases cs with
      | nil =>
          obtain rfl : [] = parts := Except.ok.inj h
          exact isRow_nil
      | cons c cs =>
          by_cases hopen : c = '['
          · subst hopen
            rw [readParts] at h
            split at h
            next =>
                obtain ⟨others, hothers, hlist⟩ := bind_eq_ok_iff.mp h
                obtain rfl := Except.ok.inj hlist
                exact isRow_cons_iff.mpr ⟨by simp, ih hothers⟩
            next => cases h
          · rw [readParts] at h
            · split at h
              next => cases h
              next =>
                  obtain ⟨others, hothers, hlist⟩ := bind_eq_ok_iff.mp h
                  obtain rfl := Except.ok.inj hlist
                  exact isRow_cons_iff.mpr ⟨by simp, ih hothers⟩
            · exact hopen

theorem isRow_of_readExpansion {word : List Char} {expansion : Expansion Numeral.Decimal}
    (h : readExpansion word = .ok expansion) : IsRow expansion.parts := by
  unfold readExpansion at h
  obtain ⟨parts, hparts, h⟩ := bind_eq_ok_iff.mp h
  split at h
  · cases h
  · obtain rfl := Except.ok.inj h
    exact isRow_of_readParts hparts

theorem areRows_of_readExpansions {words : List (List Char)}
    {expansions : List (Expansion Numeral.Decimal)} (h : readExpansions words = .ok expansions) :
    AreRows expansions := by
  induction words generalizing expansions with
  | nil =>
      obtain rfl := Except.ok.inj h
      simp [AreRows]
  | cons word words ih =>
      rw [readExpansions] at h
      obtain ⟨expansion, hexpansion, h⟩ := bind_eq_ok_iff.mp h
      obtain ⟨others, hothers, h⟩ := bind_eq_ok_iff.mp h
      obtain rfl := Except.ok.inj h
      exact List.forall_mem_cons.mpr ⟨isRow_of_readExpansion hexpansion, ih hothers⟩

theorem areRows_of_readRules {blocks : List (List Char)}
    {rules : List (String × List (Expansion Numeral.Decimal))} (h : readRules blocks = .ok rules) :
    ∀ rule ∈ rules, AreRows rule.2 := by
  induction blocks generalizing rules with
  | nil =>
      obtain rfl := Except.ok.inj h
      simp
  | cons block blocks ih =>
      rw [readRules] at h
      obtain ⟨rule, hrule, h⟩ := bind_eq_ok_iff.mp h
      obtain ⟨others, hothers, h⟩ := bind_eq_ok_iff.mp h
      obtain rfl := Except.ok.inj h
      refine List.forall_mem_cons.mpr ⟨?_, ih hothers⟩
      unfold readRule at hrule
      split at hrule
      · cases hrule
      · obtain ⟨expansions, hexpansions, hrule⟩ := bind_eq_ok_iff.mp hrule
        obtain rfl := Except.ok.inj hrule
        exact areRows_of_readExpansions hexpansions

theorem areRows_of_parse {raw : String} {rules : Rules Numeral.Decimal}
    (h : parse raw = .ok rules) : rules.AreRows := by
  obtain ⟨entries, hentries, h⟩ := bind_eq_ok_iff.mp h
  obtain rfl := Except.ok.inj h
  exact Dictionary.all_ofList (P := AreRows) (areRows_of_readRules hentries)

theorem Rules.AreRows.toFloat {rules : Rules Numeral.Decimal} (h : rules.AreRows) :
    rules.toFloat.AreRows := by
  intro entry hentry expansion hexpansion
  obtain ⟨⟨name, expansions⟩, hrule, rfl⟩ := List.mem_map.mp hentry
  obtain ⟨original, horiginal, rfl⟩ := List.mem_map.mp hexpansion
  exact h (name, expansions) hrule original horiginal

/-! ## Expansions that go wrong -/

variable {W σ : Type} [Add W] [Mul W] [OfNat W 0] [LT W] [DecidableLT W]
variable {rules : Rules W} {source : Source σ W} {generator : Compiled W}

theorem expandParts_eq_error {expand : String → σ → Except ExpansionError String × σ}
    (hexpand : ∀ name state e, (expand name state).1 = .error e → e = .nestedTooDeeply)
    {parts : List Part} (hparts : IsRow parts) {state : σ} {e : ExpansionError}
    (h : (expandParts expand parts state).1 = .error e) : e = .nestedTooDeeply := by
  induction parts generalizing state with
  | nil => cases h
  | cons part parts ih =>
      obtain ⟨hpart, hothers⟩ := isRow_cons_iff.mp hparts
      cases part with
      | stray text => exact absurd rfl (hpart text)
      | text text =>
          rw [expandParts] at h
          cases hrest : expandParts expand parts state with
          | mk outcome last =>
              rw [hrest] at h
              cases outcome with
              | ok word => cases h
              | error other =>
                  obtain rfl := Except.error.inj h
                  exact ih hothers (by rw [hrest])
      | reference name =>
          rw [expandParts] at h
          cases hfirst : expand name state with
          | mk outcome middle =>
              rw [hfirst] at h
              cases outcome with
              | error other =>
                  obtain rfl := Except.error.inj h
                  exact hexpand name state other (by rw [hfirst])
              | ok word =>
                  cases hrest : expandParts expand parts middle with
                  | mk outcome last =>
                      simp only [hrest] at h
                      cases outcome with
                      | ok word => cases h
                      | error other =>
                          obtain rfl := Except.error.inj h
                          exact ih hothers (by rw [hrest])

theorem IsCompiled.expand_eq_error (h : IsCompiled rules generator) (hrows : rules.AreRows)
    {limit : Nat} {name : String} {state : σ} {e : ExpansionError}
    (herror : (generator.expand source limit name state).1 = .error e) : e = .nestedTooDeeply := by
  induction limit generalizing name state e with
  | zero => exact (Except.error.inj herror).symm
  | succ limit ih =>
      rw [Compiled.expand, h.get?_eq] at herror
      cases hchoice : choice? rules (startRule name) with
      | none =>
          rw [hchoice] at herror
          cases herror
      | some choice =>
          rw [hchoice] at herror
          obtain ⟨expansions, hrule, halternatives⟩ := exists_of_choice?_eq_some hchoice
          have hpick : choice.pick (source.draw state).1 ∈ expansions := by
            simpa [halternatives] using choice.pick_mem (source.draw state).1
          exact expandParts_eq_error (fun name state e => ih)
            (hrows _ (mem_of_lookup hrule) _ hpick) herror

end Interlinear.Generator
