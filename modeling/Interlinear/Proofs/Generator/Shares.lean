import Interlinear.Proofs.Generator.Choice

/-!
# Draws in proportion to weights

Between two neighbouring sums of weights lies the share of one place in the row of alternatives.
Multiplied by the sum of all weights, a draw from zero up to but not including one lies in exactly
one share, since the sums do not decrease and end in the sum of all.  That place is picked because
its running sum is the first to exceed the draw, so picking the first alternative for want of any
other never comes into play.  Divided by the sum of all weights, a share is the interval of the
draws that pick its place, and its length is the weight of the place in proportion to all.

Alternatives may look alike, so the places are picked from the same choice with numbered
alternatives.  Numbers do not change what is picked.
-/

namespace Interlinear.Choice

variable {α β : Type}

section

variable {W : Type}

/-- Other alternatives with the same weights. -/
def relabel (choice : Choice W α) (label : α → β) : Choice W β where
  first := (label choice.first.1, choice.first.2)
  others := choice.others.map fun alternative => (label alternative.1, alternative.2)

/-- The alternatives with their places, from zero on. -/
def numbered (choice : Choice W α) : Choice W (α × Nat) where
  first := ((choice.first.1, 0), choice.first.2)
  others := (choice.others.zipIdx 1).map fun entry => ((entry.1.1, entry.2), entry.1.2)

theorem alternatives_numbered (choice : Choice W α) :
    choice.numbered.alternatives =
      choice.alternatives.zipIdx.map fun entry => ((entry.1.1, entry.2), entry.1.2) := by
  simp [numbered, alternatives, List.zipIdx_cons]

theorem relabel_numbered (choice : Choice W α) : choice.numbered.relabel Prod.fst = choice := by
  obtain ⟨first, others⟩ := choice
  have hothers : (others.zipIdx 1).map Prod.fst = others := List.zipIdx_map_fst 1 others
  simp [numbered, relabel, Function.comp_def, hothers]

theorem alternatives_relabel (choice : Choice W α) (label : α → β) :
    (choice.relabel label).alternatives =
      choice.alternatives.map fun alternative => (label alternative.1, alternative.2) := rfl

theorem runningSums_relabel [Add W] (sum : W) (alternatives : List (α × W)) (label : α → β) :
    runningSums sum (alternatives.map fun alternative => (label alternative.1, alternative.2)) =
      (runningSums sum alternatives).map fun alternative =>
        (label alternative.1, alternative.2) := by
  induction alternatives generalizing sum with
  | nil => rfl
  | cons alternative alternatives ih =>
      obtain ⟨a, weight⟩ := alternative
      rw [List.map_cons, runningSums, runningSums, List.map_cons, ih]

theorem total_relabel [Add W] [OfNat W 0] (choice : Choice W α) (label : α → β) :
    (choice.relabel label).total = choice.total := by
  unfold total
  rw [alternatives_relabel, List.foldl_map]

variable [Add W] [Mul W] [OfNat W 0] [LT W] [DecidableLT W]

theorem reached?_relabel (choice : Choice W α) (label : α → β) (draw : W) :
    (choice.relabel label).reached? draw = (choice.reached? draw).map label := by
  unfold reached?
  rw [alternatives_relabel, runningSums_relabel, total_relabel, List.find?_map, Option.map_map,
    Option.map_map]
  rfl

end

/-! ## Shares -/

/-- The sum of the weights before a place. -/
def sumBefore (alternatives : List (α × ℚ)) (place : Nat) : ℚ :=
  weightSum (alternatives.take place)

/-- A number lies in the share of a place. -/
structure InShare (alternatives : List (α × ℚ)) (place : Nat) (number : ℚ) : Prop where
  reached : sumBefore alternatives place ≤ number
  below : number < sumBefore alternatives (place + 1)

variable {alternatives : List (α × ℚ)}

theorem sumBefore_succ {place : Nat} {alternative : α × ℚ}
    (h : alternatives[place]? = some alternative) :
    sumBefore alternatives (place + 1) = sumBefore alternatives place + alternative.2 := by
  unfold sumBefore
  rw [List.take_add_one, h, weightSum_append]
  simp [weightSum]

theorem sumBefore_mono (hweights : ∀ alternative ∈ alternatives, 0 ≤ alternative.2)
    {place other : Nat} (h : place ≤ other) :
    sumBefore alternatives place ≤ sumBefore alternatives other := by
  have hsplit : alternatives.take other =
      alternatives.take place ++ (alternatives.take other).drop place := by
    calc
      alternatives.take other =
          (alternatives.take other).take place ++ (alternatives.take other).drop place :=
        (List.take_append_drop place _).symm
      _ = alternatives.take place ++ (alternatives.take other).drop place := by
        rw [List.take_take, Nat.min_eq_left h]
  have hrest : 0 ≤ weightSum ((alternatives.take other).drop place) := by
    apply weightSum_nonneg
    intro alternative hmem
    exact hweights alternative (List.mem_of_mem_take (List.mem_of_mem_drop hmem))
  unfold sumBefore
  rw [hsplit, weightSum_append]
  linarith

theorem sumBefore_nonneg (hweights : ∀ alternative ∈ alternatives, 0 ≤ alternative.2)
    (place : Nat) : 0 ≤ sumBefore alternatives place :=
  sumBefore_mono hweights (Nat.zero_le place)

theorem sumBefore_le_weightSum (hweights : ∀ alternative ∈ alternatives, 0 ≤ alternative.2)
    (place : Nat) : sumBefore alternatives place ≤ weightSum alternatives := by
  have hall : sumBefore alternatives alternatives.length = weightSum alternatives := by
    unfold sumBefore
    rw [List.take_length]
  by_cases hplace : place ≤ alternatives.length
  · rw [← hall]
    exact sumBefore_mono hweights hplace
  · unfold sumBefore
    rw [List.take_of_length_le (by omega)]

/-- No number lies in two shares. -/
theorem InShare.eq (hweights : ∀ alternative ∈ alternatives, 0 ≤ alternative.2)
    {place other : Nat} {number : ℚ} (h : InShare alternatives place number)
    (hother : InShare alternatives other number) : other = place := by
  rcases Nat.lt_trichotomy other place with hlt | heq | hgt
  · have hsums := sumBefore_mono hweights (Nat.succ_le_of_lt hlt)
    linarith [h.reached, hother.below]
  · exact heq
  · have hsums := sumBefore_mono hweights (Nat.succ_le_of_lt hgt)
    linarith [hother.reached, h.below]

theorem FallsTo.getElem? {before : List (α × ℚ)} {number weight : ℚ} {a : α}
    (h : FallsTo alternatives number before a weight) :
    alternatives[before.length]? = some (a, weight) := by
  obtain ⟨after, hsplit⟩ := h.leads
  simp [← hsplit]

theorem FallsTo.inShare {before : List (α × ℚ)} {number weight : ℚ} {a : α}
    (h : FallsTo alternatives number before a weight) :
    InShare alternatives before.length number := by
  have hsum : sumBefore alternatives before.length = weightSum before := by
    obtain ⟨after, hsplit⟩ := h.leads
    unfold sumBefore
    rw [← hsplit, List.append_assoc, List.take_left]
  constructor
  · rw [hsum]
    exact h.reached
  · rw [sumBefore_succ h.getElem?, hsum]
    exact h.below

theorem getElem?_numbered (choice : Choice ℚ α) (place : Nat) :
    choice.numbered.alternatives[place]? =
      choice.alternatives[place]?.map fun alternative =>
        ((alternative.1, place), alternative.2) := by
  rw [alternatives_numbered, List.getElem?_map, List.getElem?_zipIdx, Nat.zero_add, Option.map_map]
  rfl

theorem map_snd_numbered (choice : Choice ℚ α) :
    choice.numbered.alternatives.map Prod.snd = choice.alternatives.map Prod.snd := by
  apply List.ext_getElem?
  intro place
  rw [List.getElem?_map, getElem?_numbered, List.getElem?_map, Option.map_map]
  rfl

theorem sumBefore_numbered (choice : Choice ℚ α) (place : Nat) :
    sumBefore choice.numbered.alternatives place = sumBefore choice.alternatives place := by
  unfold sumBefore weightSum
  rw [List.map_take, map_snd_numbered, List.map_take]

theorem weightSum_numbered (choice : Choice ℚ α) :
    weightSum choice.numbered.alternatives = weightSum choice.alternatives := by
  unfold weightSum
  rw [map_snd_numbered]

theorem nonneg_numbered {choice : Choice ℚ α}
    (hweights : ∀ alternative ∈ choice.alternatives, 0 ≤ alternative.2) :
    ∀ entry ∈ choice.numbered.alternatives, 0 ≤ entry.2 := by
  intro entry hentry
  have hweight : entry.2 ∈ choice.alternatives.map Prod.snd := by
    rw [← map_snd_numbered]
    exact List.mem_map_of_mem hentry
  obtain ⟨alternative, hmem, hsame⟩ := List.mem_map.mp hweight
  rw [← hsame]
  exact hweights alternative hmem

/-- A draw lies in the share of the place whose running sum is the first to exceed it. -/
theorem exists_inShare_reached {choice : Choice ℚ α}
    (hweights : ∀ alternative ∈ choice.alternatives, 0 ≤ alternative.2)
    (hsum : 0 < weightSum choice.alternatives) {draw : ℚ} (hnonneg : 0 ≤ draw)
    (hbelow : draw < 1) :
    ∃ place a weight, choice.alternatives[place]? = some (a, weight) ∧
      InShare choice.alternatives place (draw * weightSum choice.alternatives) ∧
      choice.numbered.reached? draw = some (a, place) := by
  have hnumbered := nonneg_numbered hweights
  have htotal : choice.numbered.total = weightSum choice.alternatives := by
    rw [total_eq_weightSum, weightSum_numbered]
  obtain ⟨before, weight, hfalls⟩ :=
    exists_fallsTo_pick hnumbered (by rwa [weightSum_numbered]) hnonneg hbelow
  have hreached := hfalls.reached?_eq hnumbered
  have hentry := hfalls.getElem?
  have hshare := hfalls.inShare
  rw [getElem?_numbered] at hentry
  obtain ⟨⟨a, share⟩, hplace, hpick⟩ := Option.map_eq_some_iff.mp hentry
  rw [htotal] at hshare
  refine ⟨before.length, a, share, hplace, ⟨?_, ?_⟩, ?_⟩
  · rw [← sumBefore_numbered]
    exact hshare.reached
  · rw [← sumBefore_numbered]
    exact hshare.below
  · rw [hreached, ← (Prod.mk.inj hpick).1]

theorem reached?_of_numbered {W : Type} [Add W] [Mul W] [OfNat W 0] [LT W] [DecidableLT W]
    {choice : Choice W α} {draw : W} {a : α} {place : Nat}
    (h : choice.numbered.reached? draw = some (a, place)) : choice.reached? draw = some a := by
  have hsame := choice.numbered.reached?_relabel Prod.fst draw
  rwa [relabel_numbered, h, Option.map_some] at hsame

theorem InShare.weight_pos {place : Nat} {number weight : ℚ} {a : α}
    (h : InShare alternatives place number) (hplace : alternatives[place]? = some (a, weight)) :
    0 < weight := by
  have hsum := sumBefore_succ hplace
  linarith [h.reached, h.below]

theorem inShare_mul_iff (hsum : 0 < weightSum alternatives) {place : Nat} {draw : ℚ} :
    InShare alternatives place (draw * weightSum alternatives) ↔
      draw ∈ Set.Ico (sumBefore alternatives place / weightSum alternatives)
        (sumBefore alternatives (place + 1) / weightSum alternatives) := by
  rw [Set.mem_Ico, div_le_iff₀ hsum, lt_div_iff₀ hsum]
  constructor
  · intro h
    exact ⟨h.reached, h.below⟩
  · intro h
    exact ⟨h.1, h.2⟩

theorem mem_unitInterval_of_inShare
    (hweights : ∀ alternative ∈ alternatives, 0 ≤ alternative.2)
    (hsum : 0 < weightSum alternatives) {place : Nat} {draw : ℚ}
    (h : InShare alternatives place (draw * weightSum alternatives)) : 0 ≤ draw ∧ draw < 1 := by
  have hlow := sumBefore_nonneg hweights place
  have hhigh := sumBefore_le_weightSum hweights (place + 1)
  constructor
  · apply nonneg_of_mul_nonneg_left _ hsum
    linarith [h.reached]
  · apply lt_of_mul_lt_mul_right _ hsum.le
    linarith [h.below]

/-- Alternatives whose weights are not negative and not all zero make a choice.  A draw from zero up
to but not including one lies in the share of one place only, and it picks this place, which has a
weight, because the running sum of the place is the first to exceed the draw.  The draws that pick a
place are an interval as long as the weight of the place in proportion to all weights. -/
theorem draws_shared_by_weight (alternatives : List (α × ℚ))
    (hweights : ∀ alternative ∈ alternatives, 0 ≤ alternative.2)
    (hsum : 0 < weightSum alternatives) :
    ∃ choice, ofList alternatives = .ok choice ∧
      (∀ draw, 0 ≤ draw → draw < 1 →
        ∃ place a weight, alternatives[place]? = some (a, weight) ∧ 0 < weight ∧
          InShare alternatives place (draw * weightSum alternatives) ∧
          (∀ other, InShare alternatives other (draw * weightSum alternatives) → other = place) ∧
          choice.numbered.reached? draw = some (a, place) ∧
          choice.numbered.pick draw = (a, place) ∧
          choice.reached? draw = some a ∧ choice.pick draw = a) ∧
      ∀ place a weight, alternatives[place]? = some (a, weight) →
        {draw | 0 ≤ draw ∧ draw < 1 ∧ choice.numbered.pick draw = (a, place)} =
            Set.Ico (sumBefore alternatives place / weightSum alternatives)
              (sumBefore alternatives (place + 1) / weightSum alternatives) ∧
          sumBefore alternatives (place + 1) / weightSum alternatives -
              sumBefore alternatives place / weightSum alternatives =
            weight / weightSum alternatives := by
  obtain ⟨choice, hchoice, rfl⟩ :
      ∃ choice, ofList alternatives = .ok choice ∧ choice.alternatives = alternatives := by
    cases alternatives with
    | nil => exact absurd hsum (lt_irrefl 0)
    | cons first others => exact ⟨⟨first, others⟩, rfl, rfl⟩
  refine ⟨choice, hchoice, ?_, ?_⟩
  · intro draw hnonneg hbelow
    obtain ⟨place, a, weight, hplace, hshare, hreached⟩ :=
      exists_inShare_reached hweights hsum hnonneg hbelow
    have hsame := reached?_of_numbered hreached
    refine ⟨place, a, weight, hplace, hshare.weight_pos hplace, hshare,
      fun other hother => hshare.eq hweights hother, hreached, ?_, hsame, ?_⟩
    · rw [pick_eq_getD, hreached, Option.getD_some]
    · rw [pick_eq_getD, hsame, Option.getD_some]
  · intro place a weight hplace
    constructor
    · ext draw
      rw [← inShare_mul_iff hsum]
      constructor
      · rintro ⟨hnonneg, hbelow, hpick⟩
        obtain ⟨other, b, share, -, hshare, hreached⟩ :=
          exists_inShare_reached hweights hsum hnonneg hbelow
        rw [pick_eq_getD, hreached, Option.getD_some] at hpick
        obtain rfl : other = place := (Prod.mk.inj hpick).2
        exact hshare
      · intro hshare
        obtain ⟨hnonneg, hbelow⟩ := mem_unitInterval_of_inShare hweights hsum hshare
        obtain ⟨other, b, share, hother, hotherShare, hreached⟩ :=
          exists_inShare_reached hweights hsum hnonneg hbelow
        obtain rfl := hshare.eq hweights hotherShare
        obtain rfl : b = a := by
          rw [hother] at hplace
          exact (Prod.mk.inj (Option.some.inj hplace)).1
        refine ⟨hnonneg, hbelow, ?_⟩
        rw [pick_eq_getD, hreached, Option.getD_some]
    · rw [sumBefore_succ hplace]
      ring

def vowels : List (String × ℚ) :=
  [("a", 0), ("e", 1 / 2), ("i", 0), ("o", 3 / 2), ("u", 0)]

/-- A quarter of the draws is for the second vowel.  The first draw after them is for the fourth,
since the third has no weight. -/
theorem draws_shared_by_weight_vowels :
    (∀ vowel ∈ vowels, 0 ≤ vowel.2) ∧ 0 < weightSum vowels ∧
      ∃ choice, ofList vowels = .ok choice ∧ choice.pick (1 / 4) = "o" ∧
        {draw | 0 ≤ draw ∧ draw < 1 ∧ choice.numbered.pick draw = ("o", 3)} =
          Set.Ico (1 / 4 : ℚ) 1 := by
  have hweights : ∀ vowel ∈ vowels, 0 ≤ vowel.2 := by
    norm_num [vowels]
  have hsum : weightSum vowels = 2 := by
    norm_num [vowels]
  have hlow : sumBefore vowels 3 = 1 / 2 := by
    norm_num [sumBefore, vowels]
  have hhigh : sumBefore vowels 4 = 2 := by
    norm_num [sumBefore, vowels]
  have hpos : 0 < weightSum vowels := by
    rw [hsum]
    norm_num
  obtain ⟨choice, hchoice, hdraws, hshares⟩ := draws_shared_by_weight vowels hweights hpos
  obtain ⟨hinterval, -⟩ := hshares 3 "o" (3 / 2) rfl
  rw [hsum, hlow, hhigh] at hinterval
  norm_num at hinterval
  refine ⟨hweights, hpos, choice, hchoice, ?_, hinterval⟩
  obtain ⟨place, a, weight, hplace, -, -, hunique, -, -, -, hpick⟩ :=
    hdraws (1 / 4) (by norm_num) (by norm_num)
  have hshare : InShare vowels 3 (1 / 4 * weightSum vowels) := by
    constructor
    · rw [hlow, hsum]
      norm_num
    · rw [hhigh, hsum]
      norm_num
  obtain rfl := hunique 3 hshare
  rw [hpick]
  exact (Prod.mk.inj (Option.some.inj hplace)).1.symm

end Interlinear.Choice
