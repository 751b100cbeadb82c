import Interlinear.Generator.Choice
import Mathlib

/-!
# What a draw picks

Over exact numbers the running sums of a choice divide the stretch from zero to the sum of its
weights into one share for each alternative, as long as its weight.  A draw from zero up to but not
including one falls into the stretch, and the alternative whose share it falls into is picked.  So
the first alternative is never taken for want of another, an alternative without weight is never
picked, and each of the others is picked by some draw.
-/

namespace Interlinear.Choice

variable {α : Type}

section

variable {W : Type} [Add W]

theorem map_fst_runningSums (sum : W) (alternatives : List (α × W)) :
    (runningSums sum alternatives).map Prod.fst = alternatives.map Prod.fst := by
  induction alternatives generalizing sum with
  | nil => rfl
  | cons alternative alternatives ih =>
      obtain ⟨a, weight⟩ := alternative
      rw [runningSums, List.map_cons, List.map_cons, ih]

/-- The first alternative whose running sum exceeds a draw. -/
def reached? [Mul W] [OfNat W 0] [LT W] [DecidableLT W] (choice : Choice W α) (draw : W) :
    Option α :=
  ((runningSums 0 choice.alternatives).find? fun alternative =>
    decide (draw * choice.total < alternative.2)).map Prod.fst

/-- The first alternative of all is picked for want of another only. -/
theorem pick_eq_getD [Mul W] [OfNat W 0] [LT W] [DecidableLT W] (choice : Choice W α) (draw : W) :
    choice.pick draw = (choice.reached? draw).getD choice.first.1 := by
  unfold pick reached?
  dsimp only
  split
  next alternative hfind => rw [hfind, Option.map_some, Option.getD_some]
  next hfind => rw [hfind, Option.map_none, Option.getD_none]

/-- Whatever the arithmetic, one of the alternatives is picked. -/
theorem pick_mem [Mul W] [OfNat W 0] [LT W] [DecidableLT W] (choice : Choice W α) (draw : W) :
    choice.pick draw ∈ choice.alternatives.map Prod.fst := by
  unfold pick
  dsimp only
  split
  next alternative hfind =>
      rw [← map_fst_runningSums 0]
      exact List.mem_map_of_mem (List.mem_of_find?_eq_some hfind)
  next => simp [alternatives]

end

def weightSum (alternatives : List (α × ℚ)) : ℚ :=
  (alternatives.map Prod.snd).sum

@[simp]
theorem weightSum_nil : weightSum ([] : List (α × ℚ)) = 0 := rfl

@[simp]
theorem weightSum_cons (a : α) (weight : ℚ) (alternatives : List (α × ℚ)) :
    weightSum ((a, weight) :: alternatives) = weight + weightSum alternatives := by
  simp [weightSum]

@[simp]
theorem weightSum_append (alternatives others : List (α × ℚ)) :
    weightSum (alternatives ++ others) = weightSum alternatives + weightSum others := by
  simp [weightSum]

theorem weightSum_nonneg {alternatives : List (α × ℚ)}
    (h : ∀ alternative ∈ alternatives, 0 ≤ alternative.2) : 0 ≤ weightSum alternatives :=
  List.sum_nonneg (by simpa using fun weight a hmem => h (a, weight) hmem)

theorem foldl_add_eq (sum : ℚ) (alternatives : List (α × ℚ)) :
    alternatives.foldl (fun sum alternative => sum + alternative.2) sum =
      sum + weightSum alternatives := by
  induction alternatives generalizing sum with
  | nil => simp
  | cons alternative alternatives ih =>
      obtain ⟨a, weight⟩ := alternative
      rw [List.foldl_cons, ih, weightSum_cons, add_assoc]

theorem total_eq_weightSum (choice : Choice ℚ α) :
    choice.total = weightSum choice.alternatives := by
  rw [total, foldl_add_eq, zero_add]

/-- A number falls into the share of an alternative. -/
structure FallsTo (alternatives : List (α × ℚ)) (number : ℚ) (before : List (α × ℚ)) (a : α)
    (weight : ℚ) : Prop where
  leads : before ++ [(a, weight)] <+: alternatives
  reached : weightSum before ≤ number
  below : number < weightSum before + weight

theorem FallsTo.weight_pos {alternatives before : List (α × ℚ)} {number weight : ℚ} {a : α}
    (h : FallsTo alternatives number before a weight) : 0 < weight := by
  linarith [h.reached, h.below]

theorem FallsTo.mem {alternatives before : List (α × ℚ)} {number weight : ℚ} {a : α}
    (h : FallsTo alternatives number before a weight) : (a, weight) ∈ alternatives :=
  h.leads.subset (by simp)

/-- A number below the sum of the weights falls into a share. -/
theorem exists_fallsTo {alternatives : List (α × ℚ)} {number : ℚ} (hnonneg : 0 ≤ number)
    (hbelow : number < weightSum alternatives) :
    ∃ before a weight, FallsTo alternatives number before a weight := by
  induction alternatives generalizing number with
  | nil =>
      rw [weightSum_nil] at hbelow
      exact absurd hbelow (not_lt.mpr hnonneg)
  | cons alternative alternatives ih =>
      obtain ⟨a, weight⟩ := alternative
      rw [weightSum_cons] at hbelow
      by_cases hfirst : number < weight
      · exact ⟨[], a, weight, by simp, by simpa using hnonneg, by simpa using hfirst⟩
      · obtain ⟨before, b, share, hleads, hreached, hshare⟩ :=
          ih (sub_nonneg.mpr (not_lt.mp hfirst)) (by linarith)
        refine ⟨(a, weight) :: before, b, share, ?_, ?_, ?_⟩
        · exact (List.prefix_cons_inj _).mpr hleads
        · rw [weightSum_cons]
          linarith
        · rw [weightSum_cons]
          linarith

/-- The running sums of alternatives before the share stay below the number. -/
theorem find?_runningSums_append {before : List (α × ℚ)} {sum number : ℚ}
    (hbefore : ∀ alternative ∈ before, 0 ≤ alternative.2) (hsum : sum + weightSum before ≤ number)
    (others : List (α × ℚ)) :
    (runningSums sum (before ++ others)).find?
        (fun alternative => decide (number < alternative.2)) =
      (runningSums (sum + weightSum before) others).find?
        fun alternative => decide (number < alternative.2) := by
  induction before generalizing sum with
  | nil => simp
  | cons alternative before ih =>
      obtain ⟨a, weight⟩ := alternative
      obtain ⟨-, hothers⟩ := List.forall_mem_cons.mp hbefore
      rw [weightSum_cons, ← add_assoc] at hsum ⊢
      have hshort : ¬ number < sum + weight := by
        linarith [weightSum_nonneg hothers]
      rw [List.cons_append, runningSums, List.find?_cons_of_neg (by simpa using hshort),
        ih hothers hsum]

theorem FallsTo.reached?_eq {choice : Choice ℚ α} {draw weight : ℚ} {before : List (α × ℚ)}
    {a : α} (hweights : ∀ alternative ∈ choice.alternatives, 0 ≤ alternative.2)
    (h : FallsTo choice.alternatives (draw * choice.total) before a weight) :
    choice.reached? draw = some a := by
  obtain ⟨⟨after, hsplit⟩, hreached, hbelow⟩ := h
  have hbefore : ∀ alternative ∈ before, 0 ≤ alternative.2 := by
    intro alternative hmem
    exact hweights alternative (by simp [← hsplit, hmem])
  rw [reached?, ← hsplit, List.append_assoc,
    find?_runningSums_append hbefore (by rwa [zero_add]) ([(a, weight)] ++ after),
    List.singleton_append, runningSums, zero_add, List.find?_cons_of_pos (by simpa using hbelow),
    Option.map_some]

theorem FallsTo.pick_eq {choice : Choice ℚ α} {draw weight : ℚ} {before : List (α × ℚ)} {a : α}
    (hweights : ∀ alternative ∈ choice.alternatives, 0 ≤ alternative.2)
    (h : FallsTo choice.alternatives (draw * choice.total) before a weight) :
    choice.pick draw = a := by
  rw [pick_eq_getD, h.reached?_eq hweights, Option.getD_some]

/-- A draw falls into the share of what it picks. -/
theorem exists_fallsTo_pick {choice : Choice ℚ α}
    (hweights : ∀ alternative ∈ choice.alternatives, 0 ≤ alternative.2)
    (htotal : 0 < weightSum choice.alternatives) {draw : ℚ} (hnonneg : 0 ≤ draw)
    (hbelow : draw < 1) :
    ∃ before weight,
      FallsTo choice.alternatives (draw * choice.total) before (choice.pick draw) weight := by
  have hnumber : 0 ≤ draw * choice.total := by
    rw [total_eq_weightSum]
    exact mul_nonneg hnonneg htotal.le
  have hless : draw * choice.total < weightSum choice.alternatives := by
    rw [total_eq_weightSum]
    exact mul_lt_of_lt_one_left htotal hbelow
  obtain ⟨before, a, weight, hfalls⟩ := exists_fallsTo hnumber hless
  refine ⟨before, weight, ?_⟩
  rw [hfalls.pick_eq hweights]
  exact hfalls

/-- Every alternative with a weight is picked by a draw. -/
theorem exists_draw_pick_eq {choice : Choice ℚ α}
    (hweights : ∀ alternative ∈ choice.alternatives, 0 ≤ alternative.2) {a : α} {weight : ℚ}
    (hmem : (a, weight) ∈ choice.alternatives) (hpos : 0 < weight) :
    ∃ draw, 0 ≤ draw ∧ draw < 1 ∧ choice.pick draw = a := by
  obtain ⟨before, after, hsplit⟩ := List.append_of_mem hmem
  have hbefore : 0 ≤ weightSum before :=
    weightSum_nonneg fun alternative hbefore => hweights alternative (by simp [hsplit, hbefore])
  have hafter : 0 ≤ weightSum after :=
    weightSum_nonneg fun alternative hafter => hweights alternative (by simp [hsplit, hafter])
  have htotal : choice.total = weightSum before + (weight + weightSum after) := by
    rw [total_eq_weightSum, hsplit, weightSum_append, weightSum_cons]
  have hless : weightSum before < choice.total := by linarith
  have hscaled : weightSum before / choice.total * choice.total = weightSum before :=
    div_mul_cancel₀ _ (by linarith)
  have hfalls : FallsTo choice.alternatives (weightSum before / choice.total * choice.total)
      before a weight := by
    rw [hscaled]
    exact ⟨⟨after, by simp [hsplit]⟩, le_rfl, by linarith⟩
  exact ⟨weightSum before / choice.total, div_nonneg hbefore (by linarith),
    (div_lt_one (by linarith)).mpr hless, hfalls.pick_eq hweights⟩

end Interlinear.Choice
