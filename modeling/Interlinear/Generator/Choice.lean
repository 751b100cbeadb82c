/-!
# Weighted choice

A choice has one or more alternatives with weights.  A draw, multiplied by the sum of the weights,
falls below the running sums from some alternative on, and the first of these is picked.  If it
falls below none, which cannot happen for draws below one and weights that are not negative, the
first alternative of all is picked.

The arithmetic is a parameter, so that one definition serves for machine numbers and exact ones.
-/

namespace Interlinear

structure Choice (W α : Type) where
  first : α × W
  others : List (α × W)

namespace Choice

variable {W α : Type} [Add W] [Mul W] [OfNat W 0] [LT W] [DecidableLT W]

/-- There is nothing to choose from. -/
structure Empty where

def Empty.message (_ : Empty) : String :=
  "WeightedRandomVariable needs at least one possibility"

def ofList : List (α × W) → Except Empty (Choice W α)
  | [] => .error {}
  | first :: others => .ok ⟨first, others⟩

def alternatives (choice : Choice W α) : List (α × W) :=
  choice.first :: choice.others

/-- The alternatives with the sums of the weights up to each, from a sum before them on. -/
def runningSums (sum : W) : List (α × W) → List (α × W)
  | [] => []
  | (a, weight) :: rest => (a, sum + weight) :: runningSums (sum + weight) rest

def total (choice : Choice W α) : W :=
  choice.alternatives.foldl (fun sum alternative => sum + alternative.2) 0

def pick (choice : Choice W α) (draw : W) : α :=
  let threshold := draw * choice.total
  match (runningSums 0 choice.alternatives).find? fun alternative =>
      decide (threshold < alternative.2) with
  | some alternative => alternative.1
  | none => choice.first.1

end Choice

end Interlinear
