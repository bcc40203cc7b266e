import TriadMesh.Binary64.Basic

/-!
# The vote of three readings

Three nodes measure the same metric on their own. The round passes if the population variance of the
three readings does not exceed a threshold, and its value is their mean. The formulas are stated over
any arithmetic, so that rounded and exact votes are the same definition.
-/

namespace TriadMesh

structure Triad (α : Type) where
  alpha : α
  beta : α
  gamma : α
deriving DecidableEq

structure Report (α : Type) where
  readings : Triad α
  mean : α
  variance : α
  threshold : α
  passed : Bool

namespace Triad

variable {α : Type} [Add α] [Sub α] [Mul α] [Div α] [OfNat α 3]

def mean (t : Triad α) : α := (t.alpha + t.beta + t.gamma) / 3

def deviation (mean r : α) : α := (r - mean) * (r - mean)

/-- The population variance, with divisor three. -/
def variance (t : Triad α) : α :=
  (deviation t.mean t.alpha + deviation t.mean t.beta + deviation t.mean t.gamma) / 3

/-- Passes if the variance is at most the threshold; a variance that is not comparable never passes. -/
def evaluate [LE α] [DecidableLE α] (t : Triad α) (threshold : α) : Report α :=
  ⟨t, t.mean, t.variance, threshold, decide (t.variance ≤ threshold)⟩

end Triad

/-- The value agreed on with `true`, or zero with `false`. -/
def Report.verdict {α : Type} [OfNat α 0] (r : Report α) : α × Bool :=
  if r.passed then (r.mean, true) else (0, false)

end TriadMesh
