import Mathlib.Order.Bounds.Basic
import Mathlib.Order.Lattice

/-! Values that spread: an agent that meets another one takes on its value if that is smaller,
and keeps it. -/
namespace Spread
variable {τ α : Type*} [DecidableEq τ]

def meet [Min α] (f : τ → α) (a b : τ) : τ → α := Function.update f b (min (f b) (f a))

/-- The agents whose values have reached each agent, after `b` has met `a`. -/
def reach (r : τ → Set τ) (a b : τ) : τ → Set τ := Function.update r b (r b ∪ r a)

theorem subset_reach (r : τ → Set τ) (a b t : τ) : r t ⊆ reach r a b t := by
  by_cases ht : t = b
  · subst ht
    rw [reach, Function.update_self]
    exact Set.subset_union_left
  · rw [reach, Function.update_of_ne ht]

/-- Every agent has the least of the original values that have reached it. -/
theorem isLeast_meet [LinearOrder α] {f₀ f : τ → α} {r : τ → Set τ}
    (h : ∀ t, IsLeast (f₀ '' r t) (f t)) (a b t : τ) :
    IsLeast (f₀ '' reach r a b t) (meet f a b t) := by
  by_cases ht : t = b
  · subst ht
    rw [reach, meet, Function.update_self, Function.update_self, Set.image_union]
    exact (h t).union (h a)
  · rw [reach, meet, Function.update_of_ne ht, Function.update_of_ne ht]
    exact h t

end Spread
