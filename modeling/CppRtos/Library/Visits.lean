import Mathlib.Data.List.Basic
import Mathlib.Data.List.Count
import Mathlib.Tactic.Common

/-! Loops that visit objects one after the other, where a visit may produce an output. -/
namespace Visits
variable {σ α β : Type*} (step : σ → α → σ) (out : σ → α → Option β)

/-- The outputs of a loop, with the objects that they come from. -/
def outputs : List α → σ → List (α × β)
  | [], _ => []
  | x :: xs, s => ((out s x).map fun b => (x, b)).toList ++ outputs xs (step s x)

/-- A loop that puts its outputs in front of a log. -/
theorem log_foldl {κ : Type*} {view : κ → σ} {log : κ → List β} {f : κ → α → κ}
    (hview : ∀ k x, view (f k x) = step (view k) x)
    (hlog : ∀ k x, log (f k x) = (out (view k) x).toList ++ log k) (xs : List α) (k : κ) :
    log (xs.foldl f k) = ((outputs step out xs (view k)).map Prod.snd).reverse ++ log k := by
  induction xs generalizing k with
  | nil => rfl
  | cons x xs ih =>
    have hone : (((out (view k) x).map fun b => (x, b)).toList.map Prod.snd).reverse =
        (out (view k) x).toList := by cases out (view k) x <;> rfl
    rw [List.foldl_cons, ih, hview, hlog, outputs, List.map_append, List.reverse_append, hone,
      List.append_assoc]

variable [DecidableEq α] {step out} {x : α} {xs : List α} {s : σ}

theorem outputs_of_not_mem (h : x ∉ xs) : (outputs step out xs s).filter (·.1 = x) = [] := by
  induction xs generalizing s with
  | nil => rfl
  | cons y ys ih =>
    rw [List.mem_cons, not_or] at h
    rw [outputs, List.filter_append, ih h.2, List.append_nil]
    cases out s y with
    | none => rfl
    | some b => simp [Ne.symm h.1]

/-- An object that is visited once has its own output, whatever the visits of others do. -/
theorem outputs_of_count (hother : ∀ s y, y ≠ x → out (step s y) x = out s x)
    (h : xs.count x = 1) :
    (outputs step out xs s).filter (·.1 = x) = ((out s x).map fun b => (x, b)).toList := by
  induction xs generalizing s with
  | nil => cases h
  | cons y ys ih =>
    rw [outputs, List.filter_append]
    by_cases hxy : y = x
    · subst hxy
      rw [List.count_cons_self] at h
      rw [outputs_of_not_mem (List.count_eq_zero.mp (Nat.succ.inj h)), List.append_nil]
      cases out s y with
      | none => rfl
      | some b => simp
    · rw [List.count_cons_of_ne hxy] at h
      rw [ih h, hother s y hxy]
      cases out s y with
      | none => rfl
      | some b => simp [hxy]

end Visits
