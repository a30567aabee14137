import Mathlib.Data.List.Range
import Mathlib.Logic.Function.Basic
import Mathlib.Tactic.Common

/-! Sequences of writes to a memory, and blocks of consecutive addresses. -/
namespace Writes
variable {β : Type*} {m : ℕ → β} {ws : List (ℕ × β)} {a base i : ℕ}

def run (m : ℕ → β) (ws : List (ℕ × β)) : ℕ → β :=
  ws.foldl (fun m w => Function.update m w.1 w.2) m

def block : ℕ → List β → List (ℕ × β)
  | _, [] => []
  | base, x :: xs => (base, x) :: block (base + 1) xs

@[simp] theorem run_nil (m : ℕ → β) : run m [] = m := rfl

@[simp] theorem run_cons (m : ℕ → β) (w : ℕ × β) (ws : List (ℕ × β)) :
    run m (w :: ws) = run (Function.update m w.1 w.2) ws := rfl

theorem run_append (m : ℕ → β) (ws ws' : List (ℕ × β)) :
    run m (ws ++ ws') = run (run m ws) ws' := List.foldl_append

theorem addresses_block (base : ℕ) (xs : List β) :
    (block base xs).map Prod.fst = List.range' base xs.length := by
  induction xs generalizing base with
  | nil => rfl
  | cons x xs ih =>
    rw [block, List.map_cons, ih, List.length_cons, List.range'_succ]

theorem run_of_not_mem (h : a ∉ ws.map Prod.fst) : run m ws a = m a := by
  induction ws generalizing m with
  | nil => rfl
  | cons w ws ih =>
    rw [List.map_cons, List.mem_cons, not_or] at h
    rw [run_cons, ih h.2, Function.update_of_ne h.1]

/-- A block of writes stores its values one after the other and nothing behind them. -/
theorem run_block (m : ℕ → β) (base : ℕ) (xs : List β) (i : ℕ) :
    run m (block base xs) (base + i) = xs[i]?.getD (m (base + i)) := by
  induction xs generalizing m base i with
  | nil => rfl
  | cons x xs ih =>
    rw [block, run_cons]
    cases i with
    | zero =>
      have hfirst : base ∉ (block (base + 1) xs).map Prod.fst := by
        rw [addresses_block, List.mem_range'_1]
        omega
      show run (Function.update m base x) (block (base + 1) xs) base = x
      rw [run_of_not_mem hfirst, Function.update_self]
    | succ i =>
      have hnext : base + (i + 1) = base + 1 + i := by omega
      have hne : base + 1 + i ≠ base := by omega
      rw [hnext, ih, List.getElem?_cons_succ, Function.update_of_ne hne]

end Writes
