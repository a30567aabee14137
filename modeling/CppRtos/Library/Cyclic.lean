import Mathlib.Data.Nat.ModEq
import Mathlib.Logic.Function.Iterate
import Mathlib.Tactic.Common

/-! Counting in a circle: the values below `m`, and the distance from one to another. -/
namespace Cyclic

def succ (m v : ℕ) : ℕ := (v + 1) % m

/-- The steps from `start` to `now`. -/
def elapsed (m start now : ℕ) : ℕ := if start ≤ now then now - start else m - start + now

variable {m v s n : ℕ}

theorem succ_lt (hm : 0 < m) : succ m v < m := Nat.mod_lt _ hm

theorem succ_eq (hv : v < m) : succ m v = if m ≤ v + 1 then 0 else v + 1 := by
  unfold succ
  split_ifs with hm
  · have : v + 1 = m := by omega
    rw [this, Nat.mod_self]
  · exact Nat.mod_eq_of_lt (by omega)

theorem succ_iterate (hv : v < m) (n : ℕ) : (succ m)^[n] v = (v + n) % m := by
  induction n with
  | zero => exact (Nat.mod_eq_of_lt hv).symm
  | succ n ih =>
    rw [Function.iterate_succ_apply', ih]
    unfold succ
    rw [Nat.mod_add_mod, Nat.add_assoc]

/-- The distance counts the steps as long as they do not go round. -/
theorem elapsed_add (hs : s < m) (hn : n < m) : elapsed m s ((s + n) % m) = n := by
  unfold elapsed
  by_cases hw : s + n < m
  · rw [Nat.mod_eq_of_lt hw, if_pos (by omega)]
    omega
  · have hmod : (s + n) % m = s + n - m := by
      rw [Nat.mod_eq_sub_mod (by omega), Nat.mod_eq_of_lt (by omega)]
    rw [hmod, if_neg (by omega)]
    omega

theorem elapsed_self : elapsed m s s = 0 := by
  unfold elapsed
  rw [if_pos le_rfl, Nat.sub_self]

theorem elapsed_succ (hs : s < m) (hv : v < m) (h : elapsed m s v + 1 < m) :
    elapsed m s (succ m v) = elapsed m s v + 1 := by
  rw [succ_eq hv]
  unfold elapsed at h ⊢
  split_ifs at h ⊢ <;> omega

end Cyclic
