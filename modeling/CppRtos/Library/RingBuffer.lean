import Mathlib.Data.List.Basic
import Mathlib.Data.List.Range
import Mathlib.Data.Nat.ModEq
import Mathlib.Logic.Function.Basic
import Mathlib.Tactic.Common

/-! The list held by a circular buffer: `size` consecutive cells from `head`,
with indices modulo the capacity. -/
namespace RingBuffer
variable {α : Type*}

def window (f : ℕ → α) (n head size : ℕ) : List α :=
  (List.range size).map fun k => f ((head + k) % n)

@[simp] theorem window_length (f : ℕ → α) (n head size : ℕ) :
    (window f n head size).length = size := by
  simp [window]

@[simp] theorem window_zero (f : ℕ → α) (n head : ℕ) : window f n head 0 = [] := rfl

theorem window_getElem? (f : ℕ → α) (n head size k : ℕ) (hk : k < size) :
    (window f n head size)[k]? = some (f ((head + k) % n)) := by
  simp [window, hk]

theorem mem_window {f : ℕ → α} {n head size : ℕ} {x : α} :
    x ∈ window f n head size ↔ ∃ k < size, f ((head + k) % n) = x := by
  simp [window]

theorem window_congr {f g : ℕ → α} {n head size : ℕ}
    (h : ∀ k < size, f ((head + k) % n) = g ((head + k) % n)) :
    window f n head size = window g n head size := by
  apply List.map_congr_left
  intro k hk
  exact h k (by simpa using hk)

theorem cell_ne {n head j k : ℕ} (hj : j < k) (hk : k < n) : (head + j) % n ≠ (head + k) % n := by
  intro h
  have hmod : j % n = k % n := Nat.ModEq.add_left_cancel' head h
  rw [Nat.mod_eq_of_lt hk, Nat.mod_eq_of_lt (hj.trans hk)] at hmod
  omega

/-- Writing the cell behind the window appends. -/
theorem window_push (f : ℕ → α) {n head size : ℕ} (hs : size < n) (x : α) :
    window (Function.update f ((head + size) % n) x) n head (size + 1) =
      window f n head size ++ [x] := by
  have hkeep : window (Function.update f ((head + size) % n) x) n head size =
      window f n head size :=
    window_congr fun k hk => Function.update_of_ne (cell_ne hk hs) _ _
  rw [← hkeep]
  simp [window, List.range_succ]

/-- Advancing the head drops the first element. -/
theorem window_pop (f : ℕ → α) {n head size : ℕ} (hh : head < n) (hs : 0 < size) :
    window f n head size = f head :: window f n ((head + 1) % n) (size - 1) := by
  obtain ⟨size, rfl⟩ : ∃ m, size = m + 1 := ⟨size - 1, by omega⟩
  simp only [window, List.range_succ_eq_map, List.map_cons, List.map_map, Nat.add_zero,
    Nat.mod_eq_of_lt hh, Nat.add_sub_cancel, List.cons.injEq, true_and]
  apply List.map_congr_left
  intro k _
  simp only [Function.comp_apply, Nat.mod_add_mod]
  congr 2
  omega

theorem window_from_zero (f : ℕ → α) {n size : ℕ} (hs : size ≤ n) :
    window f n 0 size = (List.range size).map f := by
  apply List.map_congr_left
  intro k hk
  have : k < n := by simp at hk; omega
  simp [Nat.mod_eq_of_lt this]

/-- Moving every later cell one place down removes the cell at `pos`. -/
theorem range_map_eraseIdx (f g : ℕ → α) {size pos : ℕ} (hp : pos < size)
    (hlow : ∀ k < pos, g k = f k) (hshift : ∀ k, pos ≤ k → k + 1 < size → g k = f (k + 1)) :
    (List.range (size - 1)).map g = ((List.range size).map f).eraseIdx pos := by
  apply List.ext_getElem?
  intro k
  rw [List.getElem?_eraseIdx]
  by_cases hk : k < size - 1
  · split_ifs with hkp
    · simp [hk, show k < size by omega, hlow k hkp]
    · simp [hk, show k + 1 < size by omega, hshift k (by omega) (by omega)]
  · split_ifs with hkp
    · omega
    · simp [show size - 1 ≤ k by omega, show size ≤ k + 1 by omega]

end RingBuffer
