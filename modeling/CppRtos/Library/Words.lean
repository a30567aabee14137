import Mathlib.Data.Nat.Basic
import Mathlib.Tactic.Common

/-! Single bits of machine words, and the scan that shifts a word to the right
until its lowest set bit appears. -/
namespace Words
variable {n : ℕ}

def setBit (w : BitVec n) (i : ℕ) : BitVec n := w ||| (1#n <<< i)

def clearBit (w : BitVec n) (i : ℕ) : BitVec n := w &&& ~~~(1#n <<< i)

theorem getLsbD_one_shiftLeft (i j : ℕ) :
    (1#n <<< i).getLsbD j = decide (j < n ∧ j = i) := by
  rw [BitVec.getLsbD_shiftLeft, BitVec.getLsbD_one, Bool.eq_iff_iff]
  simp only [Bool.and_eq_true, Bool.not_eq_true', decide_eq_true_eq, decide_eq_false_iff_not]
  omega

@[simp] theorem getLsbD_setBit (w : BitVec n) (i j : ℕ) :
    (setBit w i).getLsbD j = (w.getLsbD j || decide (j < n ∧ j = i)) := by
  rw [setBit, BitVec.getLsbD_or, getLsbD_one_shiftLeft]

@[simp] theorem getLsbD_clearBit (w : BitVec n) (i j : ℕ) :
    (clearBit w i).getLsbD j = (w.getLsbD j && decide (j ≠ i)) := by
  rw [clearBit, BitVec.getLsbD_and, BitVec.getLsbD_not, getLsbD_one_shiftLeft]
  by_cases hj : j < n
  · simp [hj]
  · simp [BitVec.getLsbD_of_ge w j (by omega)]

/-- Position of the lowest set bit, counted from `count`; at most the given number
of shifts. -/
def scan : ℕ → BitVec n → ℕ → Option ℕ
  | 0, _, _ => none
  | shifts + 1, w, count =>
    if w = 0 then none
    else if w.getLsbD 0 then some count
    else scan shifts (w >>> 1) (count + 1)

theorem getLsbD_succ (w : BitVec n) (i : ℕ) : w.getLsbD (i + 1) = (w >>> 1).getLsbD i := by
  rw [BitVec.getLsbD_ushiftRight, Nat.add_comm]

theorem scan_eq_none_iff (m : ℕ) (w : BitVec n) (count : ℕ) :
    scan m w count = none ↔ ∀ i < m, w.getLsbD i = false := by
  induction m generalizing w count with
  | zero => simp [scan]
  | succ m ih =>
    rw [scan]
    split_ifs with hz h0
    · simp [hz]
    · simp only [false_iff, not_forall]
      exact ⟨0, by omega, by simpa using h0⟩
    · rw [ih]
      constructor
      · intro h i hi
        cases i with
        | zero => simpa using h0
        | succ i => rw [getLsbD_succ]; exact h i (by omega)
      · intro h i hi
        rw [← getLsbD_succ]
        exact h (i + 1) (by omega)

/-- A found position is that of the lowest set bit. -/
theorem scan_eq_some {m : ℕ} {w : BitVec n} {count r : ℕ} (h : scan m w count = some r) :
    ∃ i < m, r = count + i ∧ w.getLsbD i = true ∧ ∀ j < i, w.getLsbD j = false := by
  induction m generalizing w count with
  | zero => simp [scan] at h
  | succ m ih =>
    rw [scan] at h
    split_ifs at h with hz h0
    · cases h
      exact ⟨0, by omega, rfl, h0, fun j hj => by omega⟩
    · obtain ⟨i, him, hr, hi, hlow⟩ := ih h
      refine ⟨i + 1, by omega, by omega, by rw [getLsbD_succ]; exact hi, fun j hj => ?_⟩
      cases j with
      | zero => simpa using h0
      | succ j => rw [getLsbD_succ]; exact hlow j (by omega)

end Words
