import CppRtos.Library.Words
import Mathlib.Logic.Function.Basic

/-! A table of words with a summary word, one bit for each word that is not zero. -/
structure Summary (n : ℕ) where
  words : ℕ → BitVec n
  summary : BitVec n

namespace Summary
variable {n : ℕ} {s : Summary n} {p q i : ℕ}

/-- The summary is right about word `p`. -/
def Exact (s : Summary n) (p : ℕ) : Prop := s.summary.getLsbD p = true ↔ s.words p ≠ 0

instance (s : Summary n) (p : ℕ) : Decidable (s.Exact p) :=
  inferInstanceAs (Decidable (_ ↔ _))

/-- Set a bit of the table; the summary stays as it is. -/
def enter (s : Summary n) (p i : ℕ) : Summary n :=
  { s with words := Function.update s.words p (Words.setBit (s.words p) i) }

/-- Set a bit of the table and the bit of its word in the summary. -/
def mark (s : Summary n) (p i : ℕ) : Summary n :=
  { s.enter p i with summary := Words.setBit s.summary p }

/-- Clear a bit of the table and, with the last bit of the word, its bit in the summary. -/
def clear (s : Summary n) (p i : ℕ) : Summary n :=
  let word := Words.clearBit (s.words p) i
  { words := Function.update s.words p word
    summary := if word = 0 then Words.clearBit s.summary p else s.summary }

theorem setBit_ne_zero (w : BitVec n) (hi : i < n) : Words.setBit w i ≠ 0 := by
  intro hzero
  have hbit := Words.getLsbD_setBit w i i
  simp [hzero, hi] at hbit

theorem ne_zero_of_clearBit {w : BitVec n} (h : Words.clearBit w i ≠ 0) : w ≠ 0 := by
  rintro rfl
  exact h (by simp [Words.clearBit])

/-- Entering a bit keeps the summary exact unless it is the first of its word. -/
theorem Exact.enter_iff (h : s.Exact q) (hi : i < n) :
    (s.enter p i).Exact q ↔ (q = p → s.words q ≠ 0) := by
  unfold Exact enter at *
  dsimp only
  by_cases hq : q = p
  · subst hq
    rw [Function.update_self, h]
    have hset := setBit_ne_zero (s.words q) hi
    constructor
    · intro hword _
      exact hword.mpr hset
    · intro hword
      exact iff_of_true (hword rfl) hset
  · rw [Function.update_of_ne hq]
    exact iff_of_true h fun he => absurd he hq

theorem Exact.mark (h : s.Exact q) (hp : p < n) (hi : i < n) : (s.mark p i).Exact q := by
  unfold Exact Summary.mark enter at *
  dsimp only
  rw [Words.getLsbD_setBit]
  by_cases hq : q = p
  · subst hq
    rw [Function.update_self]
    exact iff_of_true (by simp [hp]) (setBit_ne_zero (s.words q) hi)
  · rw [Function.update_of_ne hq]
    simpa [hq] using h

theorem Exact.clear (h : s.Exact q) (p i : ℕ) : (s.clear p i).Exact q := by
  unfold Exact Summary.clear at *
  dsimp only
  by_cases hq : q = p
  · subst hq
    rw [Function.update_self]
    by_cases hzero : Words.clearBit (s.words q) i = 0
    · rw [if_pos hzero, Words.getLsbD_clearBit]
      simp [hzero]
    · rw [if_neg hzero]
      exact iff_of_true (h.mpr (ne_zero_of_clearBit hzero)) hzero
  · rw [Function.update_of_ne hq]
    split_ifs
    · rw [Words.getLsbD_clearBit]
      simpa [hq] using h
    · exact h

end Summary
