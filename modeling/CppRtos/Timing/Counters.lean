import CppRtos.Library.Cyclic
import CppRtos.Library.Machine
import CppRtos.Timing

/-! Counters count in a circle, except that `SetCounterValue` also accepts the maximum, which
no increment reaches. -/
namespace CppRtos.Counter

variable {c : Counter} {m s n : ℕ}

/-- The value is one of those that increments reach; values have 32 bits. -/
structure Regular (c : Counter) : Prop where
  lt : c.currentTick < c.maxAllowedValue
  word : c.maxAllowedValue < 2 ^ 32

theorem Regular.increment_eq (h : c.Regular) :
    c.increment = { c with currentTick := Cyclic.succ c.maxAllowedValue c.currentTick } := by
  have hlt := h.lt
  have hword := h.word
  have htick : (c.currentTick + 1) % 2 ^ 32 = c.currentTick + 1 := Nat.mod_eq_of_lt (by omega)
  unfold increment
  rw [htick, Cyclic.succ_eq hlt]

theorem Regular.increment (h : c.Regular) : c.increment.Regular := by
  have hlt := h.lt
  rw [h.increment_eq]
  exact ⟨Cyclic.succ_lt (by omega), h.word⟩

theorem Regular.getElapsedValue (h : c.Regular) (hs : s ≤ c.maxAllowedValue) :
    c.getElapsedValue s = Cyclic.elapsed c.maxAllowedValue s c.currentTick := by
  have hlt := h.lt
  have hword := h.word
  unfold Counter.getElapsedValue Cyclic.elapsed
  by_cases hle : s ≤ c.currentTick
  · rw [if_pos hle, if_pos hle]
  · rw [if_neg hle, if_neg hle]
    omega

theorem Regular.increment_iterate (h : c.Regular) (n : ℕ) :
    Counter.increment^[n] c =
      { c with currentTick := (Cyclic.succ c.maxAllowedValue)^[n] c.currentTick } ∧
      (Counter.increment^[n] c).Regular := by
  induction n with
  | zero => exact ⟨rfl, h⟩
  | succ n ih =>
    obtain ⟨he, hr⟩ := ih
    rw [Function.iterate_succ_apply', Function.iterate_succ_apply']
    refine ⟨?_, hr.increment⟩
    rw [hr.increment_eq, he]

/-- From a regular value on, elapsed time is right for less than a full circle. -/
theorem Regular.elapsed (h : c.Regular) (hn : n < c.maxAllowedValue) :
    (Counter.increment^[n] c).getElapsedValue c.currentTick = n := by
  obtain ⟨he, hr⟩ := h.increment_iterate n
  have hlt := h.lt
  have hmax : (Counter.increment^[n] c).maxAllowedValue = c.maxAllowedValue := by rw [he]
  rw [hr.getElapsedValue (by omega), hmax]
  rw [he, Cyclic.succ_iterate hlt]
  exact Cyclic.elapsed_add hlt hn

theorem increment_of_max (hm : 0 < c.maxAllowedValue) (hword : c.maxAllowedValue < 2 ^ 32)
    (hc : c.currentTick = c.maxAllowedValue) : c.increment = { c with currentTick := 0 } := by
  unfold increment
  rw [hc]
  dsimp only
  by_cases hw : c.maxAllowedValue + 1 < 2 ^ 32
  · rw [Nat.mod_eq_of_lt hw, if_pos (by omega)]
  · have hmax : (c.maxAllowedValue + 1) % 2 ^ 32 = 0 := by omega
    rw [hmax, if_neg (by omega)]

/-! ## Runs -/

inductive Operation where
  | increment
  | setCounterValue (value : ℕ)
deriving DecidableEq, Repr

def counting : Machine Counter Operation where
  guard _ _ := True
  apply
    | .increment, c => c.increment
    | .setCounterValue value, c => c.setCounterValue value

def after (maxValue : ℕ) (es : List Operation) : Counter :=
  counting.exec { maxAllowedValue := maxValue } es

theorem after_le (m : ℕ) (es : List Operation) :
    (after m es).maxAllowedValue = m ∧ (after m es).currentTick ≤ m := by
  have hvalid : ∀ c, counting.Valid c es := by
    induction es with
    | nil => exact fun _ => trivial
    | cons e es ih => exact fun c => ⟨trivial, ih _⟩
  refine Machine.invariant (M := counting) (I := fun c => c.maxAllowedValue = m ∧
    c.currentTick ≤ m) ?_ ⟨rfl, Nat.zero_le _⟩ (hvalid _)
  intro e c hc _
  cases e with
  | increment =>
    have hlt : ¬ m ≤ (c.currentTick + 1) % 2 ^ 32 → (c.currentTick + 1) % 2 ^ 32 ≤ m := by omega
    show (c.increment).maxAllowedValue = m ∧ c.increment.currentTick ≤ m
    unfold Counter.increment
    rw [hc.1]
    constructor
    · rfl
    · dsimp only
      split_ifs with hm
      · exact Nat.zero_le _
      · exact hlt hm
  | setCounterValue v =>
    show (c.setCounterValue v).maxAllowedValue = m ∧ (c.setCounterValue v).currentTick ≤ m
    unfold Counter.setCounterValue
    split_ifs with hv
    · exact ⟨hc.1, hc.1 ▸ hv⟩
    · exact hc

/-- Elapsed time is right exactly if it is not measured from the maximum. -/
theorem getElapsedValue_iff {m : ℕ} (hm : 1 ≤ m) (hword : m < 2 ^ 32) (es : List Operation)
    {n : ℕ} (hn : n < m) :
    (increment^[n] (after m es)).getElapsedValue (after m es).currentTick = n ↔
      (after m es).currentTick ≠ m ∨ n = 0 := by
  obtain ⟨hmax, hle⟩ := after_le m es
  generalize after m es = c at hmax hle
  by_cases hc : c.currentTick = m
  · have hzero : c.getElapsedValue c.currentTick = 0 := by
      unfold getElapsedValue
      rw [if_pos le_rfl, Nat.sub_self]
    cases n with
    | zero => exact iff_of_true hzero (.inr rfl)
    | succ n =>
      have hfirst := increment_of_max (c := c) (by omega) (by omega) (by omega)
      have hreg : c.increment.Regular := by
        rw [hfirst]
        exact ⟨by dsimp only; omega, by dsimp only; omega⟩
      obtain ⟨he, hr⟩ := hreg.increment_iterate n
      have hlast : (increment^[n] c.increment).maxAllowedValue = m := by
        rw [he, hfirst]
        exact hmax
      have hvalue : (increment^[n] c.increment).currentTick = n := by
        rw [he, hfirst]
        dsimp only
        rw [Cyclic.succ_iterate (by omega), Nat.zero_add, Nat.mod_eq_of_lt (by omega)]
      refine iff_of_false ?_ (by omega)
      rw [Function.iterate_succ_apply, hr.getElapsedValue (by omega), hlast, hvalue, hc]
      unfold Cyclic.elapsed
      rw [if_neg (by omega)]
      omega
  · have hreg : c.Regular := ⟨by omega, by omega⟩
    have he := hreg.elapsed (n := n) (by omega)
    exact iff_of_true he (.inl hc)

/-- A counter of 10 values, measured from one below the maximum across the wrap. -/
theorem getElapsedValue_wrap :
    (increment^[3] (after 10 [.setCounterValue 9])).getElapsedValue
      (after 10 [.setCounterValue 9]).currentTick = 3 :=
  (getElapsedValue_iff (by decide) (by decide) [.setCounterValue 9] (by decide)).mpr
    (.inl (by decide))

/-- From the maximum itself, three increments are seen as two. -/
theorem getElapsedValue_of_max :
    ¬ (increment^[3] (after 10 [.setCounterValue 10])).getElapsedValue
      (after 10 [.setCounterValue 10]).currentTick = 3 := by decide

end CppRtos.Counter
