import CppRtos.Fifo
import CppRtos.Library.Refinement

/-! The circular buffer refines a bounded list: for every sequence of calls it returns the
same values, and its window holds the same elements. -/
namespace CppRtos.Fifo
variable {α : Type*} {n : ℕ}

inductive Call (α : Type*) where
  | enqueue (item : α)
  | dequeue
deriving DecidableEq, Repr

/-- The buffer as an object; `enqueue` returns no value. -/
def object (α : Type*) [Inhabited α] (n : ℕ) : DataObject (Call α) (Option α) (Fifo α n) where
  start := Fifo.new
  op
    | .enqueue item, q => (none, q.enqueue item)
    | .dequeue, q => (some q.dequeue.1, q.dequeue.2)

/-- What the buffer is for: a list of at most `n` elements, oldest first. -/
def boundedQueue (α : Type*) [Inhabited α] (n : ℕ) : DataObject (Call α) (Option α) (List α) where
  start := []
  op
    | .enqueue item, l => (none, if l.length < n then l ++ [item] else l)
    | .dequeue, [] => (some default, [])
    | .dequeue, x :: l => (some x, l)

/-- A well-formed buffer that holds the list. -/
structure Holds (q : Fifo α n) (l : List α) : Prop extends WellFormed q where
  toList_eq : q.toList = l

namespace Holds
variable {q : Fifo α n} {l : List α} (h : q.Holds l)
include h

theorem size_eq : q.size = l.length := by
  rw [← h.toList_eq, length_toList]

theorem enqueue (x : α) : (q.enqueue x).Holds (if l.length < n then l ++ [x] else l) := by
  refine ⟨h.toWellFormed.enqueue x, ?_⟩
  have hsize := h.size_eq
  by_cases hs : q.size < n
  · rw [toList_enqueue h.toWellFormed x hs, h.toList_eq, if_pos (by omega)]
  · rw [enqueue_of_full q x hs, h.toList_eq, if_neg (by omega)]

theorem dequeue_nil [Inhabited α] (hl : l = []) : q.dequeue = (default, q) := by
  apply dequeue_of_empty
  rw [h.size_eq, hl]
  simp

theorem dequeue_cons [Inhabited α] {x : α} {xs : List α} (hl : l = x :: xs) :
    q.dequeue.1 = x ∧ q.dequeue.2.Holds xs := by
  obtain ⟨hx, hxs⟩ := toList_dequeue_cons h.toWellFormed (h.toList_eq.trans hl)
  exact ⟨hx, h.toWellFormed.dequeue, hxs⟩

theorem tail_lt (hn : 0 < n) : q.tail < n := by
  rw [h.tail_eq]
  exact Nat.mod_lt _ hn

theorem isEmpty : q.isEmpty = true ↔ l = [] := by
  rw [isEmpty_iff, h.toList_eq]

theorem isFull : q.isFull = true ↔ l.length = n := by
  rw [isFull_iff, h.toList_eq]

end Holds

theorem simulates_boundedQueue [Inhabited α] (hn : 0 < n) :
    (object α n).Simulates (boundedQueue α n) Holds where
  start := ⟨.new hn, toList_new⟩
  value c q l h := by
    cases c with
    | enqueue x => rfl
    | dequeue =>
      cases l with
      | nil => exact congrArg (fun r => some r.1) (h.dequeue_nil rfl)
      | cons x xs => exact congrArg some (h.dequeue_cons rfl).1
  next c q l h := by
    cases c with
    | enqueue x => exact h.enqueue x
    | dequeue =>
      cases l with
      | nil =>
        have hq : q.dequeue.2 = q := congrArg Prod.snd (h.dequeue_nil rfl)
        change q.dequeue.2.Holds []
        rwa [hq]
      | cons x xs => exact (h.dequeue_cons rfl).2

/-- Every sequence of calls on a new buffer returns what the bounded list returns, and the
buffer keeps its representation of that list. -/
theorem refines_boundedQueue [Inhabited α] (hn : 0 < n) (cs : List (Call α)) :
    let q := ((object α n).run cs).2
    let l := ((boundedQueue α n).run cs).2
    ((object α n).run cs).1 = ((boundedQueue α n).run cs).1 ∧
      (q.head < n ∧ q.tail < n ∧ q.size ≤ n ∧ q.tail = (q.head + q.size) % n) ∧
      q.toList = l ∧ (∀ x, ¬ q.size < n → q.enqueue x = q) ∧
      (q.size = 0 → q.dequeue = (default, q)) ∧
      (q.isEmpty = true ↔ l = []) ∧ (q.isFull = true ↔ l.length = n) ∧ q.getSize = l.length := by
  intro q l
  obtain ⟨hvalues, hlast⟩ := (simulates_boundedQueue hn).run cs
  have h : q.Holds l := hlast
  refine ⟨hvalues, ⟨h.head_lt, h.tail_lt hn, h.size_le, h.tail_eq⟩, h.toList_eq,
    enqueue_of_full q, fun hs => dequeue_of_empty (by omega), h.isEmpty, h.isFull, h.size_eq⟩

theorem refines_boundedQueue_wrap :
    let q := ((object ℕ 2).run [.enqueue 1, .enqueue 2, .dequeue, .enqueue 3]).2
    (0 < 2) ∧ q.head = q.tail ∧ q.toList = [2, 3] := by
  have h := refines_boundedQueue (α := ℕ) (n := 2) (by decide)
    [.enqueue 1, .enqueue 2, .dequeue, .enqueue 3]
  exact ⟨by decide, by decide, h.2.2.1⟩

end CppRtos.Fifo
