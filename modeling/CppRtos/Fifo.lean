import CppRtos.Library.RingBuffer
import Mathlib.Data.Finset.Card
import Mathlib.Data.List.InsertIdx
import Mathlib.Data.List.Perm.Basic
import Mathlib.Data.List.ReduceOption

/-! The fixed-size circular buffer under every wait queue and message queue, and the
list it holds. `getAt` and `removeAt` take raw buffer indices. -/
namespace CppRtos

structure Fifo (α : Type*) (maxItems : ℕ) where
  buffer : ℕ → α
  head : ℕ
  tail : ℕ
  size : ℕ

namespace Fifo
variable {α : Type*} {n : ℕ}

/-- The constructor; `default` stands for `T()`. -/
def new [Inhabited α] : Fifo α n := ⟨fun _ => default, 0, 0, 0⟩

def enqueue (q : Fifo α n) (item : α) : Fifo α n :=
  if q.size < n then
    { q with
      buffer := Function.update q.buffer q.tail item
      tail := (q.tail + 1) % n
      size := q.size + 1 }
  else q

def dequeue [Inhabited α] (q : Fifo α n) : α × Fifo α n :=
  if q.size > 0 then
    (q.buffer q.head, { q with head := (q.head + 1) % n, size := q.size - 1 })
  else (default, q)

def getAt [Inhabited α] (q : Fifo α n) (index : ℕ) : α :=
  if index < n then q.buffer index else default

/-- The loop of `removeAt`: each cell takes the value of the next one until the last
used cell is reached. A round over all cells is long enough. -/
def shiftDown (last : ℕ) : ℕ → ℕ → (ℕ → α) → ℕ → α
  | 0, _, buffer => buffer
  | rounds + 1, i, buffer =>
    if i = last then buffer
    else shiftDown last rounds ((i + 1) % n) (Function.update buffer i (buffer ((i + 1) % n)))

/-- `size` is unsigned and wraps when an element is removed from an empty buffer. -/
def removeAt (q : Fifo α n) (pos : ℕ) : Fifo α n :=
  let last := (q.tail + (n - 1)) % n
  { q with
    buffer := shiftDown (n := n) last n pos q.buffer
    tail := last
    size := if q.size = 0 then 2 ^ 32 - 1 else q.size - 1 }

def isEmpty (q : Fifo α n) : Bool := q.size == 0

def isFull (q : Fifo α n) : Bool := q.size == n

def getSize (q : Fifo α n) : ℕ := q.size

/-- The queued elements, oldest first. -/
def toList (q : Fifo α n) : List α := RingBuffer.window q.buffer n q.head q.size

/-- The representation invariant of the circular buffer. -/
structure WellFormed (q : Fifo α n) : Prop where
  head_lt : q.head < n
  size_le : q.size ≤ n
  tail_eq : q.tail = (q.head + q.size) % n

theorem WellFormed.new [Inhabited α] (hn : 0 < n) : (new : Fifo α n).WellFormed :=
  ⟨hn, Nat.zero_le n, by simp [Fifo.new]⟩

@[simp] theorem toList_new [Inhabited α] : (new : Fifo α n).toList = [] := rfl

@[simp] theorem length_toList (q : Fifo α n) : q.toList.length = q.size := by
  simp [toList]

@[simp] theorem isEmpty_iff (q : Fifo α n) : q.isEmpty = true ↔ q.toList = [] := by
  rw [← List.length_eq_zero_iff, length_toList]
  simp [isEmpty]

theorem isFull_iff (q : Fifo α n) : q.isFull = true ↔ q.toList.length = n := by
  simp [isFull]

theorem WellFormed.enqueue {q : Fifo α n} (h : q.WellFormed) (x : α) :
    (q.enqueue x).WellFormed := by
  obtain ⟨hh, hs, ht⟩ := h
  rw [Fifo.enqueue]
  split_ifs with hlt
  · refine ⟨hh, hlt, ?_⟩
    change (q.tail + 1) % n = (q.head + (q.size + 1)) % n
    rw [ht, Nat.mod_add_mod, Nat.add_assoc]
  · exact ⟨hh, hs, ht⟩

theorem toList_enqueue {q : Fifo α n} (h : q.WellFormed) (x : α) (hs : q.size < n) :
    (q.enqueue x).toList = q.toList ++ [x] := by
  rw [Fifo.enqueue, if_pos hs]
  change RingBuffer.window (Function.update q.buffer q.tail x) n q.head (q.size + 1) = _
  rw [h.tail_eq, RingBuffer.window_push q.buffer hs x]
  rfl

theorem enqueue_of_full (q : Fifo α n) (x : α) (hs : ¬ q.size < n) : q.enqueue x = q :=
  if_neg hs

theorem WellFormed.dequeue [Inhabited α] {q : Fifo α n} (h : q.WellFormed) :
    q.dequeue.2.WellFormed := by
  obtain ⟨hh, hs, ht⟩ := h
  rw [Fifo.dequeue]
  split_ifs with hpos
  · refine ⟨Nat.mod_lt _ (by omega), by simp only; omega, ?_⟩
    change q.tail = ((q.head + 1) % n + (q.size - 1)) % n
    rw [ht, Nat.mod_add_mod]
    congr 1
    omega
  · exact ⟨hh, hs, ht⟩

theorem toList_dequeue [Inhabited α] {q : Fifo α n} (h : q.WellFormed) (hs : 0 < q.size) :
    q.toList = q.dequeue.1 :: q.dequeue.2.toList := by
  rw [Fifo.dequeue, if_pos hs]
  exact RingBuffer.window_pop q.buffer h.head_lt hs

theorem dequeue_of_empty [Inhabited α] {q : Fifo α n} (hs : ¬ 0 < q.size) :
    q.dequeue = (default, q) := if_neg hs

theorem toList_dequeue_cons [Inhabited α] {q : Fifo α n} (h : q.WellFormed) {x : α}
    {xs : List α} (hq : q.toList = x :: xs) : q.dequeue.1 = x ∧ q.dequeue.2.toList = xs := by
  have hs : 0 < q.size := by rw [← length_toList, hq]; simp
  have hd := toList_dequeue h hs
  rw [hq] at hd
  exact ⟨(List.cons.inj hd).1.symm, (List.cons.inj hd).2.symm⟩

@[simp] theorem enqueue_head (q : Fifo α n) (x : α) : (q.enqueue x).head = q.head := by
  rw [Fifo.enqueue]
  split_ifs <;> rfl

@[simp] theorem removeAt_head (q : Fifo α n) (pos : ℕ) : (q.removeAt pos).head = q.head := rfl

/-- As long as nothing has been dequeued, raw indices are queue positions. -/
theorem getAt_of_head_zero [Inhabited α] {q : Fifo α n} (h : q.WellFormed) (h0 : q.head = 0)
    {i : ℕ} (hi : i < q.size) : q.toList[i]? = some (q.getAt i) := by
  have hin : i < n := hi.trans_le h.size_le
  rw [toList, RingBuffer.window_getElem? _ _ _ _ _ hi, h0, Nat.zero_add, Nat.mod_eq_of_lt hin,
    getAt, if_pos hin]

/-- The loop of `removeAt` below the last cell, without wrap-around. -/
theorem shiftDown_apply {last : ℕ} (hl : last < n) (rounds i : ℕ) (f : ℕ → α) (hi : i ≤ last)
    (hr : last - i < rounds) (k : ℕ) :
    shiftDown (n := n) last rounds i f k = if i ≤ k ∧ k < last then f (k + 1) else f k := by
  induction rounds generalizing i f with
  | zero => omega
  | succ rounds ih =>
    rw [shiftDown]
    split_ifs with hil hk hk
    · omega
    · rfl
    · rw [Nat.mod_eq_of_lt (by omega : i + 1 < n), ih _ _ (by omega) (by omega)]
      by_cases hik : i = k
      · subst k
        rw [if_neg (by omega), Function.update_self]
      · rw [if_pos (by omega), Function.update_of_ne (by omega)]
    · rw [Nat.mod_eq_of_lt (by omega : i + 1 < n), ih _ _ (by omega) (by omega),
        if_neg (by omega), Function.update_of_ne (by omega)]

theorem tail_pred {q : Fifo α n} (h : q.WellFormed) (hs : 0 < q.size) :
    (q.tail + (n - 1)) % n = (q.head + (q.size - 1)) % n := by
  have hn := h.size_le
  have hsum : q.head + q.size + (n - 1) = q.head + (q.size - 1) + n := by omega
  rw [h.tail_eq, Nat.mod_add_mod, hsum, Nat.add_mod_right]

/-- `removeAt` keeps the relation between head, tail and size wherever the head is. -/
theorem WellFormed.removeAt {q : Fifo α n} (h : q.WellFormed) (hs : 0 < q.size) (pos : ℕ) :
    (q.removeAt pos).WellFormed := by
  have hn := h.size_le
  have hsize : (q.removeAt pos).size = q.size - 1 := if_neg (by omega)
  refine ⟨h.head_lt, by rw [hsize]; omega, ?_⟩
  rw [hsize]
  exact tail_pred h hs

theorem toList_removeAt_of_head_zero {q : Fifo α n} (h : q.WellFormed) (h0 : q.head = 0)
    {pos : ℕ} (hp : pos < q.size) : (q.removeAt pos).toList = q.toList.eraseIdx pos := by
  have hn := h.size_le
  have hsize : (q.removeAt pos).size = q.size - 1 := if_neg (by omega)
  have hlast : (q.tail + (n - 1)) % n = q.size - 1 := by
    rw [tail_pred h (by omega), h0, Nat.zero_add, Nat.mod_eq_of_lt (by omega)]
  have hbuf : (q.removeAt pos).buffer = shiftDown (n := n) (q.size - 1) n pos q.buffer := by
    rw [← hlast]; rfl
  rw [toList, toList, removeAt_head, h0, hsize, hbuf,
    RingBuffer.window_from_zero _ (by omega), RingBuffer.window_from_zero _ hn]
  apply RingBuffer.range_map_eraseIdx _ _ hp
  · intro k hk
    rw [shiftDown_apply (by omega) _ _ _ (by omega) (by omega), if_neg (by omega)]
  · intro k hpk hk
    rw [shiftDown_apply (by omega) _ _ _ (by omega) (by omega), if_pos (by omega)]

/-! ## Queues of pointers -/

/-- The pointers in the queue that are not null. -/
def pointers (q : Fifo (Option α) n) : List α := q.toList.reduceOption

theorem mem_pointers {q : Fifo (Option α) n} {x : α} : x ∈ q.pointers ↔ some x ∈ q.toList :=
  List.reduceOption_mem_iff

theorem pointers_enqueue {q : Fifo (Option α) n} (h : q.WellFormed) (x : α) (hs : q.size < n) :
    (q.enqueue (some x)).pointers = q.pointers ++ [x] := by
  rw [pointers, toList_enqueue h _ hs, List.reduceOption_append]
  rfl

theorem mem_pointers_dequeue {q : Fifo (Option α) n} (h : q.WellFormed) {x : α}
    (hx : x ∈ q.dequeue.2.pointers) : x ∈ q.pointers := by
  rw [mem_pointers] at hx ⊢
  by_cases hs : 0 < q.size
  · rw [toList_dequeue h hs]
    exact List.mem_cons_of_mem _ hx
  · rwa [dequeue_of_empty hs] at hx

/-- A well-formed queue without null pointers. `written` is about the raw cells, which may hold
what has been taken out: the queue has never reached the others since it last started at cell 0. -/
structure Plain (q : Fifo (Option α) n) : Prop extends WellFormed q where
  nonnull : none ∉ q.toList
  written : ∀ i < n, i < q.head + q.size → q.buffer i ≠ none

theorem reduceOption_map_some (l : List α) : (l.map some).reduceOption = l := by
  induction l with
  | nil => rfl
  | cons x l ih => rw [List.map_cons, List.reduceOption_cons_of_some, ih]

theorem map_some_reduceOption {l : List (Option α)} (h : none ∉ l) :
    l.reduceOption.map some = l := by
  induction l with
  | nil => rfl
  | cons x l ih =>
    rw [List.mem_cons, not_or] at h
    cases x with
    | none => exact absurd rfl h.1
    | some x => rw [List.reduceOption_cons_of_some, List.map_cons, ih h.2]

namespace Plain
variable {q : Fifo (Option α) n} (h : q.Plain)
include h

theorem map_pointers : q.pointers.map some = q.toList := map_some_reduceOption h.nonnull

theorem length_pointers : q.pointers.length = q.size := by
  rw [← q.length_toList, ← h.map_pointers, List.length_map]

/-- Raw access below the size finds a pointer wherever the head is. -/
theorem getAt_ne_none {i : ℕ} (hi : i < q.size) : q.getAt i ≠ none := by
  have hn : i < n := hi.trans_le h.size_le
  unfold Fifo.getAt
  rw [if_pos hn]
  exact h.written i hn (by omega)

protected theorem enqueue (x : α) (hs : q.size < n) : (q.enqueue (some x)).Plain := by
  refine ⟨h.toWellFormed.enqueue _, ?_, ?_⟩
  · rw [toList_enqueue h.toWellFormed _ hs]
    simp [h.nonnull]
  · intro i hn hi
    rw [enqueue_head] at hi
    rw [Fifo.enqueue, if_pos hs] at hi ⊢
    change i < q.head + (q.size + 1) at hi
    change Function.update q.buffer q.tail (some x) i ≠ none
    by_cases htail : i = q.tail
    · rw [htail, Function.update_self]
      exact Option.some_ne_none x
    · rw [Function.update_of_ne htail]
      refine h.written i hn ?_
      by_contra hge
      have hi' : i = q.head + q.size := by omega
      exact htail (by rw [h.tail_eq, ← hi', Nat.mod_eq_of_lt hn])

protected theorem dequeue (hs : 0 < q.size) : ∃ t, q.dequeue.1 = some t ∧
    q.pointers = t :: q.dequeue.2.pointers ∧ q.dequeue.2.Plain := by
  have hl := toList_dequeue h.toWellFormed hs
  have hno := h.nonnull
  rw [hl, List.mem_cons, not_or] at hno
  obtain ⟨t, ht⟩ := Option.ne_none_iff_exists'.mp (Ne.symm hno.1)
  refine ⟨t, ht, ?_, h.toWellFormed.dequeue, hno.2, ?_⟩
  · rw [pointers, hl, ht, List.reduceOption_cons_of_some, pointers]
  · intro i hn hi
    rw [Fifo.dequeue, if_pos hs] at hi ⊢
    change i < (q.head + 1) % n + (q.size - 1) at hi
    refine h.written i hn ?_
    have hle : (q.head + 1) % n ≤ q.head + 1 := Nat.mod_le _ _
    omega

/-- A queue of distinct members of a set leaves room for a further one. -/
theorem size_lt_card [DecidableEq α] {s : Finset α} (hd : q.pointers.Nodup)
    (hall : ∀ y ∈ q.pointers, y ∈ s) {x : α} (hx : x ∈ s) (hout : x ∉ q.pointers) :
    q.size < s.card := by
  have hcons : (x :: q.pointers).Nodup := List.nodup_cons.mpr ⟨hout, hd⟩
  have hsub : (x :: q.pointers).toFinset ⊆ s := by
    intro y hy
    rcases List.mem_cons.mp (List.mem_toFinset.mp hy) with rfl | hy
    · exact hx
    · exact hall y hy
  have hle := Finset.card_le_card hsub
  rw [List.toFinset_card_of_nodup hcons, List.length_cons, h.length_pointers] at hle
  omega

theorem getAt (h0 : q.head = 0) {i : ℕ} (hi : i < q.size) :
    q.getAt i = some (q.pointers.get ⟨i, by rwa [h.length_pointers]⟩) := by
  have hlt : i < q.pointers.length := by rwa [h.length_pointers]
  have hget := getAt_of_head_zero h.toWellFormed h0 hi
  rw [← h.map_pointers, List.getElem?_map, List.getElem?_eq_getElem hlt, Option.map_some] at hget
  exact (Option.some.inj hget).symm

theorem toList_removeAt (h0 : q.head = 0) {i : ℕ} (hi : i < q.size) :
    (q.removeAt i).toList = (q.pointers.eraseIdx i).map some := by
  rw [toList_removeAt_of_head_zero h.toWellFormed h0 hi, ← h.map_pointers, List.eraseIdx_map]

theorem pointers_removeAt (h0 : q.head = 0) {i : ℕ} (hi : i < q.size) :
    (q.removeAt i).pointers = q.pointers.eraseIdx i := by
  have hlist := h.toList_removeAt h0 hi
  rw [show (q.removeAt i).pointers = (q.removeAt i).toList.reduceOption from rfl, hlist,
    reduceOption_map_some]

theorem plain_removeAt (h0 : q.head = 0) {i : ℕ} (hi : i < q.size) : (q.removeAt i).Plain := by
  have hw := h.toWellFormed.removeAt (by omega) i
  have hnonnull : none ∉ (q.removeAt i).toList := by
    rw [h.toList_removeAt h0 hi]
    simp
  refine ⟨hw, hnonnull, ?_⟩
  intro j hn hj
  rw [removeAt_head, h0, Nat.zero_add] at hj
  have hcell := getAt_of_head_zero hw h0 hj
  rw [Fifo.getAt, if_pos hn] at hcell
  intro hnull
  rw [hnull] at hcell
  exact hnonnull (List.mem_of_getElem? hcell)

protected theorem removeAt (h0 : q.head = 0) {i : ℕ} (hi : i < q.size) : ∃ t,
    q.getAt i = some t ∧ q.pointers.Perm (t :: (q.removeAt i).pointers) ∧
      (q.removeAt i).Plain := by
  have hlt : i < q.pointers.length := by rwa [h.length_pointers]
  refine ⟨q.pointers[i], h.getAt h0 hi, ?_, h.plain_removeAt h0 hi⟩
  rw [h.pointers_removeAt h0 hi]
  exact (List.getElem_cons_eraseIdx_perm hlt).symm

end Plain

theorem Plain.new (hn : 0 < n) : (new : Fifo (Option α) n).Plain :=
  ⟨.new hn, by simp, fun i _ hi => absurd hi (Nat.not_lt_zero i)⟩

/-! ## Properties of all cells -/

/-- Every cell of the buffer, in use or not, has property `Q`. -/
def Forall (Q : α → Prop) (q : Fifo α n) : Prop := ∀ j, Q (q.buffer j)

theorem Forall.imp {Q R : α → Prop} {q : Fifo α n} (h : q.Forall Q) (hi : ∀ x, Q x → R x) :
    q.Forall R := fun j => hi _ (h j)

theorem Forall.enqueue {Q : α → Prop} {q : Fifo α n} (h : q.Forall Q) {x : α} (hx : Q x) :
    (q.enqueue x).Forall Q := by
  intro j
  unfold Fifo.enqueue
  split_ifs
  · by_cases hj : j = q.tail
    · rw [hj]
      simpa only [Function.update_self] using hx
    · simpa only [Function.update_of_ne hj] using h j
  · exact h j

theorem Forall.dequeue [Inhabited α] {Q : α → Prop} {q : Fifo α n} (h : q.Forall Q) :
    q.dequeue.2.Forall Q := by
  unfold Fifo.dequeue
  split_ifs
  · exact h
  · exact h

theorem Forall.dequeued [Inhabited α] {Q : α → Prop} {q : Fifo α n} (h : q.Forall Q)
    (hd : Q default) : Q q.dequeue.1 := by
  unfold Fifo.dequeue
  split_ifs
  · exact h _
  · exact hd

theorem Forall.getAt [Inhabited α] {Q : α → Prop} {q : Fifo α n} (h : q.Forall Q)
    (hd : Q default) (i : ℕ) : Q (q.getAt i) := by
  unfold Fifo.getAt
  split_ifs
  · exact h i
  · exact hd

theorem Forall.removeAt {Q : α → Prop} {q : Fifo α n} (h : q.Forall Q) (pos : ℕ) :
    (q.removeAt pos).Forall Q := by
  have hshift : ∀ last rounds i (f : ℕ → α), (∀ j, Q (f j)) →
      ∀ j, Q (shiftDown (n := n) last rounds i f j) := by
    intro last rounds
    induction rounds with
    | zero => exact fun i f hf => hf
    | succ rounds ih =>
      intro i f hf
      unfold shiftDown
      split_ifs
      · exact hf
      · refine ih _ _ fun j => ?_
        by_cases hj : j = i
        · rw [hj, Function.update_self]
          exact hf _
        · rw [Function.update_of_ne hj]
          exact hf j
  exact hshift _ _ _ _ h

end Fifo

end CppRtos
