import CppRtos.Fifo
import CppRtos.Library.Machine

/-! Indexed access and queue order. `getAt` and `removeAt` count from cell 0 and `dequeue` from
the head, so they agree in every queue whose head is at cell 0. -/
namespace CppRtos.Fifo
variable {α β : Type*} {n : ℕ}

/-- What `dequeue` returns after `i` earlier calls. -/
def dequeued [Inhabited α] (q : Fifo α n) (i : ℕ) : α :=
  ((fun q : Fifo α n => q.dequeue.2)^[i] q).dequeue.1

theorem dequeued_eq [Inhabited α] {q : Fifo α n} (h : q.WellFormed) {i : ℕ} (hi : i < q.size) :
    q.toList[i]? = some (q.dequeued i) := by
  induction i generalizing q with
  | zero =>
    rw [toList_dequeue h hi]
    rfl
  | succ i ih =>
    have hsize : q.dequeue.2.size = q.size - 1 := by
      unfold dequeue
      rw [if_pos (by omega)]
    rw [toList_dequeue h (by omega), List.getElem?_cons_succ, ih h.dequeue (by omega)]
    unfold dequeued
    rw [Function.iterate_succ_apply]

/-- Positions in the queue are what `getAt` and `removeAt` take them for. -/
structure Indexed [Inhabited α] (q : Fifo α n) : Prop where
  getAt : ∀ i < q.getSize, q.getAt i = q.dequeued i
  terminates : ∀ i < q.getSize, ∀ rounds, n ≤ rounds →
    shiftDown (n := n) ((q.tail + (n - 1)) % n) rounds i q.buffer = (q.removeAt i).buffer
  removes : ∀ i < q.getSize, (q.removeAt i).toList = q.toList.eraseIdx i
  tail : ∀ i < q.getSize,
    (q.removeAt i).tail = ((q.removeAt i).head + (q.removeAt i).getSize) % n

def Aligned (q : Fifo α n) : Prop := q.head = 0 ∨ q.size = 0

theorem shiftDown_last (last rounds : ℕ) (f : ℕ → α) :
    shiftDown (n := n) last rounds last f = f := by
  cases rounds with
  | zero => rfl
  | succ rounds => exact if_pos rfl

/-- The loop of `removeAt` has ended after the rounds that lead to the last cell. -/
theorem shiftDown_rounds {last : ℕ} (r a b i : ℕ) (f : ℕ → α) (hi : i < n)
    (hr : (i + r) % n = last) (ha : r ≤ a) (hb : r ≤ b) :
    shiftDown (n := n) last a i f = shiftDown (n := n) last b i f := by
  induction r generalizing a b i f with
  | zero =>
    rw [Nat.add_zero, Nat.mod_eq_of_lt hi] at hr
    rw [hr, shiftDown_last, shiftDown_last]
  | succ r ih =>
    obtain ⟨a, rfl⟩ : ∃ a', a = a' + 1 := ⟨a - 1, by omega⟩
    obtain ⟨b, rfl⟩ : ∃ b', b = b' + 1 := ⟨b - 1, by omega⟩
    unfold shiftDown
    split_ifs with hl
    · rfl
    · have hnext : ((i + 1) % n + r) % n = last := by
        rw [Nat.mod_add_mod, Nat.add_assoc, Nat.add_comm 1 r, hr]
      exact ih _ _ _ _ (Nat.mod_lt _ (by omega)) hnext (by omega) (by omega)

theorem removeAt_terminates {q : Fifo α n} {i rounds : ℕ} (hi : i < n) (hr : n ≤ rounds) :
    shiftDown (n := n) ((q.tail + (n - 1)) % n) rounds i q.buffer = (q.removeAt i).buffer := by
  have hlast : (q.tail + (n - 1)) % n < n := Nat.mod_lt _ (by omega)
  have hreach : ∃ r < n, (i + r) % n = (q.tail + (n - 1)) % n := by
    by_cases hle : i ≤ (q.tail + (n - 1)) % n
    · refine ⟨(q.tail + (n - 1)) % n - i, by omega, ?_⟩
      rw [Nat.add_sub_cancel' hle, Nat.mod_mod]
    · refine ⟨n + (q.tail + (n - 1)) % n - i, by omega, ?_⟩
      have hsum : i + (n + (q.tail + (n - 1)) % n - i) = n + (q.tail + (n - 1)) % n := by omega
      rw [hsum, Nat.add_mod_left, Nat.mod_mod]
  obtain ⟨r, hrn, hreach⟩ := hreach
  exact shiftDown_rounds r rounds n i q.buffer hi hreach (by omega) (by omega)

theorem indexed_of_aligned [Inhabited α] {q : Fifo α n} (h : q.WellFormed) (ha : q.Aligned) :
    q.Indexed := by
  have hn := h.size_le
  have hzero : ∀ i < q.getSize, q.head = 0 := by
    intro i hi
    unfold getSize at hi
    exact ha.resolve_right (by omega)
  constructor
  · intro i hi
    have hget := getAt_of_head_zero h (hzero i hi) hi
    rw [dequeued_eq h hi] at hget
    exact (Option.some.inj hget).symm
  · intro i hi rounds hr
    unfold getSize at hi
    exact removeAt_terminates (by omega) hr
  · intro i hi
    exact toList_removeAt_of_head_zero h (hzero i hi) hi
  · intro i hi
    unfold getSize at hi
    exact (h.removeAt (by omega) i).tail_eq

/-! ## Sequences of calls -/

/-- The calls, without the items of `enqueue`. -/
inductive Operation where
  | enqueue
  | dequeue
  | removeAt (pos : ℕ)
deriving DecidableEq, Repr

/-- The queue and the number of calls of `enqueue` so far; the next one enqueues the item of
that number. Positions are those of queued elements. -/
def operating [Inhabited α] (n : ℕ) (item : ℕ → α) : Machine (Fifo α n × ℕ) Operation where
  guard
    | .removeAt pos, s => pos < s.1.getSize
    | _, _ => True
  apply
    | .enqueue, s => (s.1.enqueue (item s.2), s.2 + 1)
    | .dequeue, s => (s.1.dequeue.2, s.2)
    | .removeAt pos, s => (s.1.removeAt pos, s.2)

def reached [Inhabited α] (n : ℕ) (item : ℕ → α) (es : List Operation) : Fifo α n :=
  ((operating n item).exec (Fifo.new, 0) es).1

section
variable [Inhabited α] [Inhabited β] {item : ℕ → α} {item' : ℕ → β} {es : List Operation}

theorem wellFormed_apply {s : Fifo α n × ℕ} (h : s.1.WellFormed) {e : Operation}
    (hg : (operating n item).guard e s) : ((operating n item).apply e s).1.WellFormed := by
  cases e with
  | enqueue => exact h.enqueue _
  | dequeue => exact h.dequeue
  | removeAt pos => exact h.removeAt (Nat.zero_lt_of_lt hg) pos

theorem wellFormed_reached (hn : 0 < n)
    (h : (operating n item).Valid (Fifo.new, 0) es) : (reached n item es).WellFormed :=
  Machine.invariant (I := fun s : Fifo α n × ℕ => s.1.WellFormed)
    (fun _ _ hs hg => wellFormed_apply hs hg) (.new hn) h

/-- Head, tail and size do not depend on the items. -/
structure SameShape (q : Fifo α n) (q' : Fifo β n) : Prop where
  head : q.head = q'.head
  tail : q.tail = q'.tail
  size : q.size = q'.size

theorem SameShape.apply {s : Fifo α n × ℕ} {s' : Fifo β n × ℕ} (h : SameShape s.1 s'.1)
    (item : ℕ → α) (item' : ℕ → β) (e : Operation) :
    SameShape ((operating n item).apply e s).1 ((operating n item').apply e s').1 := by
  obtain ⟨hhead, htail, hsize⟩ := h
  cases e with
  | enqueue =>
    show SameShape (s.1.enqueue _) (s'.1.enqueue _)
    unfold enqueue
    rw [← hsize]
    split_ifs
    · exact ⟨hhead, by rw [htail], rfl⟩
    · exact ⟨hhead, htail, hsize⟩
  | dequeue =>
    show SameShape s.1.dequeue.2 s'.1.dequeue.2
    unfold dequeue
    rw [← hsize]
    split_ifs
    · exact ⟨by rw [hhead], htail, rfl⟩
    · exact ⟨hhead, htail, hsize⟩
  | removeAt pos =>
    show SameShape (s.1.removeAt pos) (s'.1.removeAt pos)
    unfold removeAt
    exact ⟨hhead, by simp only [htail], by simp only [hsize]⟩

theorem SameShape.run {s : Fifo α n × ℕ} {s' : Fifo β n × ℕ} (h : SameShape s.1 s'.1)
    (es : List Operation) (hv : (operating n item).Valid s es) :
    (operating n item').Valid s' es ∧
      SameShape ((operating n item).exec s es).1 ((operating n item').exec s' es).1 := by
  induction es generalizing s s' with
  | nil => exact ⟨trivial, h⟩
  | cons e es ih =>
    obtain ⟨hv', hlast⟩ := ih (h.apply item item' e) hv.2
    refine ⟨⟨?_, hv'⟩, hlast⟩
    cases e with
    | enqueue => trivial
    | dequeue => trivial
    | removeAt pos =>
      have hpos : pos < s.1.getSize := hv.1
      show pos < s'.1.getSize
      unfold getSize at hpos ⊢
      rwa [← h.size]

end

/-! ## Items that tell the calls apart -/

/-- An aligned queue of different items, each the number of an earlier call. -/
structure Serial (s : Fifo (Option ℕ) n × ℕ) : Prop where
  wellFormed : s.1.WellFormed
  cells : s.1.Forall fun x => ∀ m, x = some m → m < s.2
  nodup : s.1.toList.Nodup
  aligned : s.1.Aligned

namespace Serial
variable {s : Fifo (Option ℕ) n × ℕ} (h : Serial s)
include h

theorem not_mem : some s.2 ∉ s.1.toList := by
  intro hmem
  obtain ⟨k, -, hk⟩ := RingBuffer.mem_window.mp hmem
  have hlt := h.cells _ _ hk
  omega

/-- A new item behind a head that is not at cell 0 is not the item in cell 0. -/
theorem aligned_enqueue (hn : 0 < n) (hi : (s.1.enqueue (some s.2)).Indexed) :
    (s.1.enqueue (some s.2)).Aligned := by
  rcases h.aligned with hhead | hsize
  · exact .inl ((enqueue_head s.1 _).trans hhead)
  · by_contra hno
    have hhead : s.1.head ≠ 0 := by
      intro h0
      exact hno (.inl ((enqueue_head s.1 _).trans h0))
    have hroom : s.1.size < n := by omega
    have htail : s.1.tail = s.1.head := by
      rw [h.wellFormed.tail_eq, hsize, Nat.add_zero, Nat.mod_eq_of_lt h.wellFormed.head_lt]
    have hlist : (s.1.enqueue (some s.2)).toList = [some s.2] := by
      have hnil : s.1.toList = [] := List.length_eq_zero_iff.mp (by rw [length_toList, hsize])
      rw [toList_enqueue h.wellFormed _ hroom, hnil, List.nil_append]
    have hone : (s.1.enqueue (some s.2)).size = 1 := by rw [← length_toList, hlist]; rfl
    have hpos : 0 < (s.1.enqueue (some s.2)).size := by omega
    have hfirst := dequeued_eq (h.wellFormed.enqueue (some s.2)) hpos
    rw [← hi.getAt 0 hpos, hlist] at hfirst
    have hcell : (s.1.enqueue (some s.2)).getAt 0 = s.1.buffer 0 := by
      unfold Fifo.getAt enqueue
      rw [if_pos hn, if_pos hroom]
      exact Function.update_of_ne (by omega) _ _
    rw [hcell] at hfirst
    have hlt := h.cells 0 s.2 (Option.some.inj hfirst).symm
    omega

theorem aligned_dequeue (hi : s.1.dequeue.2.Indexed) : s.1.dequeue.2.Aligned := by
  by_cases hpos : 0 < s.1.size
  · by_contra hno
    have hsize : 0 < s.1.dequeue.2.size := by
      have hne : s.1.dequeue.2.size ≠ 0 := fun hz => hno (.inr hz)
      omega
    have hhead : s.1.head = 0 := h.aligned.resolve_right (by omega)
    have hlist := toList_dequeue h.wellFormed hpos
    have hfirst := dequeued_eq h.wellFormed.dequeue hsize
    rw [← hi.getAt 0 hsize] at hfirst
    have hcell : s.1.dequeue.2.getAt 0 = s.1.dequeue.1 := by
      have hn : 0 < n := by
        have hle := h.wellFormed.size_le
        omega
      unfold Fifo.getAt dequeue
      rw [if_pos hpos, if_pos hn, hhead]
    rw [hcell] at hfirst
    have hmem : s.1.dequeue.1 ∈ s.1.dequeue.2.toList := List.mem_of_getElem? hfirst
    have hnodup := h.nodup
    rw [hlist, List.nodup_cons] at hnodup
    exact hnodup.1 hmem
  · rw [dequeue_of_empty hpos]
    exact h.aligned

theorem aligned_apply (hn : 0 < n) {e : Operation} (hg : (operating n some).guard e s)
    (hi : ((operating n some).apply e s).1.Indexed) :
    ((operating n some).apply e s).1.Aligned := by
  cases e with
  | enqueue => exact h.aligned_enqueue hn hi
  | dequeue => exact h.aligned_dequeue hi
  | removeAt pos =>
    have hpos : pos < s.1.size := hg
    exact .inl (h.aligned.resolve_right (by omega))

theorem nodup_apply (hs : s.1.Indexed) {e : Operation} (hg : (operating n some).guard e s) :
    ((operating n some).apply e s).1.toList.Nodup := by
  have hnodup := h.nodup
  cases e with
  | enqueue =>
    show (s.1.enqueue (some s.2)).toList.Nodup
    by_cases hroom : s.1.size < n
    · rw [toList_enqueue h.wellFormed _ hroom]
      exact hnodup.append (List.nodup_singleton _) (by simpa using h.not_mem)
    · rw [enqueue_of_full _ _ hroom]
      exact hnodup
  | dequeue =>
    show s.1.dequeue.2.toList.Nodup
    by_cases hpos : 0 < s.1.size
    · rw [toList_dequeue h.wellFormed hpos] at hnodup
      exact (List.nodup_cons.mp hnodup).2
    · rw [dequeue_of_empty hpos]
      exact hnodup
  | removeAt pos =>
    show (s.1.removeAt pos).toList.Nodup
    rw [hs.removes pos hg]
    exact hnodup.eraseIdx pos

theorem apply (hn : 0 < n) (hs : s.1.Indexed) {e : Operation}
    (hg : (operating n some).guard e s)
    (hi : ((operating n some).apply e s).1.Indexed) : Serial ((operating n some).apply e s) := by
  refine ⟨wellFormed_apply h.wellFormed hg, ?_, h.nodup_apply hs hg, h.aligned_apply hn hg hi⟩
  cases e with
  | enqueue =>
    have hcells := h.cells.imp (R := fun x => ∀ m, x = some m → m < s.2 + 1)
      fun x hx m hm => Nat.lt_succ_of_lt (hx m hm)
    refine hcells.enqueue ?_
    intro m hm
    cases hm
    exact Nat.lt_succ_self _
  | dequeue => exact h.cells.dequeue
  | removeAt pos => exact h.cells.removeAt pos

end Serial

theorem serial_new (hn : 0 < n) : Serial (n := n) (Fifo.new, 0) := by
  refine ⟨.new hn, ?_, List.nodup_nil, .inl rfl⟩
  intro j m hm
  cases hm

/-- With the numbers of the calls as items, positions agree in all states exactly if all states
are aligned. -/
theorem serial_iff (hn : 0 < n) {es : List Operation}
    (hes : (operating n some).Valid (Fifo.new, 0) es) :
    (∀ fs, fs <+: es → (reached n some fs).Indexed) ↔
      ∀ fs, fs <+: es → (reached n some fs).Aligned := by
  have hnew : (new : Fifo (Option ℕ) n).Aligned := .inl rfl
  have hindexed : (∀ fs, fs <+: es → (reached n some fs).Indexed) ↔
      ((operating n some).restrict fun e s => ((operating n some).apply e s).1.Aligned).Valid
        (Fifo.new, 0) es :=
    Machine.forall_prefix_iff (I := Serial) (P := fun s => s.1.Indexed)
      (fun e s hs hi hg hi' => hs.apply hn hi hg hi')
      (fun e s hs _ hg => ⟨hs.aligned_apply hn hg,
        indexed_of_aligned (wellFormed_apply hs.wellFormed hg)⟩)
      (serial_new hn) (indexed_of_aligned (.new hn) hnew) hes
  have haligned : (∀ fs, fs <+: es → (reached n some fs).Aligned) ↔
      ((operating n some).restrict fun e s => ((operating n some).apply e s).1.Aligned).Valid
        (Fifo.new, 0) es :=
    Machine.forall_prefix_iff (I := fun _ => True) (P := fun s => s.1.Aligned)
      (fun _ _ _ _ _ _ => trivial) (fun _ _ _ _ _ => Iff.rfl) trivial hnew hes
  exact hindexed.trans haligned.symm

theorem aligned_reached [Inhabited α] [Inhabited β] {item : ℕ → α} {es : List Operation}
    (item' : ℕ → β) (hes : (operating n item).Valid (Fifo.new, 0) es) :
    (operating n item').Valid (Fifo.new, 0) es ∧
      ((reached n item es).Aligned ↔ (reached n item' es).Aligned) := by
  have hnew : SameShape ((new, 0) : Fifo α n × ℕ).1 ((new, 0) : Fifo β n × ℕ).1 := ⟨rfl, rfl, rfl⟩
  have hrun : (operating n item').Valid (new, 0) es ∧
      SameShape (reached n item es) (reached n item' es) := hnew.run es hes
  obtain ⟨hv, hsame⟩ := hrun
  refine ⟨hv, ?_⟩
  show (_ = 0 ∨ _ = 0) ↔ (_ = 0 ∨ _ = 0)
  rw [hsame.head, hsame.size]

/-- Whatever the items are, positions agree in an aligned queue. If they agree for all items in
every state of a run, then every state is aligned. -/
theorem indexed_iff_aligned (hn : 0 < n) {es : List Operation}
    (hes : (operating n some).Valid (Fifo.new, 0) es) :
    (∀ (α : Type) [Inhabited α] (item : ℕ → α) fs, fs <+: es → (reached n item fs).Indexed) ↔
      ∀ fs, fs <+: es → (reached n some fs).Aligned := by
  constructor
  · intro hall
    exact (serial_iff hn hes).mp fun fs hfs => hall (Option ℕ) some fs hfs
  · intro haligned α _ item fs hfs
    obtain ⟨hv, hiff⟩ := aligned_reached item (Machine.valid_prefix hes hfs)
    exact indexed_of_aligned (wellFormed_reached hn hv) (hiff.mp (haligned fs hfs))

end CppRtos.Fifo
