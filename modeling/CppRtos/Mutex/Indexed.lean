import CppRtos.Fifo.Indexed
import CppRtos.Mutex

/-! The loop of `isAnyTaskBlocking` over the queue of a mutex, which `release` also dequeues
from. -/
namespace CppRtos.Mutex

theorem getAt_indexed {m : Mutex} (hw : m.blockedTasks.WellFormed) (hi : m.blockedTasks.Indexed)
    {i : ℕ} (hlt : i < m.blockedTasks.size) :
    m.blockedTasks.toList[i]? = some (m.blockedTasks.getAt i) := by
  rw [hi.getAt i hlt]
  exact Fifo.dequeued_eq hw hlt

/-- In an indexed queue the loop dereferences the queued pointers only. -/
theorem isAnyTaskBlocking_nonnull {k : Kernel} {m : Mutex} (hw : m.blockedTasks.WellFormed)
    (hi : m.blockedTasks.Indexed) (hnull : none ∉ m.blockedTasks.toList) (p : TaskPriority) :
    (isAnyTaskBlocking k m p).1 = k := by
  obtain ⟨c, hc, hnonnull⟩ := blockingLoop_fst k p
    ((List.range m.blockedTasks.getSize).map m.blockedTasks.getAt)
  have htrue : c = true := by
    refine hnonnull ?_
    rw [List.mem_map]
    rintro ⟨i, hmem, hcell⟩
    have hget := getAt_indexed hw hi (List.mem_range.mp hmem)
    rw [hcell] at hget
    exact hnull (List.mem_of_getElem? hget)
  rw [htrue, Kernel.assert_true] at hc
  exact hc

theorem isAnyTaskBlocking_iff {k : Kernel} {m : Mutex} (hw : m.blockedTasks.WellFormed)
    (hi : m.blockedTasks.Indexed) (p : TaskPriority) :
    (isAnyTaskBlocking k m p).2 = true ↔
      ∃ t ∈ m.blockedTasks.pointers, k.getPriority t = p := by
  have hget : ∀ i < m.blockedTasks.size,
      m.blockedTasks.toList[i]? = some (m.blockedTasks.getAt i) :=
    fun i hlt => getAt_indexed hw hi hlt
  rw [isAnyTaskBlocking_snd, List.any_eq_true]
  constructor
  · rintro ⟨i, hmem, hany⟩
    have hlt : i < m.blockedTasks.size := List.mem_range.mp hmem
    obtain ⟨t, ht, hp⟩ := (Option.any_eq_true _ _).mp hany
    have hit := hget i hlt
    rw [ht] at hit
    exact ⟨t, Fifo.mem_pointers.mpr (List.mem_of_getElem? hit), eq_of_beq hp⟩
  · rintro ⟨t, ht, hp⟩
    obtain ⟨i, hit⟩ := List.getElem?_of_mem (Fifo.mem_pointers.mp ht)
    have hlt : i < m.blockedTasks.size := by
      have hlen := (List.getElem?_eq_some_iff.mp hit).1
      rwa [Fifo.length_toList] at hlen
    have hcell : m.blockedTasks.getAt i = some t := by
      have heq := (hget i hlt).symm.trans hit
      exact Option.some.inj heq
    refine ⟨i, List.mem_range.mpr hlt, ?_⟩
    rw [hcell, Option.any_some, hp]
    exact beq_self_eq_true p

/-- Indexed access agrees with the queue order in every state of a run, whatever the items are,
exactly if every state is aligned; in an aligned state `isAnyTaskBlocking` looks at the tasks
that are queued, and dereferences no null pointer if none is queued. -/
theorem indexed_access_iff {n : ℕ} (hn : 0 < n) {es : List Fifo.Operation}
    (hes : (Fifo.operating n some).Valid (Fifo.new, 0) es) :
    ((∀ (α : Type) [Inhabited α] (item : ℕ → α) fs, fs <+: es →
        (Fifo.reached n item fs).Indexed) ↔
      ∀ fs, fs <+: es → (Fifo.reached n some fs).Aligned) ∧
    ∀ (item : ℕ → Option TaskPtr) (fs : List Fifo.Operation),
      (Fifo.operating maxTasks item).Valid (Fifo.new, 0) fs →
      (Fifo.reached maxTasks item fs).Aligned →
      ∀ (k : Kernel) (m : Mutex), m.blockedTasks = Fifo.reached maxTasks item fs → ∀ p,
        ((isAnyTaskBlocking k m p).2 = true ↔
          ∃ t ∈ m.blockedTasks.pointers, k.getPriority t = p) ∧
        (none ∉ m.blockedTasks.toList → (isAnyTaskBlocking k m p).1 = k) := by
  constructor
  · exact Fifo.indexed_iff_aligned hn hes
  · intro item fs hfs ha k m hm p
    have hw : m.blockedTasks.WellFormed := hm ▸ Fifo.wellFormed_reached (by decide) hfs
    have haligned : m.blockedTasks.Aligned := hm ▸ ha
    have hindexed := Fifo.indexed_of_aligned hw haligned
    exact ⟨isAnyTaskBlocking_iff hw hindexed p,
      fun hnull => isAnyTaskBlocking_nonnull hw hindexed hnull p⟩

/-- Removals by position keep the head, and the only call of `dequeue` leaves nothing behind. -/
theorem indexed_access_emptied :
    (Fifo.reached 2 (fun i => i + 5) [.enqueue, .enqueue, .removeAt 0, .dequeue]).Indexed := by
  have hvalid : (Fifo.operating 2 some).Valid (Fifo.new, 0)
      [.enqueue, .enqueue, .removeAt 0, .dequeue] := by
    refine ⟨trivial, trivial, ?_, trivial, trivial⟩
    show 0 < 2
    decide
  have haligned : ∀ fs, fs <+: [.enqueue, .enqueue, .removeAt 0, .dequeue] →
      (Fifo.reached 2 some fs).Aligned := by
    intro fs hfs
    have hmem := (List.mem_inits fs _).mpr hfs
    have hall : ∀ fs ∈ List.inits [.enqueue, .enqueue, .removeAt 0, .dequeue],
        (Fifo.reached 2 some fs).head = 0 ∨ (Fifo.reached 2 some fs).size = 0 := by decide
    exact hall fs hmem
  exact (indexed_access_iff (by decide) hvalid).1.mpr haligned ℕ (fun i => i + 5) _
    List.prefix_rfl

/-- Task 1 of priority `high` and task 2 of priority `low` have blocked, and task 1 has been
taken out again. -/
def dequeuedOnce : Kernel × Mutex :=
  ({ currentTask := 0, idleTask := 0
     taskData := fun t => if t = 1 then { priority := .high } else { priority := .low } },
    { Mutex.new with
      blockedTasks :=
        Fifo.reached maxTasks (fun i => some (i + 1)) [.enqueue, .enqueue, .dequeue] })

/-- After a call of `dequeue` the first cell still holds what has been taken out. -/
theorem indexed_access_dequeued :
    let q := Fifo.reached 4 (fun i => i + 5) [.enqueue, .enqueue, .enqueue, .dequeue]
    q.toList = [6, 7] ∧ q.getAt 0 = 5 ∧ q.dequeued 0 = 6 ∧ (q.removeAt 1).toList = [7] ∧
      dequeuedOnce.2.blockedTasks.pointers = [2] ∧
      (isAnyTaskBlocking dequeuedOnce.1 dequeuedOnce.2 .high).2 = true ∧
      (isAnyTaskBlocking dequeuedOnce.1 dequeuedOnce.2 .low).2 = false := by
  intro q
  refine ⟨?_, ?_, ?_, ?_, ?_, ?_, ?_⟩ <;> decide

end CppRtos.Mutex
