import CppRtos.Kernel.Dispatch
import CppRtos.Mutex

/-! The destructor of a mutex. It sets the state of the tasks that wait for the mutex, and does
not enter them in the ready table. -/
namespace CppRtos.Mutex

/-- The loop of the destructor; every round dequeues one task. -/
def destroyLoop : ℕ → Kernel → Mutex → Kernel × Mutex
  | 0, k, m => (k, m)
  | rounds + 1, k, m =>
    if !m.blockedTasks.isEmpty then
      let ptrUnblockedTask := m.blockedTasks.dequeue
      let m := { m with blockedTasks := ptrUnblockedTask.2 }
      match ptrUnblockedTask.1 with
      | none => destroyLoop rounds k m
      | some ptrUnblockedTask => destroyLoop rounds (k.setState ptrUnblockedTask .eReady) m
    else (k, m)

def destroy (k : Kernel) (m : Mutex) : Kernel × Mutex := destroyLoop m.blockedTasks.getSize k m

/-- The tasks that were queued are ready and in the ready table, and the states and the ready
bits of all other tasks are as before. -/
structure Freed (k : Kernel) (m : Mutex) : Prop where
  emptied : (destroy k m).2.blockedTasks.isEmpty = true
  ready : ∀ t ∈ m.blockedTasks.pointers, (destroy k m).1.getState t = .eReady
  listed : ∀ t ∈ m.blockedTasks.pointers,
    (destroy k m).1.readyBit ((destroy k m).1.slot t).1 ((destroy k m).1.slot t).2 = true
  states : ∀ t, t ∉ m.blockedTasks.pointers → (destroy k m).1.getState t = k.getState t
  bits : ∀ p i, (∀ t ∈ m.blockedTasks.pointers, (p, i) ≠ k.slot t) →
    (destroy k m).1.readyBit p i = k.readyBit p i

/-! ## The loop -/

/-- The tasks of a list are made ready, one after the other. -/
def readyAll (ts : List TaskPtr) (k : Kernel) : Kernel :=
  ts.foldl (fun k t => k.setState t .eReady) k

theorem getState_readyAll (ts : List TaskPtr) (k : Kernel) (u : TaskPtr) :
    (readyAll ts k).getState u = if u ∈ ts then .eReady else k.getState u := by
  induction ts generalizing k with
  | nil => rfl
  | cons t ts ih =>
    show (readyAll ts (k.setState t .eReady)).getState u = _
    rw [ih, Kernel.getState_setState]
    by_cases hu : u ∈ ts
    · simp [hu]
    · by_cases hut : u = t <;> simp [hu, hut]

theorem sameParameters_readyAll (ts : List TaskPtr) (k : Kernel) :
    Kernel.SameParameters k (readyAll ts k) := by
  induction ts generalizing k with
  | nil => exact .refl k
  | cons t ts ih => exact (Kernel.sameParameters_setState k t .eReady).trans (ih _)

theorem readyTasks_readyAll (ts : List TaskPtr) (k : Kernel) :
    (readyAll ts k).readyTasks = k.readyTasks := by
  induction ts generalizing k with
  | nil => rfl
  | cons t ts ih => exact ih (k.setState t .eReady)

theorem destroyLoop_eq (rounds : ℕ) (k : Kernel) {m : Mutex} (h : m.blockedTasks.WellFormed)
    (hs : m.blockedTasks.size = rounds) :
    (destroyLoop rounds k m).1 = readyAll m.blockedTasks.pointers k ∧
      (destroyLoop rounds k m).2.blockedTasks.size = 0 := by
  induction rounds generalizing k m with
  | zero =>
    have hempty : m.blockedTasks.pointers = [] := by
      have hlist := List.length_eq_zero_iff.mp (m.blockedTasks.length_toList.trans hs)
      unfold Fifo.pointers
      rw [hlist]
      rfl
    rw [hempty]
    exact ⟨rfl, hs⟩
  | succ rounds ih =>
    have hpos : 0 < m.blockedTasks.size := by omega
    have he : (!m.blockedTasks.isEmpty) = true := by
      simp [Fifo.isEmpty, hs]
    have hlist := Fifo.toList_dequeue h hpos
    have hsize : m.blockedTasks.dequeue.2.size = rounds := by
      have hlength := congrArg List.length hlist
      rw [List.length_cons, Fifo.length_toList, Fifo.length_toList] at hlength
      omega
    have hpointers : m.blockedTasks.pointers =
        (m.blockedTasks.dequeue.1 :: m.blockedTasks.dequeue.2.toList).reduceOption := by
      unfold Fifo.pointers
      rw [hlist]
    unfold destroyLoop
    rw [if_pos he]
    dsimp only
    cases hd : m.blockedTasks.dequeue.1 with
    | none =>
      rw [hpointers, hd, List.reduceOption_cons_of_none]
      exact ih k h.dequeue hsize
    | some t =>
      rw [hpointers, hd, List.reduceOption_cons_of_some]
      exact ih (k.setState t .eReady) h.dequeue hsize

theorem destroy_eq (k : Kernel) {m : Mutex} (h : m.blockedTasks.WellFormed) :
    (destroy k m).1 = readyAll m.blockedTasks.pointers k ∧
      (destroy k m).2.blockedTasks.isEmpty = true := by
  obtain ⟨hk, hsize⟩ := destroyLoop_eq m.blockedTasks.getSize k h rfl
  exact ⟨hk, beq_iff_eq.mpr hsize⟩

/-! ## What the destructor leaves out -/

theorem not_listed_of_blocked {k : Kernel} {t : TaskPtr} (ht : k.Tabled) (hl : k.Listed)
    (hreg : k.Registered t) (hblocked : k.getState t = .eBlocked) :
    k.readyBit (k.slot t).1 (k.slot t).2 = false := by
  rw [Bool.eq_false_iff]
  intro hbit
  obtain ⟨u, hu, hready, -⟩ := hl _ _ hbit
  obtain rfl : t = u := Option.some.inj ((ht.tasks_id hreg).symm.trans hu)
  rw [hblocked] at hready
  cases hready

section
variable {k : Kernel} {m : Mutex} (h : m.blockedTasks.WellFormed)
include h

theorem slot_destroy (t : TaskPtr) : (destroy k m).1.slot t = k.slot t := by
  have hsame := sameParameters_readyAll m.blockedTasks.pointers k
  rw [(destroy_eq k h).1]
  unfold Kernel.slot
  rw [hsame.priority, hsame.id]

theorem readyBit_destroy (p i : ℕ) : (destroy k m).1.readyBit p i = k.readyBit p i := by
  rw [(destroy_eq k h).1]
  unfold Kernel.readyBit
  rw [readyTasks_readyAll]

theorem freed_iff : Freed k m ↔
    ∀ t ∈ m.blockedTasks.pointers, k.readyBit (k.slot t).1 (k.slot t).2 = true := by
  have hstate := getState_readyAll m.blockedTasks.pointers k
  obtain ⟨hk, hempty⟩ := destroy_eq k h
  constructor
  · intro hfreed t ht
    have hbit := hfreed.listed t ht
    rwa [slot_destroy h, readyBit_destroy h] at hbit
  · intro hbits
    constructor
    · exact hempty
    · intro t ht
      rw [hk, hstate, if_pos ht]
    · intro t ht
      rw [slot_destroy h, readyBit_destroy h]
      exact hbits t ht
    · intro t ht
      rw [hk, hstate, if_neg ht]
    · intro p i _
      exact readyBit_destroy h p i

/-- The destructor frees the waiters exactly if the ready bits of all of them are set already;
where the table lists ready tasks and the waiters are blocked, exactly if there is none. -/
theorem destroy_frees_iff :
    (Freed k m ↔ ∀ t ∈ m.blockedTasks.pointers, k.readyBit (k.slot t).1 (k.slot t).2 = true) ∧
      (k.Tabled → k.Listed →
        (∀ t ∈ m.blockedTasks.pointers, k.Registered t ∧ k.getState t = .eBlocked) →
        (Freed k m ↔ m.blockedTasks.pointers = [])) := by
  refine ⟨freed_iff h, fun htabled hlisted hwaiters => ?_⟩
  rw [freed_iff h, List.eq_nil_iff_forall_not_mem]
  constructor
  · intro hbits t ht
    obtain ⟨hreg, hblocked⟩ := hwaiters t ht
    have hclear := not_listed_of_blocked htabled hlisted hreg hblocked
    exact absurd (hclear.symm.trans (hbits t ht)) Bool.false_ne_true
  · intro hempty t ht
    exact absurd ht (hempty t)

end

/-- Task 2 of priority `high` blocks on a mutex that task 1 of priority `low` owns, and task 1
is running. -/
def sampleWaiter : Kernel × Mutex :=
  let k := Kernel.new 0 fun t => if t = 2 then .high else .low
  let r := acquireRegion ((k.addTask 1).addTask 2).selectHighestPriorityTask
    ⟨1, some 1, Fifo.new⟩ true 0 2
  (r.1.selectHighestPriorityTask, r.2.1)

theorem sampleWaiter_pointers : sampleWaiter.2.blockedTasks.WellFormed ∧
    sampleWaiter.2.blockedTasks.pointers = [2] := by
  refine ⟨⟨?_, ?_, ?_⟩, ?_⟩ <;> decide +kernel

/-- A waiter that something else has made ready in the meantime is freed. -/
theorem destroy_frees_woken : Freed (sampleWaiter.1.setTaskReady (some 2)) sampleWaiter.2 := by
  refine (destroy_frees_iff sampleWaiter_pointers.1).1.mpr ?_
  rw [sampleWaiter_pointers.2]
  decide +kernel

/-- The blocked waiter is ready after the destructor and in no word of the ready table. When
task 1 is suspended, the scheduler finds no ready task. -/
theorem destroy_loses_waiter :
    let k := (destroy sampleWaiter.1 sampleWaiter.2).1
    ¬ Freed sampleWaiter.1 sampleWaiter.2 ∧ sampleWaiter.1.getState 2 = .eBlocked ∧
      k.getState 2 = .eReady ∧ (∀ p < maxPrioryLevels, k.readyBit p 2 = false) ∧
      (k.resetTaskReady (some 1) .eSuspended).findReady = none := by
  intro k
  have hlost : ∀ p < maxPrioryLevels, k.readyBit p 2 = false := by decide +kernel
  refine ⟨fun hfreed => ?_, by decide +kernel, by decide +kernel, hlost, by decide +kernel⟩
  have hwaits : 2 ∈ sampleWaiter.2.blockedTasks.pointers := by
    rw [sampleWaiter_pointers.2]
    exact List.mem_singleton_self 2
  have hslot : k.slot 2 = (2, 2) := by decide +kernel
  have hbit := hfreed.listed 2 hwaits
  rw [hslot] at hbit
  exact absurd ((hlost 2 (by decide)).symm.trans hbit) Bool.false_ne_true

end CppRtos.Mutex
