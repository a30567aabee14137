import CppRtos.Fifo
import CppRtos.Kernel.ReadyTable
import CppRtos.Library.Interleaving

/-! Counting semaphores. A call is split at its critical regions: each constructor of
`Call` is a point of the code, and a step runs to the next point or returns. -/
namespace CppRtos

/-- `WAIT_FOREVER` of the source. -/
def waitForever : ℕ := 0xFFFFFFFF

structure Semaphore where
  maxCount : ℕ
  count : ℕ
  waitingQueue : Fifo (Option TaskPtr) maxTasks

namespace Semaphore

def new (maxCount initialCount : ℕ) : Semaphore := ⟨maxCount, initialCount, Fifo.new⟩

inductive SemResult where
  | success | errorCalledFromISR | timeout
deriving DecidableEq, Repr

/-- Points inside `wait`, `signal` and `flush`. The entries are `wait`, `signal` and
`flush`; `waitYield`, `signalYield` stand before a call of `yield`, the `Return`
points behind it. `signal` and `flush` call `setTaskReady` for their own task outside of any
critical region: `signalReady`, `signalWord` and `signalBitmap` stand before its statements. -/
inductive Call where
  | wait (ticksTimeout : ℕ)
  | waitRegion (ticksTimeout endTime : ℕ)
  | waitYield
  | waitReturn
  | signal
  | signalReady
  | signalWord (ptrTask : TaskPtr)
  | signalBitmap (prio : ℕ)
  | signalYield
  | signalReturn
  | flush
deriving DecidableEq, Repr

/-- The critical region of `wait`. -/
def waitRegion (k : Kernel) (s : Semaphore) (ticksTimeout endTime : ℕ) :
    Kernel × Semaphore × Outcome Call SemResult :=
  let k := k.enterCritical
  if s.count > 0 then
    (k.exitCritical, { s with count := s.count - 1 }, .ret .success)
  else if ticksTimeout = 0 then
    (k.exitCritical, s, .ret .timeout)
  else if ticksTimeout ≠ waitForever ∧ k.getTickCount > endTime then
    (k.exitCritical, s, .ret .timeout)
  else
    let ptrTaskData := k.currentTask
    let k := k.resetTaskReady (some ptrTaskData) .eBlocked
    let s := { s with waitingQueue := s.waitingQueue.enqueue (some ptrTaskData) }
    (k.exitCritical, s, .next .waitYield)

/-- The critical region of `signal`. -/
def signalRegion (k : Kernel) (s : Semaphore) : Kernel × Semaphore :=
  let k := k.enterCritical
  if !s.waitingQueue.isEmpty then
    let taskToUnblock := s.waitingQueue.dequeue
    let k := k.setTaskReady taskToUnblock.1
    (k.exitCritical, { s with waitingQueue := taskToUnblock.2 })
  else if s.count < s.maxCount then
    (k.exitCritical, { s with count := s.count + 1 })
  else (k.exitCritical, s)

/-- The loop of `flush`; every round dequeues one task. -/
def flushLoop : ℕ → Kernel → Semaphore → Kernel × Semaphore
  | 0, k, s => (k, s)
  | rounds + 1, k, s =>
    if !s.waitingQueue.isEmpty then
      let taskToUnblock := s.waitingQueue.dequeue
      flushLoop rounds (k.setTaskReady taskToUnblock.1)
        { s with waitingQueue := taskToUnblock.2 }
    else (k, s)

/-- The critical region of `flush`, and whether any task was woken. -/
def flushRegion (k : Kernel) (s : Semaphore) : Kernel × Semaphore × Bool :=
  let k := k.enterCritical
  let isAny := !s.waitingQueue.isEmpty
  let r := flushLoop s.waitingQueue.getSize k s
  (r.1.exitCritical, r.2, isAny)

def step (k : Kernel) (s : Semaphore) : Call → Kernel × Semaphore × Outcome Call SemResult
  | .wait ticksTimeout =>
    let k := k.assert (!k.isInsideInterrupt)
    if k.isInsideInterrupt then (k, s, .ret .errorCalledFromISR)
    else (k, s, .next (.waitRegion ticksTimeout ((ticksTimeout + k.getTickCount) % 2 ^ 64)))
  | .waitRegion ticksTimeout endTime => waitRegion k s ticksTimeout endTime
  | .waitYield => (k.yield, s, .next .waitReturn)
  | .waitReturn => (k, s, .ret .success)
  | .signal =>
    let r := signalRegion k s
    (r.1, r.2, if r.1.isInsideInterrupt then .ret .success else .next .signalReady)
  | .signalReady =>
    let ptrCurrentTaskData := k.currentTask
    (k.setState ptrCurrentTaskData .eReady, s, .next (.signalWord ptrCurrentTaskData))
  | .signalWord ptrTask =>
    let prio := (k.getPriority ptrTask).level
    (k.setReadyWord ptrTask, s,
      .next (if prio < maxPrioryLevels then .signalBitmap prio else .signalYield))
  | .signalBitmap prio => (k.markPriority prio, s, .next .signalYield)
  | .signalYield => (k.yield, s, .next .signalReturn)
  | .signalReturn => (k, s, .ret .success)
  | .flush =>
    let r := flushRegion k s
    (r.1, r.2.1,
      if r.2.2 && !r.1.isInsideInterrupt then .next .signalReady else .ret .success)

/-! ## What the critical regions do -/

theorem waitRegion_cases (k : Kernel) (s : Semaphore) (ticksTimeout endTime : ℕ) :
    (0 < s.count ∧ waitRegion k s ticksTimeout endTime =
      (k.enterCritical.exitCritical, { s with count := s.count - 1 }, .ret .success)) ∨
    (s.count = 0 ∧ waitRegion k s ticksTimeout endTime =
      (k.enterCritical.exitCritical, s, .ret .timeout)) ∨
    (s.count = 0 ∧ waitRegion k s ticksTimeout endTime =
      ((k.enterCritical.resetTaskReady (some k.currentTask) .eBlocked).exitCritical,
        { s with waitingQueue := s.waitingQueue.enqueue (some k.currentTask) },
        .next .waitYield)) := by
  by_cases hc : s.count > 0
  · exact .inl ⟨hc, by simp only [waitRegion, if_pos hc]⟩
  · refine .inr ?_
    simp only [waitRegion, if_neg hc]
    have h0 : s.count = 0 := by omega
    split_ifs
    · exact .inl ⟨h0, rfl⟩
    · exact .inl ⟨h0, rfl⟩
    · exact .inr ⟨h0, rfl⟩

theorem signalRegion_of_queued {s : Semaphore} (hs : 0 < s.waitingQueue.size) (k : Kernel) :
    signalRegion k s = ((k.enterCritical.setTaskReady s.waitingQueue.dequeue.1).exitCritical,
      { s with waitingQueue := s.waitingQueue.dequeue.2 }) := by
  have he : (!s.waitingQueue.isEmpty) = true := by
    simp only [Fifo.isEmpty, Bool.not_eq_true', beq_eq_false_iff_ne]
    omega
  simp only [signalRegion, if_pos he]

theorem signalRegion_of_empty {s : Semaphore} (hs : s.waitingQueue.size = 0) (k : Kernel) :
    signalRegion k s = (k.enterCritical.exitCritical,
      if s.count < s.maxCount then { s with count := s.count + 1 } else s) := by
  have he : ¬ (!s.waitingQueue.isEmpty) = true := by
    simp [Fifo.isEmpty, hs]
  simp only [signalRegion, if_neg he]
  split_ifs <;> rfl

/-- The loop wakes the queued tasks one after the other and leaves the queue empty. -/
theorem flushLoop_eq (n : ℕ) (k : Kernel) (s : Semaphore) (hq : s.waitingQueue.WellFormed)
    (hn : s.waitingQueue.size = n) :
    ∃ q : Fifo (Option TaskPtr) maxTasks, q.WellFormed ∧ q.toList = [] ∧
      flushLoop n k s = (s.waitingQueue.toList.foldl (fun k t => k.setTaskReady t) k,
        { s with waitingQueue := q }) := by
  induction n generalizing k s with
  | zero =>
    have hl : s.waitingQueue.toList = [] := by
      rw [← List.length_eq_zero_iff, Fifo.length_toList, hn]
    exact ⟨s.waitingQueue, hq, hl, by rw [flushLoop, hl]; rfl⟩
  | succ n ih =>
    have hs : 0 < s.waitingQueue.size := by omega
    have hd := Fifo.toList_dequeue hq hs
    have he : (!s.waitingQueue.isEmpty) = true := by
      simp [Fifo.isEmpty, hn]
    have hlen := congrArg List.length hd
    rw [List.length_cons, Fifo.length_toList, Fifo.length_toList] at hlen
    obtain ⟨q, hwf, hnil, h⟩ := ih (k.setTaskReady s.waitingQueue.dequeue.1)
      { s with waitingQueue := s.waitingQueue.dequeue.2 } hq.dequeue (by simp only; omega)
    exact ⟨q, hwf, hnil, by rw [flushLoop, if_pos he, h, hd]; rfl⟩

theorem flushRegion_eq (k : Kernel) {s : Semaphore} (hq : s.waitingQueue.WellFormed) :
    ∃ q : Fifo (Option TaskPtr) maxTasks, q.WellFormed ∧ q.toList = [] ∧
      flushRegion k s =
        ((s.waitingQueue.toList.foldl (fun k t => k.setTaskReady t) k.enterCritical).exitCritical,
          { s with waitingQueue := q }, !s.waitingQueue.isEmpty) := by
  obtain ⟨q, hwf, hnil, h⟩ := flushLoop_eq _ k.enterCritical s hq rfl
  refine ⟨q, hwf, hnil, ?_⟩
  rw [flushRegion, Fifo.getSize, h]

end Semaphore

end CppRtos
