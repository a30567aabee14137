import CppRtos.EventGroup
import CppRtos.Library.Solo
import CppRtos.MessageQueue
import CppRtos.System.Clock

/-! The blocking calls with timeout zero, each executed alone by a task. Four of them test the
timeout, or reach a test of it, before they block; `acquire` compares tick counts only. -/
namespace CppRtos
open Outcome

section
variable {O C R W : Type*}

def alone (step : Kernel → O → C → Kernel × O × Outcome C R) (c : C) (s : Kernel × O) :
    (Kernel × O) × Outcome C R :=
  let r := step s.1 s.2 c
  ((r.1, r.2.1), r.2.2)

/-- The call returns, nobody is queued, and the state and the ready bits are as before. If the
resource is unavailable the call reports it and leaves the object and all priorities alone. -/
def NeverBlocks (step : Kernel → O → C → Kernel × O × Outcome C R) (queue : O → W)
    (unavailable : O → Prop) (failure : R) (k : Kernel) (o : O) (c : C) : Prop :=
  ∃ k' o' r, Returns (alone step) c (k, o) (k', o') r ∧ queue o' = queue o ∧
    k'.getState k.currentTask = k.getState k.currentTask ∧
    (∀ p i, k'.readyBit p i = k.readyBit p i) ∧
    (unavailable o → r = failure ∧ o' = o ∧ ∀ t, k'.getPriority t = k.getPriority t)

theorem NeverBlocks.of_returns {step : Kernel → O → C → Kernel × O × Outcome C R} {queue : O → W}
    {unavailable : O → Prop} {failure r : R} {k k' : Kernel} {o o' : O} {c : C}
    (h : Returns (alone step) c (k, o) (k', o') r) (hk : Kernel.SameSchedule k k')
    (hq : queue o' = queue o) (hf : unavailable o → r = failure ∧ o' = o) :
    NeverBlocks step queue unavailable failure k o c := by
  refine ⟨k', o', r, h, hq, hk.getState k.currentTask, hk.readyBit, ?_⟩
  intro hun
  exact ⟨(hf hun).1, (hf hun).2, hk.priority⟩

end

variable {k : Kernel}

theorem Semaphore.wait_zero (hk : k.isInsideInterrupt = false) (s : Semaphore) :
    NeverBlocks Semaphore.step Semaphore.waitingQueue (fun s => s.count = 0) .timeout k s
      (.wait 0) := by
  have hstart : alone Semaphore.step (.wait 0) (k, s) =
      ((k.assert (!k.isInsideInterrupt), s),
        .next (.waitRegion 0 ((0 + k.getTickCount) % 2 ^ 64))) := by
    simp only [alone, Semaphore.step]
    have hassert : (k.assert (!k.isInsideInterrupt)).isInsideInterrupt = false := hk
    rw [hassert, if_neg Bool.false_ne_true, Kernel.getTickCount_assert]
  have hsame := Kernel.sameSchedule_assert k (!k.isInsideInterrupt)
  generalize k.assert (!k.isInsideInterrupt) = k₁ at hstart hsame
  generalize (0 + k.getTickCount) % 2 ^ 64 = e at hstart
  by_cases hc : s.count > 0
  · have hregion : alone Semaphore.step (.waitRegion 0 e) (k₁, s) =
        ((k₁.enterCritical.exitCritical, { s with count := s.count - 1 }), .ret .success) := by
      simp only [alone, Semaphore.step, Semaphore.waitRegion, if_pos hc]
    refine .of_returns (.of_next hstart (.of_ret hregion))
      (hsame.trans (Kernel.sameSchedule_region k₁)) rfl ?_
    intro hzero
    omega
  · have hregion : alone Semaphore.step (.waitRegion 0 e) (k₁, s) =
        ((k₁.enterCritical.exitCritical, s), .ret .timeout) := by
      simp only [alone, Semaphore.step, Semaphore.waitRegion, if_neg hc, if_true]
    exact .of_returns (.of_next hstart (.of_ret hregion))
      (hsame.trans (Kernel.sameSchedule_region k₁)) rfl fun _ => ⟨rfl, rfl⟩

theorem EventGroup.waitForEvents_zero (k : Kernel) (g : EventGroup) (flags : BitVec 32) :
    NeverBlocks EventGroup.step EventGroup.waitingTasks (fun g => g.eventFlags &&& flags = 0)
      (.value false) k g (.waitForEvents flags 0) := by
  have hregion : alone EventGroup.step (.waitForEvents flags 0) (k, g) =
      ((k.enterCritical.exitCritical, g), .ret (.value (decide (g.eventFlags &&& flags ≠ 0)))) := by
    simp only [alone, EventGroup.step, EventGroup.waitRegion]
    by_cases hset : g.eventFlags &&& flags ≠ 0
    · rw [if_pos hset, decide_eq_true hset]
    · rw [if_neg hset, if_pos trivial, decide_eq_false hset]
  refine .of_returns (.of_ret hregion) (Kernel.sameSchedule_region k) rfl ?_
  intro hunset
  refine ⟨?_, rfl⟩
  rw [decide_eq_false (not_not.mpr hunset)]

section
variable {α : Type*} [Inhabited α] {n : ℕ}

theorem MessageQueue.send_zero (hk : k.isInsideInterrupt = false) (q : MessageQueue α n)
    (message : α) :
    NeverBlocks MessageQueue.step (fun q => q.mtx.blockedTasks) (fun q => q.queue.isFull = true)
      (.sent .errorQueueFull) k q (.send message 0) := by
  by_cases hfull : q.queue.isFull = true
  · have hstart : alone MessageQueue.step (.send message 0) (k, q) =
        ((k, q), .ret (.sent .errorQueueFull)) := by
      simp only [alone, MessageQueue.step, MessageQueue.sendStart]
      rw [hk, if_neg Bool.false_ne_true, if_pos hfull, if_pos trivial]
    exact .of_returns (.of_ret hstart) (.refl k) rfl fun _ => ⟨rfl, rfl⟩
  · have hstart : alone MessageQueue.step (.send message 0) (k, q) =
        ((k, q), .next (.sendRegion message)) := by
      simp only [alone, MessageQueue.step, MessageQueue.sendStart]
      rw [hk, if_neg Bool.false_ne_true, if_neg hfull]
    have hregion : alone MessageQueue.step (.sendRegion message) (k, q) =
        ((k.enterCritical.exitCritical, { q with queue := q.queue.enqueue message }),
          .ret (.sent .success)) := rfl
    exact .of_returns (.of_next hstart (.of_ret hregion)) (Kernel.sameSchedule_region k) rfl
      fun hun => absurd hun hfull

theorem MessageQueue.receive_zero (hk : k.isInsideInterrupt = false) (q : MessageQueue α n) :
    NeverBlocks MessageQueue.step (fun q => q.mtx.blockedTasks) (fun q => q.queue.isEmpty = true)
      (.received .errorQueueEmpty none) k q (.receive 0) := by
  by_cases hempty : q.queue.isEmpty = true
  · have hstart : alone MessageQueue.step (.receive 0) (k, q) =
        ((k, q), .ret (.received .errorQueueEmpty none)) := by
      simp only [alone, MessageQueue.step]
      rw [hk, if_neg Bool.false_ne_true, if_pos hempty, if_pos trivial]
    exact .of_returns (.of_ret hstart) (.refl k) rfl fun _ => ⟨rfl, rfl⟩
  · have hstart : alone MessageQueue.step (.receive 0) (k, q) =
        ((k, q), .next .receiveRegion) := by
      simp only [alone, MessageQueue.step]
      rw [hk, if_neg Bool.false_ne_true, if_neg hempty]
    have hregion : alone MessageQueue.step .receiveRegion (k, q) =
        ((k.enterCritical.exitCritical, { q with queue := q.queue.dequeue.2 }),
          .ret (.received .success (some q.queue.dequeue.1))) := rfl
    exact .of_returns (.of_next hstart (.of_ret hregion)) (Kernel.sameSchedule_region k) rfl
      fun hun => absurd hun hempty

end

/-! ## The mutex -/

namespace Mutex
variable {m : Mutex}

/-- What `acquire` reports with timeout zero when another task or the caller has the mutex. -/
def refusal (k : Kernel) (m : Mutex) : MutexResult :=
  if m.owner = some k.currentTask then .alreadyOwned else .timeout

theorem alone_acquire (k : Kernel) (m : Mutex) : alone Mutex.step (.acquire 0) (k, m) =
    ((k.assert (!k.isInsideInterrupt), m),
      if m.owner = some k.currentTask then .ret .alreadyOwned
      else .next (.acquireStart 0 k.currentTask)) := by
  simp only [alone, Mutex.step]
  have hcurrent : (k.assert (!k.isInsideInterrupt)).currentTask = k.currentTask := rfl
  rw [hcurrent]
  split_ifs <;> rfl

theorem alone_acquireStart {t : TaskPtr} (hk : k.isInsideInterrupt = false) :
    alone Mutex.step (.acquireStart 0 t) (k, m) =
      ((k, m), .next (.acquireLoop false (k.getTickCount % 2 ^ 64) t)) := by
  simp only [alone, Mutex.step]
  rw [hk, if_neg Bool.false_ne_true, Nat.zero_add]
  rfl

theorem acquire_zero (hk : k.isInsideInterrupt = false)
    (h : m.count ≤ 0 ∨ m.owner = some k.currentTask) :
    NeverBlocks Mutex.step Mutex.blockedTasks (fun m => 0 < m.count) (refusal k m) k m
      (.acquire 0) := by
  have hsame := Kernel.sameSchedule_assert k (!k.isInsideInterrupt)
  have hstart := alone_acquire k m
  have hinside : (k.assert (!k.isInsideInterrupt)).isInsideInterrupt = false := hk
  generalize k.assert (!k.isInsideInterrupt) = k₁ at hsame hstart hinside
  by_cases ho : m.owner = some k.currentTask
  · rw [if_pos ho] at hstart
    refine .of_returns (.of_ret hstart) hsame rfl ?_
    intro _
    unfold refusal
    rw [if_pos ho]
    exact ⟨rfl, rfl⟩
  · have hc : m.count ≤ 0 := h.resolve_right ho
    rw [if_neg ho] at hstart
    obtain ⟨-, hr⟩ | ⟨hpos, -⟩ | ⟨hpos, -⟩ | ⟨hpos, -⟩ := acquireRegion_cases k₁ m false
      (k₁.getTickCount % 2 ^ 64) k.currentTask
    · have hregion : alone Mutex.step
          (.acquireLoop false (k₁.getTickCount % 2 ^ 64) k.currentTask) (k₁, m) =
          ((k₁.enterCritical.enterCritical.exitCritical,
            { m with count := m.count + 1, owner := some k.currentTask }), .ret .success) := by
        simp only [alone, Mutex.step, hr]
      have hsame' := (hsame.trans (Kernel.sameSchedule_enterCritical k₁)).trans
        (Kernel.sameSchedule_region _)
      refine .of_returns (.of_next hstart (.of_next (alone_acquireStart hinside) (.of_ret hregion)))
        hsame' rfl ?_
      intro hpos
      omega
    all_goals omega

/-- The loop at a fixed tick, with the mutex taken. -/
def Circles (t : TaskPtr) (tick : ℕ) (c : Call) (s : Kernel × Mutex) : Prop :=
  0 < s.2.count ∧ s.1.getTickCount = tick ∧
    (c = .acquireLoop false tick t ∨ c = .acquireYield false tick t)

theorem acquireRegion_waits {k : Kernel} {m : Mutex} {f : Bool} {e : ℕ} {p : TaskPtr}
    (hc : 0 < m.count) (ht : timedOut k f e = false) :
    ∃ k' m', acquireRegion k m f e p = (k', m', .next (.acquireYield f e p)) ∧
      m'.count = m.count ∧ k'.getTickCount = k.getTickCount := by
  have htick : (inheritPriority k.enterCritical m p).getTickCount = k.getTickCount := by
    rw [getTickCount_inheritPriority, Kernel.getTickCount_enterCritical]
  obtain ⟨hc', -⟩ | ⟨-, ht', -⟩ | ⟨-, -, -, hr⟩ | ⟨-, -, -, hr⟩ := acquireRegion_cases k m f e p
  · omega
  · rw [ht] at ht'
    cases ht'
  · refine ⟨_, _, hr, rfl, ?_⟩
    rw [Kernel.getTickCount_exitCritical, getTickCount_blockSelf, htick]
  · refine ⟨_, _, hr, rfl, ?_⟩
    rw [Kernel.getTickCount_exitCritical, htick]

theorem Circles.step {t : TaskPtr} {tick : ℕ} {c : Call} {s : Kernel × Mutex}
    (h : Circles t tick c s) :
    ∃ c' s', alone Mutex.step c s = (s', .next c') ∧ Circles t tick c' s' := by
  obtain ⟨k, m⟩ := s
  obtain ⟨hc, htick, rfl | rfl⟩ := h
  · have htime : timedOut k false tick = false := by
      unfold timedOut
      rw [← htick]
      simp
    obtain ⟨k', m', hr, hcount, hsame⟩ := acquireRegion_waits (p := t) hc htime
    refine ⟨.acquireYield false tick t, (k', m'), ?_, ?_, hsame.trans htick, .inr rfl⟩
    · simp only [alone, Mutex.step, hr]
    · show 0 < m'.count
      rw [hcount]
      exact hc
  · refine ⟨.acquireLoop false tick t, (k.yield, m), rfl, hc, ?_, .inl rfl⟩
    rw [Kernel.getTickCount_yield]
    exact htick

/-- Alone, a task that finds the mutex taken goes round the loop for ever, since no time
passes. -/
theorem acquire_zero_never_returns (hk : k.isInsideInterrupt = false)
    (htick : k.getTickCount < 2 ^ 64) (hc : 0 < m.count) (ho : m.owner ≠ some k.currentTask)
    {s : Kernel × Mutex} {r : MutexResult} :
    ¬ Returns (alone Mutex.step) (.acquire 0) (k, m) s r := by
  intro hr
  have hstart := alone_acquire k m
  rw [if_neg ho] at hstart
  have hinside : (k.assert (!k.isInsideInterrupt)).isInsideInterrupt = false := hk
  have htime := Kernel.getTickCount_assert k (!k.isInsideInterrupt)
  generalize k.assert (!k.isInsideInterrupt) = k₁ at hstart hinside htime
  have hloop := (hr.next hstart).next (alone_acquireStart hinside)
  rw [htime, Nat.mod_eq_of_lt htick] at hloop
  have hcircles : Circles k.currentTask k.getTickCount
      (.acquireLoop false k.getTickCount k.currentTask) (k₁, m) := ⟨hc, htime, .inl rfl⟩
  exact not_returns (fun c s hs => hs.step) hcircles hloop

end Mutex

/-- None of the five calls blocks with timeout zero, if the mutex is free or its owner is the
calling task; and `acquire` does otherwise. Tick counts have 64 bits. -/
theorem zero_timeout_iff {α : Type*} [Inhabited α] {n : ℕ} (hk : k.isInsideInterrupt = false)
    (htick : k.getTickCount < 2 ^ 64) (s : Semaphore) (m : Mutex) (g : EventGroup)
    (flags : BitVec 32) (q : MessageQueue α n) (message : α) :
    (NeverBlocks Semaphore.step Semaphore.waitingQueue (fun s => s.count = 0) .timeout k s
        (.wait 0) ∧
      NeverBlocks Mutex.step Mutex.blockedTasks (fun m => 0 < m.count) (Mutex.refusal k m) k m
        (.acquire 0) ∧
      NeverBlocks EventGroup.step EventGroup.waitingTasks (fun g => g.eventFlags &&& flags = 0)
        (.value false) k g (.waitForEvents flags 0) ∧
      NeverBlocks MessageQueue.step (fun q => q.mtx.blockedTasks)
        (fun q => q.queue.isFull = true) (.sent .errorQueueFull) k q (.send message 0) ∧
      NeverBlocks MessageQueue.step (fun q => q.mtx.blockedTasks)
        (fun q => q.queue.isEmpty = true) (.received .errorQueueEmpty none) k q (.receive 0)) ↔
      m.count ≤ 0 ∨ m.owner = some k.currentTask := by
  constructor
  · rintro ⟨-, ⟨k', m', r, hr, -⟩, -⟩
    by_contra hno
    rw [not_or] at hno
    exact Mutex.acquire_zero_never_returns hk htick (by omega) hno.2 hr
  · intro h
    exact ⟨Semaphore.wait_zero hk s, Mutex.acquire_zero hk h,
      EventGroup.waitForEvents_zero k g flags, MessageQueue.send_zero hk q message,
      MessageQueue.receive_zero hk q⟩

def twoTasks : Kernel where
  currentTask := 1
  idleTask := 0
  taskData := fun t =>
    if t = 1 then { priority := .high, basePriority := .high, state := .eRunning, id := 1 }
    else { priority := .low, basePriority := .low, id := 2 }

/-- A mutex that task 1 owns is refused to it, and the other objects have nothing to give. -/
theorem zero_timeout_owned :
    NeverBlocks Mutex.step Mutex.blockedTasks (fun m => 0 < m.count) .alreadyOwned twoTasks
      { Mutex.new with count := 1, owner := some 1 } (.acquire 0) :=
  ((zero_timeout_iff (α := ℕ) (n := 1) (k := twoTasks) rfl (by decide) (Semaphore.new 1 0)
    { Mutex.new with count := 1, owner := some 1 } EventGroup.new 5 MessageQueue.new 7).mpr
    (.inr rfl)).2.1

/-- Task 1 asks for a mutex of task 2 with timeout zero. It is blocked and queued, the owner has
got its priority, and alone the call does not return. -/
theorem zero_timeout_blocks :
    let m : Mutex := { Mutex.new with count := 1, owner := some 2 }
    let s := (after (alone Mutex.step) 3 (.acquire 0) (twoTasks, m)).1
    twoTasks.getState 1 = .eRunning ∧ s.1.getState 1 = .eBlocked ∧
      s.2.blockedTasks.toList = [some 1] ∧ s.1.getPriority 2 = .high ∧
      ¬ NeverBlocks Mutex.step Mutex.blockedTasks (fun m => 0 < m.count)
        (Mutex.refusal twoTasks m) twoTasks m (.acquire 0) := by
  intro m s
  refine ⟨by decide, by decide +kernel, by decide +kernel, by decide +kernel, ?_⟩
  rintro ⟨k', m', r, hr, -⟩
  exact Mutex.acquire_zero_never_returns rfl (by decide) (by decide) (by decide) hr

end CppRtos
