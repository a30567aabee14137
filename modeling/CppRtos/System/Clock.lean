import CppRtos.EventGroup.Waiting
import CppRtos.Kernel.Tables
import CppRtos.System.Accounting

/-! Time passes in the tick handler only: no step of a call and no other interrupt changes
the tick count. -/
namespace CppRtos

namespace Kernel

theorem getTickCount_port (k : Kernel) (p : Port) :
    ({ k with port := p } : Kernel).getTickCount = p.tickCount := rfl

@[simp] theorem getTickCount_enterCritical (k : Kernel) :
    k.enterCritical.getTickCount = k.getTickCount := by
  unfold enterCritical
  rw [getTickCount_port]
  exact Port.tickCount_enterCritical k.port

@[simp] theorem getTickCount_exitCritical (k : Kernel) :
    k.exitCritical.getTickCount = k.getTickCount := by
  unfold exitCritical
  rw [getTickCount_port]
  exact Port.tickCount_exitCritical k.port

@[simp] theorem getTickCount_yield (k : Kernel) : k.yield.getTickCount = k.getTickCount := by
  unfold yield
  rw [getTickCount_port]
  exact Port.tickCount_yield k.port

@[simp] theorem getTickCount_assert (k : Kernel) (b : Bool) :
    (k.assert b).getTickCount = k.getTickCount := rfl

@[simp] theorem getTickCount_modifyTask (k : Kernel) (t : TaskPtr) (f : TaskData → TaskData) :
    (k.modifyTask t f).getTickCount = k.getTickCount := rfl

@[simp] theorem getTickCount_setState (k : Kernel) (t : TaskPtr) (s : TaskStateType) :
    (k.setState t s).getTickCount = k.getTickCount := rfl

@[simp] theorem getTickCount_clearReadyBit (k : Kernel) (p i : ℕ) :
    (k.clearReadyBit p i).getTickCount = k.getTickCount := rfl

@[simp] theorem getTickCount_addSleepingTask (k : Kernel) (t : TaskPtr) (n : ℕ) :
    (k.addSleepingTask t n).getTickCount = k.getTickCount := rfl

@[simp] theorem getTickCount_setTaskReady (k : Kernel) (t : Option TaskPtr) :
    (k.setTaskReady t).getTickCount = k.getTickCount :=
  congrArg Port.tickCount (port_setTaskReady k t)

@[simp] theorem getTickCount_resetTaskReady (k : Kernel) (t : TaskPtr) (s : TaskStateType) :
    (k.resetTaskReady (some t) s).getTickCount = k.getTickCount := by
  simp only [resetTaskReady, getTickCount_setState]
  split_ifs <;> simp

@[simp] theorem getTickCount_taskYield (k : Kernel) :
    k.taskYield.getTickCount = k.getTickCount := by
  unfold taskYield
  dsimp only
  split_ifs <;> simp

theorem getTickCount_switchTo (k : Kernel) (p i : ℕ) :
    (k.switchTo p i).getTickCount = k.getTickCount := by
  unfold switchTo
  split
  · rw [getTickCount_assert]
  · have hcur : ∀ (k' : Kernel) (t : TaskPtr),
        ({ k' with currentTask := t } : Kernel).getTickCount = k'.getTickCount :=
      fun _ _ => rfl
    rw [getTickCount_clearReadyBit, hcur, getTickCount_setState]
    split_ifs <;> simp

theorem getTickCount_selectHighestPriorityTask (k : Kernel) :
    k.selectHighestPriorityTask.getTickCount = k.getTickCount := by
  unfold selectHighestPriorityTask
  dsimp only
  split <;> simp [getTickCount_switchTo]

theorem getTickCount_pendSVHandler (k : Kernel) :
    k.pendSVHandler.getTickCount = k.getTickCount := by
  unfold pendSVHandler
  dsimp only
  rw [getTickCount_port]
  exact (getTickCount_selectHighestPriorityTask _).trans (getTickCount_port k _)

theorem getTickCount_addTask (k : Kernel) (t : TaskPtr) :
    (k.addTask t).getTickCount = k.getTickCount := by
  have hframe : ∀ (p : Port) (top : ℕ), (p.initialiseStack top).1.tickCount = p.tickCount := by
    intro p top
    simp only [Port.initialiseStack, Port.push, List.foldl_cons, List.foldl_nil]
  unfold addTask
  dsimp only
  split_ifs
  all_goals first | rw [getTickCount_exitCritical] | rfl
  all_goals
    unfold getTickCount
    simp only [setReadyBit, assert, modifyTask, hframe]
    exact getTickCount_enterCritical _

/-! ## The tick -/

theorem getTickCount_wakeUp (now : ℕ) (k : Kernel) (i : ℕ) :
    (k.wakeUp now i).getTickCount = k.getTickCount := by
  unfold wakeUp
  split_ifs
  · exact getTickCount_setTaskReady k (k.tasks i)
  · rfl

theorem getTickCount_tickTimer (k : Kernel) (timer : TimerPtr) :
    (k.tickTimer timer).getTickCount = k.getTickCount := by
  unfold tickTimer
  dsimp only
  split_ifs
  · cases (k.timerData timer).callback <;> rfl
  · rfl

theorem getTickCount_checkAndTrigger (k : Kernel) (a : AlarmPtr) :
    (k.checkAndTrigger a).getTickCount = k.getTickCount := by
  have hdata : ∀ d, ({ k with alarmData := d } : Kernel).getTickCount = k.getTickCount :=
    fun _ => rfl
  unfold checkAndTrigger
  dsimp only
  split_ifs
  · cases (k.alarmData a).taskToActivate with
    | none => cases (k.alarmData a).callback <;> rfl
    | some t =>
      dsimp only
      split_ifs
      · rw [getTickCount_taskYield, getTickCount_setState, hdata]
      · exact hdata _
  · rfl

theorem getTickCount_tick (k : Kernel) : k.tick.getTickCount = k.getTickCount := by
  apply tick_induction (P := fun k' => k'.getTickCount = k.getTickCount) rfl
  · exact fun now k' i hk' => (getTickCount_wakeUp now k' i).trans hk'
  · exact fun k' t hk' => (getTickCount_tickTimer k' t).trans hk'
  · exact fun _ _ hk' => hk'
  · exact fun k' a hk' => (getTickCount_checkAndTrigger k' a).trans hk'

theorem getTickCount_sysTickHandler (k : Kernel) :
    k.sysTickHandler.getTickCount = (k.getTickCount + 1) % 2 ^ 64 := by
  unfold sysTickHandler
  dsimp only
  rw [getTickCount_port]
  refine (getTickCount_tick _).trans ?_
  rw [getTickCount_port]
  unfold Port.incrementTickCount getTickCount
  dsimp only

end Kernel

/-! ## Calls -/
namespace Semaphore

theorem getTickCount_signalRegion (k : Kernel) (s : Semaphore) :
    (signalRegion k s).1.getTickCount = k.getTickCount := by
  by_cases hs : s.waitingQueue.size = 0
  · rw [signalRegion_of_empty hs]
    simp
  · rw [signalRegion_of_queued (by omega)]
    simp

theorem getTickCount_flushLoop (n : ℕ) (k : Kernel) (s : Semaphore) :
    (flushLoop n k s).1.getTickCount = k.getTickCount := by
  induction n generalizing k s with
  | zero => rfl
  | succ n ih =>
    unfold flushLoop
    split_ifs
    · exact (ih _ _).trans (Kernel.getTickCount_setTaskReady k _)
    · rfl

theorem getTickCount_flushRegion (k : Kernel) (s : Semaphore) :
    (flushRegion k s).1.getTickCount = k.getTickCount := by
  unfold flushRegion
  simp [getTickCount_flushLoop]

theorem getTickCount_step (k : Kernel) (s : Semaphore) (c : Call) :
    (step k s c).1.getTickCount = k.getTickCount := by
  cases c with
  | wait n =>
    simp only [step]
    split_ifs <;> rfl
  | waitRegion n e =>
    simp only [step]
    obtain ⟨-, hr⟩ | ⟨-, hr⟩ | ⟨-, hr⟩ := waitRegion_cases k s n e <;> rw [hr] <;> simp
  | waitYield => exact Kernel.getTickCount_yield k
  | waitReturn => rfl
  | signal => exact getTickCount_signalRegion k s
  | signalReady => rfl
  | signalWord p => exact congrArg Port.tickCount (Kernel.port_setReadyWord k p)
  | signalBitmap p => rfl
  | signalYield => exact Kernel.getTickCount_yield k
  | signalReturn => rfl
  | flush => exact getTickCount_flushRegion k s

end Semaphore

namespace EventGroup

theorem getTickCount_setLoop (n i : ℕ) (k : Kernel) (g : EventGroup) :
    (setLoop n i k g).1.getTickCount = k.getTickCount := by
  induction n generalizing i k g with
  | zero => rfl
  | succ n ih =>
    unfold setLoop
    split_ifs
    · split
      · exact (ih _ _ _).trans (Kernel.getTickCount_assert k _)
      · split_ifs
        · refine (ih _ _ _).trans ?_
          rw [Kernel.getTickCount_modifyTask, Kernel.getTickCount_setTaskReady]
        · exact ih _ _ _
    · rfl

theorem getTickCount_setRegion (k : Kernel) (g : EventGroup) (f : BitVec 32) :
    (setRegion k g f).1.getTickCount = k.getTickCount := by
  unfold setRegion
  simp [getTickCount_setLoop]

theorem getTickCount_step (k : Kernel) (g : EventGroup) (c : Call) :
    (step k g c).1.getTickCount = k.getTickCount := by
  cases c with
  | waitForEvents f n =>
    simp only [step, waitRegion]
    split_ifs <;> simp
  | waitYield f e p => exact Kernel.getTickCount_yield k
  | waitLoop f e p =>
    simp only [step, loopRegion]
    split_ifs <;> simp
  | setEvents f => exact getTickCount_setRegion k g f
  | setYield => exact Kernel.getTickCount_yield k
  | setReturn => rfl
  | clearEvents f => simp [step, clearRegion]

end EventGroup

namespace Mutex

theorem getTickCount_inheritPriority (k : Kernel) (m : Mutex) (p : TaskPtr) :
    (inheritPriority k m p).getTickCount = k.getTickCount := by
  unfold inheritPriority
  split
  · rfl
  · split_ifs <;> rfl

theorem getTickCount_blockSelf (k : Kernel) (p : TaskPtr) :
    (blockSelf k p).getTickCount = k.getTickCount := by
  unfold blockSelf
  split_ifs
  · exact Kernel.getTickCount_resetTaskReady k p _
  · rfl

theorem getTickCount_releaseRegion (k : Kernel) (m : Mutex) (p : TaskPtr) :
    (releaseRegion k m p).1.getTickCount = k.getTickCount := by
  obtain ⟨-, hr⟩ | ⟨-, -, hr⟩ | ⟨-, t, -, b, c, -, hr⟩ := releaseRegion_cases k m p <;>
    rw [hr]
  · simp
  · simp
  · rw [Kernel.getTickCount_assert, Kernel.getTickCount_exitCritical]
    split_ifs <;> simp

theorem getTickCount_step (k : Kernel) (m : Mutex) (c : Call) :
    (step k m c).1.getTickCount = k.getTickCount := by
  cases c with
  | acquire n =>
    simp only [step]
    split_ifs <;> rfl
  | acquireStart n p =>
    simp only [step]
    split_ifs <;> rfl
  | acquireLoop f e p =>
    simp only [step]
    obtain ⟨-, hr⟩ | ⟨-, -, hr⟩ | ⟨-, -, -, hr⟩ | ⟨-, -, -, hr⟩ :=
      acquireRegion_cases k m f e p <;> rw [hr] <;>
      simp [getTickCount_blockSelf, getTickCount_inheritPriority]
  | acquireYield f e p => exact Kernel.getTickCount_yield k
  | release =>
    simp only [step]
    split_ifs <;> rfl
  | releaseOwner =>
    simp only [step]
    split_ifs <;> rfl
  | releaseRegion p => exact getTickCount_releaseRegion k m p
  | releaseYield => exact Kernel.getTickCount_yield k
  | releaseReturn => rfl

end Mutex

namespace Objects

theorem getTickCount_step (o : Objects) (c : Call) :
    (o.step c).1.kernel.getTickCount = o.kernel.getTickCount := by
  cases c with
  | task c =>
    cases c with
    | sleep t n =>
      simp only [step, TaskCall.step, TaskCall.sleepRegion, Kernel.getTickCount_exitCritical,
        Kernel.getTickCount_addSleepingTask, Kernel.getTickCount_enterCritical,
        Kernel.getTickCount_assert]
    | sleepYield => exact Kernel.getTickCount_yield o.kernel
    | yield => exact Kernel.getTickCount_taskYield o.kernel
    | yieldReturn => rfl
  | semaphore s c => exact Semaphore.getTickCount_step o.kernel (o.semaphores s) c
  | mutex m c => exact Mutex.getTickCount_step o.kernel (o.mutexes m) c
  | eventGroup g c => exact EventGroup.getTickCount_step o.kernel (o.eventGroups g) c

theorem getTickCount_isr (o : Objects) (c : IsrCall) :
    (o.isr c).kernel.getTickCount = o.kernel.getTickCount := by
  cases c with
  | signal s => exact Semaphore.getTickCount_signalRegion o.kernel (o.semaphores s)
  | flush s => exact Semaphore.getTickCount_flushRegion o.kernel (o.semaphores s)
  | setEvents g f =>
    exact (Kernel.getTickCount_yield _).trans
      (EventGroup.getTickCount_setRegion o.kernel (o.eventGroups g) f)
  | clearEvents g f =>
    exact EventGroup.getTickCount_step o.kernel (o.eventGroups g) (.clearEvents f)

theorem getTickCount_interrupt (o : Objects) (e : Interrupt) :
    (o.interrupt e).kernel.getTickCount =
      if e = .sysTick then (o.kernel.getTickCount + 1) % 2 ^ 64 else o.kernel.getTickCount := by
  cases e with
  | pendSV => exact Kernel.getTickCount_pendSVHandler o.kernel
  | sysTick =>
    rw [if_pos rfl]
    exact Kernel.getTickCount_sysTickHandler o.kernel
  | isr c => exact getTickCount_isr o c
  | addTask t => exact Kernel.getTickCount_addTask o.kernel t

end Objects

end CppRtos
