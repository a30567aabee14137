import CppRtos.Kernel.Tables
import CppRtos.MessageQueue
import CppRtos.System

/-! The nesting of critical sections in every operation that opens one. -/
namespace CppRtos

/-! ## Operations of the kernel -/
namespace Kernel
variable {k : Kernel} {c : ℕ}

theorem depth_enterCritical (h : k.port.Depth c) (hc : c + 1 < 2 ^ 32) :
    k.enterCritical.port.Depth (c + 1) := h.enterCritical hc

theorem at_exitCritical (h : k.port.Depth (c + 1)) (hc : c + 1 < 2 ^ 32) :
    k.exitCritical.port.At c := h.exitCritical hc

theorem at_yield (h : k.port.Depth c) (hc : c + 1 < 2 ^ 32) : k.yield.port.At c := h.yield hc

theorem depth_taskYield (h : k.port.Depth c) (hc : c + 1 < 2 ^ 32) :
    k.taskYield.port.Depth c := by
  unfold taskYield
  dsimp only
  split_ifs
  · exact (Port.Depth.yield h hc).toDepth
  · exact h

theorem at_taskYield (h : k.port.At c) (hc : c + 1 < 2 ^ 32) : k.taskYield.port.At c := by
  unfold taskYield
  dsimp only
  split_ifs
  · exact Port.Depth.yield h.toDepth hc
  · exact h

theorem port_switchTo (k : Kernel) (p i : ℕ) : (k.switchTo p i).port = k.port := by
  unfold switchTo
  cases k.tasks i with
  | none => rfl
  | some t =>
    simp only [clearReadyBit, setState, modifyTask]
    split_ifs
    · exact port_setTaskReady k _
    · rfl

theorem at_selectHighestPriorityTask (h : k.port.Depth c) (hc : c + 1 < 2 ^ 32) :
    k.selectHighestPriorityTask.port.At c := by
  have hin := depth_enterCritical h hc
  obtain ⟨-, hs⟩ | ⟨p, i, -, hs⟩ := k.select_cases
  · rw [hs]
    exact at_exitCritical hin hc
  · rw [hs]
    exact at_exitCritical (by rwa [port_switchTo]) hc

theorem at_addTask (h : k.port.At c) (hc : c + 1 < 2 ^ 32) (t : TaskPtr) :
    (k.addTask t).port.At c := by
  unfold addTask
  split_ifs with hfull
  · apply at_exitCritical _ hc
    split_ifs <;> exact (Port.Depth.enterCritical h.toDepth hc).initialiseStack _
  · exact h

theorem depth_checkAndTrigger (h : k.port.Depth c) (hc : c + 1 < 2 ^ 32) (a : AlarmPtr) :
    (k.checkAndTrigger a).port.Depth c := by
  unfold checkAndTrigger
  dsimp only
  split_ifs
  · cases (k.alarmData a).taskToActivate with
    | none => cases (k.alarmData a).callback <;> exact h
    | some t =>
      dsimp only
      split_ifs
      · exact depth_taskYield h hc
      · exact h
  · exact h

theorem port_wakeUp (now : ℕ) (k : Kernel) (i : ℕ) : (wakeUp now k i).port = k.port := by
  unfold wakeUp
  split_ifs
  · exact port_setTaskReady k _
  · rfl

theorem port_tickTimer (k : Kernel) (t : TimerPtr) : (k.tickTimer t).port = k.port := by
  unfold tickTimer
  dsimp only
  split_ifs
  · cases (k.timerData t).callback <;> rfl
  · rfl

theorem depth_tick (h : k.port.Depth c) (hc : c + 1 < 2 ^ 32) : k.tick.port.Depth c := by
  apply tick_induction (P := fun k' : Kernel => k'.port.Depth c) h
  · intro now k' i hk'
    rwa [port_wakeUp]
  · intro k' t hk'
    rwa [port_tickTimer]
  · exact fun _ _ hk' => hk'
  · exact fun k' a hk' => depth_checkAndTrigger hk' hc a

theorem at_sysTickHandler (h : k.port.At c) (hc : c + 1 < 2 ^ 32) :
    k.sysTickHandler.port.At c := by
  have htick := depth_tick (k := { k with port :=
    ({ k.port with masked := true, insideInterrupt := true } : Port).incrementTickCount })
    ⟨h.nestingCounter, h.exitUnderflow⟩ hc
  exact ⟨⟨htick.nestingCounter, htick.exitUnderflow⟩, fun _ => rfl⟩

theorem at_pendSVHandler (h : k.port.At c) (hc : c + 1 < 2 ^ 32) :
    k.pendSVHandler.port.At c := by
  have hselect := at_selectHighestPriorityTask
    (k := { k with port := { k.port with pendSV := false, masked := true } })
    ⟨h.nestingCounter, h.exitUnderflow⟩ hc
  exact ⟨⟨hselect.nestingCounter, hselect.exitUnderflow⟩, fun _ => rfl⟩

end Kernel

/-! ## Operations of the objects -/

theorem Mutex.port_inheritPriority (k : Kernel) (m : Mutex) (p : TaskPtr) :
    (inheritPriority k m p).port = k.port := by
  unfold inheritPriority
  cases m.owner with
  | none => rfl
  | some o =>
    dsimp only
    split_ifs <;> rfl

theorem Mutex.port_blockSelf (k : Kernel) (p : TaskPtr) : (blockSelf k p).port = k.port := by
  unfold blockSelf
  split_ifs
  · exact Kernel.port_resetTaskReady k p _
  · rfl

theorem Mutex.step_at {k : Kernel} {c : ℕ} (h : k.port.At c) (hc : c + 1 < 2 ^ 32) (m : Mutex)
    {call : Mutex.Call} (hn : ¬ m.Takes call) : (step k m call).1.port.At c := by
  have hin := Kernel.depth_enterCritical h.toDepth hc
  cases call with
  | acquireLoop f e p =>
    simp only [step]
    obtain ⟨h0, -⟩ | ⟨-, -, hr⟩ | ⟨-, -, -, hr⟩ | ⟨-, -, -, hr⟩ := acquireRegion_cases k m f e p
    · exact absurd h0 hn
    all_goals
      rw [hr]
      refine Kernel.at_exitCritical ?_ hc
      simpa only [port_blockSelf, port_inheritPriority] using hin
  | releaseRegion p =>
    simp only [step]
    obtain ⟨-, hr⟩ | ⟨-, -, hr⟩ | ⟨-, t, -, b, d, -, hr⟩ := releaseRegion_cases k m p
    · rw [hr]
      exact Kernel.at_exitCritical hin hc
    · rw [hr]
      exact Kernel.at_exitCritical hin hc
    · rw [hr]
      have hready : (k.enterCritical.setTaskReady (some t)).port.Depth (c + 1) := by
        rwa [Kernel.port_setTaskReady]
      rw [Kernel.port_assert]
      refine Kernel.at_exitCritical ?_ hc
      split_ifs
      · exact hready
      · exact hready
  | acquire n => simp only [step]; split_ifs <;> exact h
  | acquireStart n p => simp only [step]; split_ifs <;> exact h
  | acquireYield f e p => exact Kernel.at_yield h.toDepth hc
  | release => simp only [step]; split_ifs <;> exact h
  | releaseOwner => simp only [step]; split_ifs <;> exact h
  | releaseYield => exact Kernel.at_yield h.toDepth hc
  | releaseReturn => exact h

theorem Mutex.step_takes {k : Kernel} {c : ℕ} (h : k.port.At c) (hc : c + 1 < 2 ^ 32)
    {m : Mutex} {call : Mutex.Call} (ht : m.Takes call) :
    (step k m call).1.port.nestingCounter = c + 1 := by
  cases call with
  | acquireLoop f e p =>
    have h0 : m.count ≤ 0 := ht
    have hr : (acquireRegion k m f e p).1 = k.enterCritical.enterCritical.exitCritical := by
      simp only [acquireRegion, if_pos h0]
    simp only [step, hr]
    exact Port.nestingCounter_enter_enter_exit h.nestingCounter hc
  | _ => exact ht.elim

theorem Semaphore.at_signalRegion {k : Kernel} {c : ℕ} (h : k.port.At c) (hc : c + 1 < 2 ^ 32)
    (s : Semaphore) : (signalRegion k s).1.port.At c := by
  have hin := Kernel.depth_enterCritical h.toDepth hc
  unfold signalRegion
  dsimp only
  split_ifs
  · exact Kernel.at_exitCritical (by rwa [Kernel.port_setTaskReady]) hc
  · exact Kernel.at_exitCritical hin hc
  · exact Kernel.at_exitCritical hin hc

theorem Semaphore.port_flushLoop (n : ℕ) (k : Kernel) (s : Semaphore) :
    (flushLoop n k s).1.port = k.port := by
  induction n generalizing k s with
  | zero => rfl
  | succ n ih =>
    unfold flushLoop
    split_ifs
    · exact (ih _ _).trans (Kernel.port_setTaskReady k _)
    · rfl

theorem Semaphore.at_flushRegion {k : Kernel} {c : ℕ} (h : k.port.At c) (hc : c + 1 < 2 ^ 32)
    (s : Semaphore) : (flushRegion k s).1.port.At c := by
  have hin := Kernel.depth_enterCritical h.toDepth hc
  unfold flushRegion
  exact Kernel.at_exitCritical (by rwa [port_flushLoop]) hc

theorem Semaphore.step_at {k : Kernel} {c : ℕ} (h : k.port.At c) (hc : c + 1 < 2 ^ 32)
    (s : Semaphore) (call : Semaphore.Call) : (step k s call).1.port.At c := by
  have hin := Kernel.depth_enterCritical h.toDepth hc
  cases call with
  | wait n => simp only [step]; split_ifs <;> exact h
  | waitRegion n e =>
    simp only [step]
    obtain ⟨-, hr⟩ | ⟨-, hr⟩ | ⟨-, hr⟩ := waitRegion_cases k s n e
    · rw [hr]
      exact Kernel.at_exitCritical hin hc
    · rw [hr]
      exact Kernel.at_exitCritical hin hc
    · rw [hr]
      exact Kernel.at_exitCritical (by rwa [Kernel.port_resetTaskReady]) hc
  | waitYield => exact Kernel.at_yield h.toDepth hc
  | waitReturn => exact h
  | signal => exact at_signalRegion h hc s
  | signalReady => exact h
  | signalWord p =>
    simp only [step, Kernel.port_setReadyWord]
    exact h
  | signalBitmap p => exact h
  | signalYield => exact Kernel.at_yield h.toDepth hc
  | signalReturn => exact h
  | flush => exact at_flushRegion h hc s

theorem EventGroup.port_setLoop (n i : ℕ) (k : Kernel) (g : EventGroup) :
    (setLoop n i k g).1.port = k.port := by
  induction n generalizing i k g with
  | zero => rfl
  | succ n ih =>
    unfold setLoop
    split_ifs with hi
    · cases g.waitingTasks.getAt i with
      | none => exact ih _ _ _
      | some t =>
        dsimp only
        split_ifs
        · exact (ih _ _ _).trans (Kernel.port_setTaskReady k _)
        · exact ih _ _ _
    · rfl

theorem EventGroup.at_setRegion {k : Kernel} {c : ℕ} (h : k.port.At c) (hc : c + 1 < 2 ^ 32)
    (g : EventGroup) (flags : BitVec 32) : (setRegion k g flags).1.port.At c := by
  have hin := Kernel.depth_enterCritical h.toDepth hc
  unfold setRegion
  exact Kernel.at_exitCritical (by rwa [port_setLoop]) hc

theorem EventGroup.at_clearRegion {k : Kernel} {c : ℕ} (h : k.port.At c) (hc : c + 1 < 2 ^ 32)
    (g : EventGroup) (flags : BitVec 32) : (clearRegion k g flags).1.port.At c :=
  Kernel.at_exitCritical (Kernel.depth_enterCritical h.toDepth hc) hc

theorem EventGroup.step_at {k : Kernel} {c : ℕ} (h : k.port.At c) (hc : c + 1 < 2 ^ 32)
    (g : EventGroup) (call : EventGroup.Call) : (step k g call).1.port.At c := by
  have hin := Kernel.depth_enterCritical h.toDepth hc
  cases call with
  | waitForEvents f t =>
    simp only [step, waitRegion]
    split_ifs <;> exact Kernel.at_exitCritical hin hc
  | waitYield f e t => exact Kernel.at_yield h.toDepth hc
  | waitLoop f e t =>
    simp only [step, loopRegion]
    split_ifs <;> exact Kernel.at_exitCritical hin hc
  | setEvents f => exact at_setRegion h hc g f
  | setYield => exact Kernel.at_yield h.toDepth hc
  | setReturn => exact h
  | clearEvents f => exact at_clearRegion h hc g f

theorem TaskCall.step_at {k : Kernel} {c : ℕ} (h : k.port.At c) (hc : c + 1 < 2 ^ 32)
    (call : TaskCall) : (step k call).1.port.At c := by
  cases call with
  | sleep t n =>
    exact Kernel.at_exitCritical
      (Kernel.depth_enterCritical (k := k.assert (!k.isInsideInterrupt)) h.toDepth hc) hc
  | sleepYield => exact Kernel.at_yield h.toDepth hc
  | yield => exact Kernel.at_taskYield h hc
  | yieldReturn => exact h

theorem MessageQueue.step_at {α : Type*} [Inhabited α] {n : ℕ} {k : Kernel} {c : ℕ}
    (h : k.port.At c) (hc : c + 1 < 2 ^ 32) (q : MessageQueue α n) {call : MessageQueue.Call α}
    (hn : ∀ m t u d, call = .sendMutex m t u d → ¬ q.mtx.Takes d) :
    (step k q call).1.port.At c := by
  have hregion := Kernel.at_exitCritical (Kernel.depth_enterCritical h.toDepth hc) hc
  cases call with
  | send m t => exact h
  | sendMutex m t u d => exact Mutex.step_at h hc q.mtx (hn m t u d rfl)
  | sendEnd m t => exact h
  | sendLoop m t e => simp only [step]; split_ifs <;> exact h
  | sendTime m t e => simp only [step]; split_ifs <;> exact h
  | sendYield m t e => exact Kernel.at_yield h.toDepth hc
  | sendRegion m => exact hregion
  | receive t => simp only [step]; split_ifs <;> exact h
  | receiveEnd t => exact h
  | receiveLoop t e => simp only [step]; split_ifs <;> exact h
  | receiveTime t e => simp only [step]; split_ifs <;> exact h
  | receiveYield t e => exact Kernel.at_yield h.toDepth hc
  | receiveRegion => exact hregion
  | getNumMsg => exact hregion

end CppRtos
