import CppRtos.Kernel.Independence
import CppRtos.Library.Simulation
import CppRtos.System

/-! No call, neither of a task nor of an interrupt handler, depends on the tables of timers,
counters and alarms, or on the interrupt mask that it meets. -/
namespace CppRtos
open Kernel

theorem TaskCall.withTables_step (T : Tables × List (ℕ × ℕ)) (k : Kernel) (c : TaskCall) :
    (step k c).map (withTables T) id = step (k.withTables T) c := by
  cases c with
  | sleep t n => rfl
  | sleepYield => rfl
  | yield => exact congrArg (·, Outcome.next TaskCall.yieldReturn) (withTables_taskYield T k)
  | yieldReturn => rfl

theorem TaskCall.step_mask (k : Kernel) (b : Bool) (c : TaskCall) :
    ∃ b', step (k.mask b) c = (step k c).map (mask b') id := by
  cases c with
  | sleep t n => exact mask_of_eq rfl
  | sleepYield => exact mask_of_eq rfl
  | yield =>
    obtain h | h := taskYield_mask k b
    · exact mask_of_eq (congrArg (·, Outcome.next TaskCall.yieldReturn) h)
    · exact mask_of_map (congrArg (·, Outcome.next TaskCall.yieldReturn) h.symm)
  | yieldReturn => exact ⟨b, rfl⟩

namespace Semaphore
variable (T : Tables × List (ℕ × ℕ)) (k : Kernel) (p : Port) (s : Semaphore)

theorem withTables_waitRegion (n e : ℕ) :
    (waitRegion k s n e).map (withTables T) id = waitRegion (k.withTables T) s n e := by
  refine map_ite _ Iff.rfl rfl (map_ite _ Iff.rfl rfl (map_ite _ Iff.rfl rfl (Prod.ext ?_ rfl)))
  refine (withTables_exitCritical T _).trans ?_
  rw [withTables_resetTaskReady]
  rfl

theorem withTables_signalRegion :
    (signalRegion k s).map (withTables T) id = signalRegion (k.withTables T) s := by
  refine map_ite _ Iff.rfl (Prod.ext ?_ rfl) (map_ite _ Iff.rfl rfl rfl)
  refine (withTables_exitCritical T _).trans ?_
  rw [withTables_setTaskReady]
  rfl

theorem flushLoop_map {g : Kernel → Kernel}
    (hg : ∀ k t, g (k.setTaskReady t) = (g k).setTaskReady t) (n : ℕ) :
    (flushLoop n k s).map g id = flushLoop n (g k) s := by
  induction n generalizing k s with
  | zero => rfl
  | succ n ih =>
    refine map_ite _ Iff.rfl ?_ rfl
    dsimp only
    rw [ih, hg]

theorem withTables_flushRegion :
    (flushRegion k s).map (withTables T) id = flushRegion (k.withTables T) s := by
  have hloop : (flushLoop s.waitingQueue.getSize k.enterCritical s).map (withTables T) id =
      flushLoop s.waitingQueue.getSize (k.withTables T).enterCritical s :=
    flushLoop_map k.enterCritical s (withTables_setTaskReady T) _
  unfold flushRegion
  dsimp only
  rw [← hloop]
  rfl

theorem withTables_step (c : Call) :
    (step k s c).map (withTables T) id = step (k.withTables T) s c := by
  cases c with
  | wait n => exact map_ite _ Iff.rfl rfl rfl
  | waitRegion n e => exact withTables_waitRegion T k s n e
  | waitYield => rfl
  | waitReturn => rfl
  | signal =>
    have hsignal := withTables_signalRegion T k s
    have hin : (signalRegion (k.withTables T) s).1.isInsideInterrupt =
        (signalRegion k s).1.isInsideInterrupt := by
      rw [← hsignal, isInsideInterrupt_withTables]
    unfold step
    dsimp only
    rw [hin, ← hsignal]
    rfl
  | signalReady => rfl
  | signalWord p => exact Prod.ext (withTables_setReadyWord T k p) rfl
  | signalBitmap p => rfl
  | signalYield => rfl
  | signalReturn => rfl
  | flush =>
    have hflush := withTables_flushRegion T k s
    have hin : (flushRegion (k.withTables T) s).1.isInsideInterrupt =
        (flushRegion k s).1.isInsideInterrupt := by
      rw [← hflush, isInsideInterrupt_withTables]
    unfold step
    dsimp only
    rw [hin, ← hflush]
    generalize flushRegion k s = r
    rfl

theorem withPort_signalRegion : signalRegion (k.withPort p) s =
    (signalRegion k s).map (withPort p.enterCritical.exitCritical) id := by
  symm
  refine map_ite _ Iff.rfl (Prod.ext ?_ rfl) (map_ite _ Iff.rfl rfl rfl)
  exact congrArg exitCritical (withPort_setTaskReady k.enterCritical p.enterCritical _)

theorem withPort_flushRegion : flushRegion (k.withPort p) s =
    (flushRegion k s).map (withPort p.enterCritical.exitCritical) id := by
  have hloop : (flushLoop s.waitingQueue.getSize k.enterCritical s).map
        (withPort p.enterCritical) id =
      flushLoop s.waitingQueue.getSize (k.withPort p).enterCritical s :=
    flushLoop_map k.enterCritical s (withPort_setTaskReady · _) _
  unfold flushRegion
  dsimp only
  rw [← hloop]
  rfl

theorem step_mask (b : Bool) (c : Call) :
    ∃ b', step (k.mask b) s c = (step k s c).map (mask b') id := by
  cases c with
  | wait n => exact mask_of_map (map_ite _ Iff.rfl rfl rfl)
  | waitRegion n e =>
    have henter : step (k.mask b) s (.waitRegion n e) = step k s (.waitRegion n e) := by
      unfold step waitRegion
      dsimp only
      rw [enterCritical_mask]
    exact mask_of_eq henter
  | waitYield => exact mask_of_eq rfl
  | waitReturn => exact ⟨b, rfl⟩
  | signal =>
    have henter : step (k.mask b) s .signal = step k s .signal := by
      unfold step signalRegion
      dsimp only
      rw [enterCritical_mask]
    exact mask_of_eq henter
  | signalReady => exact ⟨b, rfl⟩
  | signalWord p => exact mask_of_map (Prod.ext (mask_setReadyWord k p b) rfl)
  | signalBitmap p => exact ⟨b, rfl⟩
  | signalYield => exact mask_of_eq rfl
  | signalReturn => exact ⟨b, rfl⟩
  | flush =>
    have henter : step (k.mask b) s .flush = step k s .flush := by
      unfold step flushRegion
      dsimp only
      rw [enterCritical_mask]
    exact mask_of_eq henter

end Semaphore

namespace Mutex
variable (T : Tables × List (ℕ × ℕ)) (k : Kernel) (m : Mutex)

theorem withTables_inheritPriority (t : TaskPtr) :
    (inheritPriority k m t).withTables T = inheritPriority (k.withTables T) m t := by
  have hpriority : (k.withTables T).getPriority = k.getPriority := rfl
  unfold inheritPriority
  cases m.owner with
  | none => rfl
  | some o =>
    dsimp only
    rw [hpriority]
    split_ifs <;> rfl

theorem withTables_blockSelf (t : TaskPtr) :
    (blockSelf k t).withTables T = blockSelf (k.withTables T) t :=
  map_ite (withTables T) Iff.rfl (withTables_resetTaskReady T k t .eBlocked) rfl

theorem withTables_acquireRegion (forever : Bool) (endTime : ℕ) (t : TaskPtr) :
    (acquireRegion k m forever endTime t).map (withTables T) id =
      acquireRegion (k.withTables T) m forever endTime t := by
  have hinherit : (inheritPriority k.enterCritical m t).withTables T =
      inheritPriority (k.withTables T).enterCritical m t :=
    withTables_inheritPriority T k.enterCritical m t
  refine map_ite _ Iff.rfl rfl (map_ite _ Iff.rfl rfl ?_)
  dsimp only
  rw [← hinherit]
  generalize inheritPriority k.enterCritical m t = k'
  refine map_ite _ Iff.rfl (Prod.ext ?_ rfl) rfl
  refine (withTables_exitCritical T _).trans (congrArg exitCritical ?_)
  exact withTables_blockSelf T k' t

theorem withTables_blockingLoop (prio : TaskPriority) (cells : List (Option TaskPtr)) :
    (blockingLoop k prio cells).map (withTables T) id =
      blockingLoop (k.withTables T) prio cells := by
  induction cells generalizing k with
  | nil => rfl
  | cons cell cells ih =>
    cases cell with
    | none => exact ih (k.assert false)
    | some u => exact map_ite _ Iff.rfl rfl (ih k)

theorem withTables_releaseRegion (t : TaskPtr) :
    (releaseRegion k m t).map (withTables T) id = releaseRegion (k.withTables T) m t := by
  have hready (u : Option TaskPtr) : (k.enterCritical.setTaskReady u).withTables T =
      (k.withTables T).enterCritical.setTaskReady u := withTables_setTaskReady T k.enterCritical u
  refine map_ite _ Iff.rfl ?_ rfl
  dsimp only
  rw [← hready]
  cases m.blockedTasks.dequeue.1 with
  | none => rfl
  | some u =>
    generalize k.enterCritical.setTaskReady (some u) = k'
    have hpriority : (k'.withTables T).getPriority u = k'.getPriority u := rfl
    refine Prod.ext ?_ rfl
    refine (withTables_exitCritical T _).trans (congrArg exitCritical ?_)
    unfold isAnyTaskBlocking
    rw [hpriority, ← withTables_blockingLoop]
    exact map_ite (withTables T) Iff.rfl rfl rfl

theorem withTables_step (c : Call) :
    (step k m c).map (withTables T) id = step (k.withTables T) m c := by
  cases c with
  | acquire n => exact map_ite _ Iff.rfl rfl rfl
  | acquireStart n t => exact map_ite _ Iff.rfl rfl rfl
  | acquireLoop f e t => exact withTables_acquireRegion T k m f e t
  | acquireYield f e t => rfl
  | release => exact map_ite _ Iff.rfl rfl (map_ite _ Iff.rfl rfl rfl)
  | releaseOwner => exact map_ite _ Iff.rfl rfl rfl
  | releaseRegion t =>
    unfold step
    dsimp only
    rw [← withTables_releaseRegion]
    rfl
  | releaseYield => rfl
  | releaseReturn => rfl

theorem step_mask (b : Bool) (c : Call) :
    ∃ b', step (k.mask b) m c = (step k m c).map (mask b') id := by
  cases c with
  | acquire n => exact mask_of_map (map_ite _ Iff.rfl rfl rfl)
  | acquireStart n t => exact mask_of_map (map_ite _ Iff.rfl rfl rfl)
  | acquireLoop f e t =>
    have henter : step (k.mask b) m (.acquireLoop f e t) = step k m (.acquireLoop f e t) := by
      unfold step acquireRegion
      dsimp only
      rw [enterCritical_mask]
    exact mask_of_eq henter
  | acquireYield f e t => exact mask_of_eq rfl
  | release => exact mask_of_map (map_ite _ Iff.rfl rfl (map_ite _ Iff.rfl rfl rfl))
  | releaseOwner => exact mask_of_map (map_ite _ Iff.rfl rfl rfl)
  | releaseRegion t =>
    have henter : step (k.mask b) m (.releaseRegion t) = step k m (.releaseRegion t) := by
      unfold step releaseRegion
      dsimp only
      rw [enterCritical_mask]
    exact mask_of_eq henter
  | releaseYield => exact mask_of_eq rfl
  | releaseReturn => exact ⟨b, rfl⟩

end Mutex

namespace EventGroup
variable (T : Tables × List (ℕ × ℕ)) (k : Kernel) (p : Port) (g : EventGroup)

theorem withTables_waitRegion (f : BitVec 32) (n : ℕ) :
    (waitRegion k g f n).map (withTables T) id = waitRegion (k.withTables T) g f n :=
  map_ite _ Iff.rfl rfl (map_ite _ Iff.rfl rfl rfl)

theorem withTables_loopRegion (f : BitVec 32) (e : ℕ) (t : TaskPtr) :
    (loopRegion k g f e t).map (withTables T) id = loopRegion (k.withTables T) g f e t :=
  map_ite _ Iff.rfl rfl (map_ite _ Iff.rfl rfl rfl)

theorem setLoop_map {h : Kernel → Kernel}
    (hready : ∀ k t, h (k.setTaskReady t) = (h k).setTaskReady t)
    (hmodify : ∀ k t f, h (k.modifyTask t f) = (h k).modifyTask t f)
    (hassert : ∀ k b, h (k.assert b) = (h k).assert b)
    (hdata : ∀ k, (h k).taskData = k.taskData) (n j : ℕ) :
    (setLoop n j k g).map h id = setLoop n j (h k) g := by
  induction n generalizing j k g with
  | zero => rfl
  | succ n ih =>
    refine map_ite _ Iff.rfl ?_ rfl
    cases g.waitingTasks.getAt j with
    | none =>
      dsimp only
      rw [ih, hassert]
    | some t =>
      dsimp only
      rw [hdata]
      refine map_ite _ Iff.rfl ?_ (ih _ _ _)
      rw [ih, hmodify, hready]

theorem withTables_setRegion (f : BitVec 32) :
    (setRegion k g f).map (withTables T) id = setRegion (k.withTables T) g f := by
  have hloop (g : EventGroup) (n : ℕ) : (setLoop n 0 k.enterCritical g).map (withTables T) id =
      setLoop n 0 (k.withTables T).enterCritical g :=
    setLoop_map k.enterCritical g (withTables_setTaskReady T) (fun _ _ _ => rfl) (fun _ _ => rfl)
      (fun _ => rfl) n 0
  unfold setRegion
  dsimp only
  rw [← hloop]
  rfl

theorem withTables_step (c : Call) :
    (step k g c).map (withTables T) id = step (k.withTables T) g c := by
  cases c with
  | waitForEvents f n => exact withTables_waitRegion T k g f n
  | waitYield f e t => rfl
  | waitLoop f e t => exact withTables_loopRegion T k g f e t
  | setEvents f =>
    unfold step
    dsimp only
    rw [← withTables_setRegion]
    rfl
  | setYield => rfl
  | setReturn => rfl
  | clearEvents f => rfl

theorem withPort_setRegion (f : BitVec 32) : setRegion (k.withPort p) g f =
    (setRegion k g f).map (withPort p.enterCritical.exitCritical) id := by
  have hloop (g : EventGroup) (n : ℕ) :
      (setLoop n 0 k.enterCritical g).map (withPort p.enterCritical) id =
        setLoop n 0 (k.withPort p).enterCritical g :=
    setLoop_map k.enterCritical g (withPort_setTaskReady · _) (fun _ _ _ => rfl) (fun _ _ => rfl)
      (fun _ => rfl) n 0
  unfold setRegion
  dsimp only
  rw [← hloop]
  rfl

theorem step_mask (b : Bool) (c : Call) :
    ∃ b', step (k.mask b) g c = (step k g c).map (mask b') id := by
  cases c with
  | waitForEvents f n =>
    have henter : step (k.mask b) g (.waitForEvents f n) = step k g (.waitForEvents f n) := by
      unfold step waitRegion
      dsimp only
      rw [enterCritical_mask]
    exact mask_of_eq henter
  | waitYield f e t => exact mask_of_eq rfl
  | waitLoop f e t =>
    have henter : step (k.mask b) g (.waitLoop f e t) = step k g (.waitLoop f e t) := by
      unfold step loopRegion
      dsimp only
      rw [enterCritical_mask]
    exact mask_of_eq henter
  | setEvents f =>
    have henter : step (k.mask b) g (.setEvents f) = step k g (.setEvents f) := by
      unfold step setRegion
      dsimp only
      rw [enterCritical_mask]
    exact mask_of_eq henter
  | setYield => exact mask_of_eq rfl
  | setReturn => exact ⟨b, rfl⟩
  | clearEvents f => exact mask_of_eq rfl

end EventGroup

namespace Objects

def onKernel (g : Kernel → Kernel) (o : Objects) : Objects := { o with kernel := g o.kernel }

variable (o : Objects)

theorem step_onKernel {g : Kernel → Kernel} {P : (Kernel → Kernel) → Prop}
    (htask : ∀ k c, ∃ g', P g' ∧ TaskCall.step (g k) c = (TaskCall.step k c).map g' id)
    (hsemaphore : ∀ k s c, ∃ g', P g' ∧
      Semaphore.step (g k) s c = (Semaphore.step k s c).map g' id)
    (hmutex : ∀ k m c, ∃ g', P g' ∧ Mutex.step (g k) m c = (Mutex.step k m c).map g' id)
    (hgroup : ∀ k e c, ∃ g', P g' ∧ EventGroup.step (g k) e c = (EventGroup.step k e c).map g' id)
    (c : Call) : ∃ g', P g' ∧ (o.onKernel g).step c = (o.step c).map (onKernel g') id := by
  cases c with
  | task c =>
    obtain ⟨g', hP, h⟩ := htask o.kernel c
    refine ⟨g', hP, ?_⟩
    unfold step onKernel
    dsimp only
    rw [h]
    rfl
  | semaphore s c =>
    obtain ⟨g', hP, h⟩ := hsemaphore o.kernel (o.semaphores s) c
    refine ⟨g', hP, ?_⟩
    unfold step onKernel
    dsimp only
    rw [h]
    rfl
  | mutex m c =>
    obtain ⟨g', hP, h⟩ := hmutex o.kernel (o.mutexes m) c
    refine ⟨g', hP, ?_⟩
    unfold step onKernel
    dsimp only
    rw [h]
    rfl
  | eventGroup e c =>
    obtain ⟨g', hP, h⟩ := hgroup o.kernel (o.eventGroups e) c
    refine ⟨g', hP, ?_⟩
    unfold step onKernel
    dsimp only
    rw [h]
    rfl

theorem withTables_step (T : Tables × List (ℕ × ℕ)) (c : Call) :
    (o.onKernel (withTables T)).step c = (o.step c).map (onKernel (withTables T)) id := by
  obtain ⟨g, rfl, h⟩ := step_onKernel o (g := withTables T) (P := (· = withTables T))
    (fun k c => ⟨_, rfl, (TaskCall.withTables_step T k c).symm⟩)
    (fun k s c => ⟨_, rfl, (Semaphore.withTables_step T k s c).symm⟩)
    (fun k m c => ⟨_, rfl, (Mutex.withTables_step T k m c).symm⟩)
    (fun k e c => ⟨_, rfl, (EventGroup.withTables_step T k e c).symm⟩) c
  exact h

theorem mask_step (b : Bool) (c : Call) :
    ∃ b', (o.onKernel (mask b)).step c = (o.step c).map (onKernel (mask b')) id := by
  have hmask {α : Type} {r r' : Kernel × α} (h : ∃ b', r' = r.map (mask b') id) :
      ∃ g', (∃ b', g' = mask b') ∧ r' = r.map g' id := by
    obtain ⟨b', h⟩ := h
    exact ⟨mask b', ⟨b', rfl⟩, h⟩
  obtain ⟨g, ⟨b', rfl⟩, h⟩ := step_onKernel o (g := mask b) (P := fun g => ∃ b', g = mask b')
    (fun k c => hmask (TaskCall.step_mask k b c)) (fun k s c => hmask (Semaphore.step_mask k s b c))
    (fun k m c => hmask (Mutex.step_mask k m b c))
    (fun k e c => hmask (EventGroup.step_mask k e b c)) c
  exact ⟨b', h⟩

/-- What a call from an interrupt handler does to the port. -/
def portAfter (p : Port) : IsrCall → Port
  | .setEvents _ _ => p.enterCritical.exitCritical.yield
  | _ => p.enterCritical.exitCritical

theorem withTables_isr (T : Tables × List (ℕ × ℕ)) (c : IsrCall) :
    (o.onKernel (withTables T)).isr c = (o.isr c).onKernel (withTables T) := by
  cases c with
  | signal s =>
    unfold isr onKernel
    dsimp only
    rw [← Semaphore.withTables_signalRegion]
    generalize Semaphore.signalRegion o.kernel (o.semaphores s) = r
    rfl
  | flush s =>
    unfold isr onKernel
    dsimp only
    rw [← Semaphore.withTables_flushRegion]
    generalize Semaphore.flushRegion o.kernel (o.semaphores s) = r
    rfl
  | setEvents g f =>
    unfold isr onKernel
    dsimp only
    rw [← EventGroup.withTables_setRegion]
    generalize EventGroup.setRegion o.kernel (o.eventGroups g) f = r
    have hyield : r.1.yield.withTables T = (r.1.withTables T).yield := rfl
    dsimp only [Prod.map, setEventGroup, id]
    rw [hyield]
  | clearEvents g f => rfl

theorem withPort_isr (p : Port) (c : IsrCall) :
    (o.onKernel (withPort p)).isr c = (o.isr c).onKernel (withPort (portAfter p c)) := by
  cases c with
  | signal s =>
    unfold isr onKernel
    dsimp only
    rw [Semaphore.withPort_signalRegion]
    generalize Semaphore.signalRegion o.kernel (o.semaphores s) = r
    rfl
  | flush s =>
    unfold isr onKernel
    dsimp only
    rw [Semaphore.withPort_flushRegion]
    generalize Semaphore.flushRegion o.kernel (o.semaphores s) = r
    rfl
  | setEvents g f =>
    unfold isr onKernel
    dsimp only
    rw [EventGroup.withPort_setRegion]
    generalize EventGroup.setRegion o.kernel (o.eventGroups g) f = r
    have hyield (q : Port) : (r.1.withPort q).yield = r.1.yield.withPort q.yield := rfl
    dsimp only [Prod.map, setEventGroup, id]
    rw [hyield]
    rfl
  | clearEvents g f => rfl

theorem port_isr (c : IsrCall) : (o.isr c).kernel.port = portAfter o.kernel.port c :=
  congrArg (fun o : Objects => o.kernel.port) (withPort_isr o o.kernel.port c)

/-! ## The same objects without the tables -/

/-- The objects without the tables, up to the interrupt mask. -/
def Bares (o o' : Objects) : Prop := ∃ b, o' = (o.onKernel bare).onKernel (mask b)

section
variable {o o' : Objects} (h : Bares o o')
include h

theorem Bares.step (c : Call) :
    Bares (o.step c).1 (o'.step c).1 ∧ (o.step c).2 = (o'.step c).2 := by
  obtain ⟨b, rfl⟩ := h
  obtain ⟨b', hmask⟩ := mask_step (o.onKernel bare) b c
  have hbare : (o.onKernel bare).step c = (o.step c).map (onKernel bare) id := withTables_step o _ c
  rw [hmask, hbare]
  exact ⟨⟨b', rfl⟩, rfl⟩

theorem Bares.isr (c : IsrCall) : Bares (o.isr c) (o'.isr c) := by
  obtain ⟨b, rfl⟩ := h
  have hport := withPort_isr (o.onKernel bare) { o.kernel.port with masked := b } c
  have hafter : portAfter { o.kernel.port with masked := b } c = portAfter o.kernel.port c := by
    cases c <;> rfl
  have hbare : (o.onKernel bare).isr c = (o.isr c).onKernel bare := withTables_isr o _ c
  refine ⟨(o.isr c).kernel.port.masked, ?_⟩
  rw [hafter, hbare, ← port_isr] at hport
  exact hport

theorem Bares.interrupt {e : Interrupt} (he : e ≠ .sysTick) :
    Bares (o.interrupt e) (o'.interrupt e) := by
  cases e with
  | sysTick => exact absurd rfl he
  | isr c => exact h.isr c
  | pendSV =>
    obtain ⟨b, rfl⟩ := h
    refine ⟨o.kernel.pendSVHandler.port.masked, ?_⟩
    exact congrArg (fun k => { o with kernel := k }) (withTables_pendSVHandler _ o.kernel).symm
  | addTask t =>
    obtain ⟨b, rfl⟩ := h
    have hadd : o.kernel.bare.addTask t = (o.kernel.addTask t).bare :=
      (withTables_addTask _ o.kernel t).symm
    obtain hb | hb := addTask_mask o.kernel.bare t b
    · refine ⟨(o.kernel.addTask t).port.masked, ?_⟩
      exact congrArg (fun k => { o with kernel := k }) (hb.trans hadd)
    · refine ⟨b, ?_⟩
      exact congrArg (fun k => { o with kernel := k }) (hb.trans (congrArg (mask b) hadd))

end

theorem bares_mask {b : Bool} {o o' : Objects} (h : Bares (o.onKernel (mask b)) o') :
    Bares o o' := by
  obtain ⟨b', rfl⟩ := h
  exact ⟨b', rfl⟩

theorem respects_bares : system.Respects (· ≠ .sysTick) Bares where
  entry := by
    rintro t c o _ ⟨b, rfl⟩ hg
    exact hg
  enabled := by
    rintro t c o _ ⟨b, rfl⟩ hg
    exact hg
  interferes := by
    rintro e o _ - ⟨b, rfl⟩ hg
    cases e with
    | pendSV => exact hg
    | sysTick => exact hg
    | isr c => exact hg
    | addTask t => exact hg
  step h := (Bares.step h _).1
  outcome h := (Bares.step h _).2
  interfere he h := Bares.interrupt h he

end Objects

end CppRtos
