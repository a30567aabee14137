import CppRtos.System.Placement
import CppRtos.System.Readying

/-! No task is lost: the steps of all calls move tasks between the ready table, the sleep
table and the wait queues. A task that executes is running, except right before it yields. -/
namespace CppRtos

/-- The points of a call before a `yield` at which the task need not be running. -/
def Call.beforeYield : Call → Bool
  | .task .sleepYield => true
  | .semaphore _ .waitYield | .semaphore _ (.signalWord _) | .semaphore _ (.signalBitmap _)
  | .semaphore _ .signalYield => true
  | .mutex _ (.acquireYield _ _ _) => true
  | .eventGroup _ (.waitYield _ _ _) => true
  | _ => false

theorem Call.beforeYield_of_unentered {c : Call} (h : c.unentered = true) :
    c.beforeYield = true := by
  unfold Call.unentered at h
  split at h
  · rfl
  · cases h

/-- Task `t`, if it is current, is about to be switched or to yield, or is running. -/
def Proceeds (t : TaskPtr) (k : Kernel) (next : Option Call) : Prop :=
  k.port.pendSV = true ∨ (∃ c ∈ next, c.beforeYield = true) ∨ k.getState t = .eRunning

section
variable {k k' : Kernel} {Q : Queues} {L : Set TaskPtr} {t : TaskPtr}

theorem Proceeds.of_running {next : Option Call} (h : k.getState t = .eRunning) :
    Proceeds t k next := .inr (.inr h)

theorem Proceeds.of_next {c : Call} (h : c.beforeYield = true) : Proceeds t k (some c) :=
  .inr (.inl ⟨c, rfl, h⟩)

/-- A step that changes neither the schedule nor the queue. -/
theorem Placed.unchanged (h : Placed k Q L) (hs : Kernel.SameSchedule k k') {q : WaitQueue}
    {f : Fifo (Option TaskPtr) maxTasks} (hf : f = Q q) : Placed k' (Function.update Q q f) L := by
  rw [hf, Function.update_eq_self]
  exact h.same hs

end

/-! ## Semaphores -/
namespace Semaphore
variable {k : Kernel} {s : Semaphore} {Q : Queues} {L : Set TaskPtr} {i : ℕ}

theorem signalRegion_placed (h : Placed k Q L) (hq : s.waitingQueue = Q (.semaphore i)) :
    Placed (signalRegion k s).1
      (Function.update Q (.semaphore i) (signalRegion k s).2.waitingQueue) L ∧
      Steady k (signalRegion k s).1 := by
  by_cases hs : s.waitingQueue.size = 0
  · rw [signalRegion_of_empty hs]
    refine ⟨h.unchanged (Kernel.sameSchedule_region k) ?_, Steady.region (.refl _)⟩
    dsimp only
    split_ifs <;> exact hq
  · have hplain : s.waitingQueue.Plain := hq ▸ h.plain _
    obtain ⟨t, ht, hp, hrest⟩ := hplain.dequeue (by omega)
    rw [signalRegion_of_queued (by omega), ht]
    have hin : t ∈ (Q (.semaphore i)).pointers := by
      rw [← hq, hp]
      exact List.mem_cons_self
    have hstate := h.enterCritical.blocked_of_mem hin
    have hperm : (Q (.semaphore i)).pointers.Perm (t :: s.waitingQueue.dequeue.2.pointers) := by
      rw [← hq, hp]
    have hrun : k.enterCritical.getState t ≠ .eRunning := by
      rw [hstate]
      decide
    exact ⟨(h.enterCritical.wake hrest (by simp) hperm).exitCritical,
      Steady.region (.wake hrun)⟩

theorem flushLoop_placed (n : ℕ) (k : Kernel) (s : Semaphore) (Q : Queues) (h : Placed k Q L)
    (hq : s.waitingQueue = Q (.semaphore i)) :
    Placed (flushLoop n k s).1
      (Function.update Q (.semaphore i) (flushLoop n k s).2.waitingQueue) L ∧
      Steady k (flushLoop n k s).1 := by
  induction n generalizing k s Q with
  | zero => exact ⟨h.unchanged (.refl k) hq, .refl k⟩
  | succ n ih =>
    unfold flushLoop
    split_ifs with he
    · have hsize : 0 < s.waitingQueue.size := by
        simp only [Fifo.isEmpty, Bool.not_eq_true', beq_eq_false_iff_ne] at he
        omega
      have hplain : s.waitingQueue.Plain := hq ▸ h.plain _
      obtain ⟨t, ht, hp, hrest⟩ := hplain.dequeue hsize
      have hin : t ∈ (Q (.semaphore i)).pointers := by
        rw [← hq, hp]
        exact List.mem_cons_self
      have hperm : (Q (.semaphore i)).pointers.Perm (t :: s.waitingQueue.dequeue.2.pointers) := by
        rw [← hq, hp]
      have hwake := h.wake hrest (by simp) hperm
      have hstate : k.getState t ≠ .eRunning := by
        rw [h.blocked_of_mem hin]
        decide
      obtain ⟨hP, hS⟩ := ih (k.setTaskReady (some t))
        { s with waitingQueue := s.waitingQueue.dequeue.2 } _ hwake (by simp)
      rw [Function.update_idem] at hP
      dsimp only
      rw [ht]
      exact ⟨hP, (Steady.wake hstate).trans hS⟩
    · exact ⟨h.unchanged (.refl k) hq, .refl k⟩

theorem flushRegion_placed (h : Placed k Q L) (hq : s.waitingQueue = Q (.semaphore i)) :
    Placed (flushRegion k s).1
      (Function.update Q (.semaphore i) (flushRegion k s).2.1.waitingQueue) L ∧
      Steady k (flushRegion k s).1 := by
  obtain ⟨hP, hS⟩ := flushLoop_placed s.waitingQueue.getSize k.enterCritical s Q
    h.enterCritical hq
  unfold flushRegion
  exact ⟨hP.exitCritical, hS.region⟩

theorem step_placed (h : Placed k Q L) (hq : s.waitingQueue = Q (.semaphore i)) {t : TaskPtr}
    (ht : k.currentTask = t) {c : Call} (hn : (CppRtos.Call.semaphore i c).Names t)
    (hL : (CppRtos.Call.semaphore i c).unentered = true → t ∈ L)
    (hrun : (CppRtos.Call.semaphore i c).beforeYield = false → k.getState t = .eRunning) :
    Placed (step k s c).1 (Function.update Q (.semaphore i) (step k s c).2.1.waitingQueue)
        ((CppRtos.Call.semaphore i c).unenteredAfter t L) ∧
      Proceeds t (step k s c).1 ((step k s c).2.2.call?.map (CppRtos.Call.semaphore i)) := by
  have hreg : k.Registered t := ht ▸ h.registry.current
  have hregion := Kernel.sameSchedule_region k
  cases c with
  | wait n =>
    have hassert := Kernel.sameSchedule_assert k (!k.isInsideInterrupt)
    have hstate := (hassert.getState t).trans (hrun rfl)
    simp only [step]
    split_ifs
    · exact ⟨h.unchanged hassert hq, .of_running hstate⟩
    · exact ⟨h.unchanged hassert hq, .of_running hstate⟩
  | waitRegion n e =>
    simp only [step]
    obtain ⟨-, hr⟩ | ⟨-, hr⟩ | ⟨-, hr⟩ := waitRegion_cases k s n e <;> rw [hr]
    · exact ⟨h.unchanged hregion hq, .of_running ((hregion.getState t).trans (hrun rfl))⟩
    · exact ⟨h.unchanged hregion hq, .of_running ((hregion.getState t).trans (hrun rfl))⟩
    · have henter := Kernel.sameSchedule_enterCritical k
      have hblock := h.enterCritical.block (.semaphore i) ((henter.registered t).mpr hreg)
        ((henter.getState t).trans (hrun rfl))
      refine ⟨?_, .of_next rfl⟩
      rw [ht, hq]
      exact hblock.exitCritical
  | waitYield =>
    exact ⟨h.unchanged (Kernel.sameSchedule_yield k) hq, .inl (Kernel.pendSV_yield k)⟩
  | waitReturn => exact ⟨h.unchanged (.refl k) hq, .of_running (hrun rfl)⟩
  | signal =>
    obtain ⟨hP, hS⟩ := signalRegion_placed h hq
    exact ⟨hP, .of_running (hS.running t (hrun rfl))⟩
  | signalReady =>
    refine ⟨?_, .of_next rfl⟩
    simp only [step]
    rw [ht, hq, Function.update_eq_self]
    exact h.rouse hreg (hrun rfl)
  | signalWord p =>
    obtain rfl : p = t := hn
    simp only [step]
    refine ⟨?_, ?_⟩
    · rw [hq, Function.update_eq_self]
      exact h.enter (hL rfl)
    · split_ifs <;> exact .of_next rfl
  | signalBitmap p =>
    exact ⟨h.unchanged (Kernel.sameSchedule_markPriority k p) hq, .of_next rfl⟩
  | signalYield =>
    exact ⟨h.unchanged (Kernel.sameSchedule_yield k) hq, .inl (Kernel.pendSV_yield k)⟩
  | signalReturn => exact ⟨h.unchanged (.refl k) hq, .of_running (hrun rfl)⟩
  | flush =>
    obtain ⟨hP, hS⟩ := flushRegion_placed h hq
    exact ⟨hP, .of_running (hS.running t (hrun rfl))⟩

end Semaphore

/-! ## Event groups -/
namespace EventGroup
variable {k : Kernel} {g : EventGroup} {Q : Queues} {L : Set TaskPtr} {i : ℕ}

theorem removeTask_of_not_mem {t : TaskPtr} (n j : ℕ) {q : Fifo (Option TaskPtr) maxTasks}
    (h : q.Plain) (h0 : q.head = 0) (ht : t ∉ q.pointers) : removeTask t n j q = q := by
  induction n generalizing j with
  | zero => rfl
  | succ n ih =>
    unfold removeTask
    split_ifs with hj hg
    · obtain ⟨u, hu, hperm, -⟩ := h.removeAt h0 hj
      obtain rfl : u = t := Option.some.inj (hu.symm.trans hg)
      exact absurd (hperm.mem_iff.mpr List.mem_cons_self) ht
    · exact ih (j + 1)
    · rfl

theorem setLoop_placed (n j : ℕ) (k : Kernel) (g : EventGroup) (Q : Queues) (h : Placed k Q L)
    (hq : g.waitingTasks = Q (.eventGroup i)) :
    Placed (setLoop n j k g).1
      (Function.update Q (.eventGroup i) (setLoop n j k g).2.waitingTasks) L ∧
      Steady k (setLoop n j k g).1 := by
  induction n generalizing j k g Q with
  | zero => exact ⟨h.unchanged (.refl k) hq, .refl k⟩
  | succ n ih =>
    have hplain : g.waitingTasks.Plain := hq ▸ h.plain _
    have hhead : g.waitingTasks.head = 0 := hq ▸ h.head i
    unfold setLoop
    split_ifs with hj
    · obtain ⟨t, hget, hperm, hrest⟩ := hplain.removeAt hhead hj
      rw [hq] at hperm
      rw [hget]
      dsimp only
      split_ifs
      · have hin : t ∈ (Q (.eventGroup i)).pointers := hperm.mem_iff.mpr List.mem_cons_self
        have hstate : k.getState t ≠ .eRunning := by
          rw [h.blocked_of_mem hin]
          decide
        have hflags := Kernel.sameSchedule_setFlagsToWaitFor (k.setTaskReady (some t)) t 0
        rw [← hq] at hperm
        have hwake :=
          (h.wake (q := .eventGroup i) hrest (fun _ _ => hhead) (hq ▸ hperm)).same hflags
        obtain ⟨hP, hS⟩ := ih j _ { g with waitingTasks := g.waitingTasks.removeAt j } _ hwake
          (by simp)
        rw [Function.update_idem] at hP
        exact ⟨hP, ((Steady.wake hstate).trans (.same hflags rfl)).trans hS⟩
      · exact ih (j + 1) k g Q h hq
    · exact ⟨h.unchanged (.refl k) hq, .refl k⟩

theorem setRegion_placed (h : Placed k Q L) (hq : g.waitingTasks = Q (.eventGroup i))
    (flags : BitVec 32) : Placed (setRegion k g flags).1
      (Function.update Q (.eventGroup i) (setRegion k g flags).2.waitingTasks) L ∧
      Steady k (setRegion k g flags).1 := by
  obtain ⟨hP, hS⟩ := setLoop_placed g.waitingTasks.getSize 0 k.enterCritical
    { g with eventFlags := g.eventFlags ||| flags } Q h.enterCritical hq
  unfold setRegion
  exact ⟨hP.exitCritical, hS.region⟩

theorem clearRegion_placed (h : Placed k Q L) (hq : g.waitingTasks = Q (.eventGroup i))
    (flags : BitVec 32) : Placed (clearRegion k g flags).1
      (Function.update Q (.eventGroup i) (clearRegion k g flags).2.waitingTasks) L ∧
      Steady k (clearRegion k g flags).1 := by
  unfold clearRegion
  exact ⟨h.unchanged (Kernel.sameSchedule_region k) hq, Steady.region (.refl _)⟩

theorem step_placed (h : Placed k Q L) (hq : g.waitingTasks = Q (.eventGroup i)) {t : TaskPtr}
    (ht : k.currentTask = t) {c : Call} (hn : (CppRtos.Call.eventGroup i c).Names t)
    (hrun : (CppRtos.Call.eventGroup i c).beforeYield = false → k.getState t = .eRunning) :
    Placed (step k g c).1 (Function.update Q (.eventGroup i) (step k g c).2.1.waitingTasks) L ∧
      Proceeds t (step k g c).1 ((step k g c).2.2.call?.map (CppRtos.Call.eventGroup i)) := by
  have hreg : k.Registered t := ht ▸ h.registry.current
  have hregion := Kernel.sameSchedule_region k
  cases c with
  | waitForEvents f n =>
    have hstate := (hregion.getState t).trans (hrun rfl)
    simp only [step, waitRegion]
    split_ifs
    · exact ⟨h.unchanged hregion hq, .of_running hstate⟩
    · exact ⟨h.unchanged hregion hq, .of_running hstate⟩
    · have henter := Kernel.sameSchedule_enterCritical k
      have hblock := h.enterCritical.suspend (.eventGroup i) ((henter.registered t).mpr hreg)
        ((henter.getState t).trans (hrun rfl))
      have hflags := hblock.same (Kernel.sameSchedule_setFlagsToWaitFor _ t f)
      refine ⟨?_, .of_next rfl⟩
      rw [henter.currentTask.trans ht, hq]
      exact hflags.exitCritical
  | waitYield f e p =>
    exact ⟨h.unchanged (Kernel.sameSchedule_yield k) hq, .inl (Kernel.pendSV_yield k)⟩
  | waitLoop f e p =>
    obtain rfl : p = t := hn
    have hstate := (hregion.getState p).trans (hrun rfl)
    have hplain : g.waitingTasks.Plain := hq ▸ h.plain _
    have hhead : g.waitingTasks.head = 0 := hq ▸ h.head i
    have hout : p ∉ g.waitingTasks.pointers := by
      rw [hq]
      refine h.not_mem ?_ _
      rw [hrun rfl]
      decide
    simp only [step, loopRegion, removeTask_of_not_mem _ _ hplain hhead hout]
    split_ifs
    · exact ⟨h.unchanged hregion hq, .of_running hstate⟩
    · exact ⟨h.unchanged hregion hq, .of_running hstate⟩
    · exact ⟨h.unchanged hregion hq, .of_running hstate⟩
  | setEvents f =>
    obtain ⟨hP, hS⟩ := setRegion_placed h hq f
    exact ⟨hP, .of_running (hS.running t (hrun rfl))⟩
  | setYield =>
    exact ⟨h.unchanged (Kernel.sameSchedule_yield k) hq, .inl (Kernel.pendSV_yield k)⟩
  | setReturn => exact ⟨h.unchanged (.refl k) hq, .of_running (hrun rfl)⟩
  | clearEvents f =>
    obtain ⟨hP, hS⟩ := clearRegion_placed h hq f
    exact ⟨hP, .of_running (hS.running t (hrun rfl))⟩

end EventGroup

/-! ## Mutexes -/
namespace Mutex
variable {k : Kernel} {m : Mutex} {Q : Queues} {L : Set TaskPtr} {i : ℕ} {t : TaskPtr}

theorem inheritPriority_placed (h : Placed k Q L) (ht : k.Registered t)
    (howner : ∀ o, m.owner = some o → k.Registered o ∧ k.AboveIdle o) :
    Placed (inheritPriority k m t) Q L ∧ Kernel.SameTable k (inheritPriority k m t) := by
  obtain ⟨o, ho, hlt, hr⟩ | ⟨-, hs⟩ := inheritPriority_cases k m t
  · rw [hr]
    exact ⟨h.boost (howner o ho).1 (howner o ho).2 hlt (h.registry.highest_le t ht),
      ⟨rfl, rfl, rfl, rfl, rfl, rfl⟩⟩
  · exact ⟨h.same hs, hs.toSameTable⟩

theorem acquireRegion_placed (h : Placed k Q L) (hq : m.blockedTasks = Q (.mutex i))
    (ht : k.Registered t) (hrun : k.getState t = .eRunning)
    (howner : ∀ o, m.owner = some o → k.Registered o ∧ k.AboveIdle o) (f : Bool) (e : ℕ) :
    Placed (acquireRegion k m f e t).1
      (Function.update Q (.mutex i) (acquireRegion k m f e t).2.1.blockedTasks) L ∧
      Proceeds t (acquireRegion k m f e t).1
        ((acquireRegion k m f e t).2.2.call?.map (CppRtos.Call.mutex i)) := by
  have hregion := Kernel.sameSchedule_region k
  have henter := Kernel.sameSchedule_enterCritical k
  have ht' := (henter.registered t).mpr ht
  have howner' : ∀ o, m.owner = some o →
      k.enterCritical.Registered o ∧ k.enterCritical.AboveIdle o := by
    intro o ho
    refine ⟨(henter.registered o).mpr (howner o ho).1, ?_⟩
    unfold Kernel.AboveIdle
    rw [henter.priority]
    exact (howner o ho).2
  obtain ⟨hP, htab⟩ := inheritPriority_placed h.enterCritical ht' howner'
  have hrun' : (inheritPriority k.enterCritical m t).getState t = .eRunning :=
    ((getState_inheritPriority _ m t t).trans (henter.getState t)).trans hrun
  obtain ⟨-, hr⟩ | ⟨-, -, hr⟩ | ⟨-, -, -, hr⟩ | ⟨-, -, -, hr⟩ := acquireRegion_cases k m f e t <;>
    rw [hr]
  · have htwice := henter.trans (Kernel.sameSchedule_region k.enterCritical)
    exact ⟨h.unchanged htwice hq, .of_running ((htwice.getState t).trans hrun)⟩
  · exact ⟨h.unchanged hregion hq, .of_running ((hregion.getState t).trans hrun)⟩
  · refine ⟨?_, .of_next rfl⟩
    rw [hq, blockSelf, if_pos hrun']
    exact (hP.block (.mutex i) ((htab.registered t).mpr ht') hrun').exitCritical
  · refine ⟨?_, .of_next rfl⟩
    rw [hq, Function.update_eq_self]
    exact hP.exitCritical

theorem releaseRegion_placed (h : Placed k Q L) (hq : m.blockedTasks = Q (.mutex i))
    (hb : k.getBasePriority t = k.getPriority t) :
    Placed (releaseRegion k m t).1
      (Function.update Q (.mutex i) (releaseRegion k m t).2.blockedTasks) L ∧
      Steady k (releaseRegion k m t).1 := by
  have hplain : m.blockedTasks.Plain := hq ▸ h.plain _
  obtain ⟨-, hr⟩ | ⟨hs, hn, -⟩ | ⟨hs, u, hu, b, c, hwritten, hr⟩ := releaseRegion_cases k m t
  · rw [hr]
    exact ⟨h.unchanged (Kernel.sameSchedule_region k) hq, Steady.region (.refl _)⟩
  · obtain ⟨v, hv, -⟩ := hplain.dequeue hs
    rw [hn] at hv
    cases hv
  · obtain ⟨v, hv, hp, hrest⟩ := hplain.dequeue hs
    obtain rfl : v = u := Option.some.inj (hv.symm.trans hu)
    have hperm : (Q (.mutex i)).pointers.Perm (v :: m.blockedTasks.dequeue.2.pointers) := by
      rw [← hq, hp]
    have hin : v ∈ (Q (.mutex i)).pointers := hperm.mem_iff.mpr List.mem_cons_self
    have hrun : k.enterCritical.getState v ≠ .eRunning := by
      rw [h.enterCritical.blocked_of_mem hin]
      decide
    have hpar := (Kernel.sameSchedule_enterCritical k).toSameParameters.trans
      (Kernel.sameParameters_setTaskReady k.enterCritical (some v))
    have hreset : (k.enterCritical.setTaskReady (some v)).modifyTask t (·.resetPriority) =
        k.enterCritical.setTaskReady (some v) := by
      refine Kernel.modifyTask_resetPriority ?_
      rw [hpar.basePriority, hpar.priority]
      exact hb
    rw [hr, hwritten hplain, Kernel.assert_true, hreset, ite_self]
    exact ⟨(h.enterCritical.wake hrest (by simp) hperm).exitCritical, Steady.region (.wake hrun)⟩

theorem step_placed (h : Placed k Q L) (hq : m.blockedTasks = Q (.mutex i))
    (ht : k.currentTask = t) (hl : k.AboveIdle t)
    (howner : ∀ o, m.owner = some o → k.Registered o ∧ k.AboveIdle o) {c : Call}
    (hn : (CppRtos.Call.mutex i c).Names t)
    (hrun : (CppRtos.Call.mutex i c).beforeYield = false → k.getState t = .eRunning) :
    Placed (step k m c).1 (Function.update Q (.mutex i) (step k m c).2.1.blockedTasks) L ∧
      Proceeds t (step k m c).1 ((step k m c).2.2.call?.map (CppRtos.Call.mutex i)) := by
  have hreg : k.Registered t := ht ▸ h.registry.current
  cases c with
  | acquireLoop f e p =>
    obtain rfl : p = t := hn
    exact acquireRegion_placed h hq hreg (hrun rfl) howner f e
  | releaseRegion p =>
    obtain rfl : p = t := hn
    obtain ⟨hP, hS⟩ := releaseRegion_placed h hq (h.registry.base_eq hl)
    exact ⟨hP, .of_running (hS.running p (hrun rfl))⟩
  | acquireYield f e p =>
    exact ⟨h.unchanged (Kernel.sameSchedule_yield k) hq, .inl (Kernel.pendSV_yield k)⟩
  | _ =>
    refine ⟨h.unchanged (step_kernel k m (by simp) (by simp)) ?_, .of_running ?_⟩
    · rw [step_mutex k m (by simp) (by simp)]
      exact hq
    · rw [(step_kernel k m (by simp) (by simp)).getState]
      exact hrun rfl

end Mutex

end CppRtos
