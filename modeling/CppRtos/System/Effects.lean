import CppRtos.Kernel.Effect
import CppRtos.System

/-! Every step of a call and every interrupt is an effect of permitted primitives, and it
puts only registered tasks into the queues. Context switches and registration apart. -/
namespace CppRtos

/-! ## Semaphores -/
namespace Semaphore
variable {P : Kernel.Permit} {k : Kernel} {s : Semaphore}

theorem signalRegion_effect (hq : s.waitingQueue.Forall k.RegisteredOrNull) :
    Kernel.Effect P.Allows k (signalRegion k s).1 ∧
      (signalRegion k s).2.waitingQueue.Forall k.RegisteredOrNull := by
  have hnull : k.RegisteredOrNull default := fun t ht => by cases ht
  have hd : k.RegisteredOrNull s.waitingQueue.dequeue.1 := hq.dequeued hnull
  unfold signalRegion
  dsimp only
  split_ifs
  · refine ⟨Kernel.Effect.region (.setTaskReady ?_), hq.dequeue⟩
    rwa [(Kernel.sameSchedule_enterCritical k).registeredOrNull]
  · exact ⟨Kernel.Effect.region (.refl _ _), hq⟩
  · exact ⟨Kernel.Effect.region (.refl _ _), hq⟩

theorem flushLoop_effect (n : ℕ) (k : Kernel) (s : Semaphore)
    (hq : s.waitingQueue.Forall k.RegisteredOrNull) :
    Kernel.Effect P.Allows k (flushLoop n k s).1 ∧
      (flushLoop n k s).2.waitingQueue.Forall k.RegisteredOrNull := by
  induction n generalizing k s with
  | zero => exact ⟨.refl _ k, hq⟩
  | succ n ih =>
    have hnull : k.RegisteredOrNull default := fun t ht => by cases ht
    have hready : Kernel.Effect P.Allows k (k.setTaskReady s.waitingQueue.dequeue.1) :=
      .setTaskReady (hq.dequeued hnull)
    have hreg : ∀ t, (k.setTaskReady s.waitingQueue.dequeue.1).RegisteredOrNull t ↔
        k.RegisteredOrNull t := hready.sameTable.registeredOrNull
    unfold flushLoop
    split_ifs
    · obtain ⟨he, hf⟩ := ih (k.setTaskReady s.waitingQueue.dequeue.1)
        { s with waitingQueue := s.waitingQueue.dequeue.2 }
        (hq.dequeue.imp fun t ht => (hreg t).mpr ht)
      exact ⟨hready.trans he, hf.imp fun t ht => (hreg t).mp ht⟩
    · exact ⟨.refl _ k, hq⟩

theorem flushRegion_effect (hq : s.waitingQueue.Forall k.RegisteredOrNull) :
    Kernel.Effect P.Allows k (flushRegion k s).1 ∧
      (flushRegion k s).2.1.waitingQueue.Forall k.RegisteredOrNull := by
  have hreg := (Kernel.sameSchedule_enterCritical k).registeredOrNull
  obtain ⟨he, hf⟩ := flushLoop_effect (P := P) s.waitingQueue.getSize k.enterCritical s
    (hq.imp fun t ht => (hreg t).mpr ht)
  exact ⟨he.region, hf.imp fun t ht => (hreg t).mp ht⟩

/-- The points before the first two statements of `setTaskReady`. -/
def Call.splits : Call → Bool
  | .signalReady | .signalWord _ => true
  | _ => false

theorem step_effect (hcur : k.Registered k.currentTask)
    (hq : s.waitingQueue.Forall k.RegisteredOrNull) {c : Call}
    (hsplit : c.splits = true → P.split) (hn : ∀ p, c = .signalWord p → p = k.currentTask) :
    Kernel.Effect P.Allows k (step k s c).1 ∧
      (step k s c).2.1.waitingQueue.Forall k.RegisteredOrNull := by
  have hassert : Kernel.Effect P.Allows k (k.assert (!k.isInsideInterrupt)) :=
    .same (Kernel.sameSchedule_assert k _)
  cases c with
  | wait n =>
    simp only [step]
    split_ifs <;> exact ⟨hassert, hq⟩
  | waitRegion n e =>
    simp only [step]
    obtain ⟨-, hr⟩ | ⟨-, hr⟩ | ⟨-, hr⟩ := waitRegion_cases k s n e
    · rw [hr]
      exact ⟨Kernel.Effect.region (.refl _ _), hq⟩
    · rw [hr]
      exact ⟨Kernel.Effect.region (.refl _ _), hq⟩
    · rw [hr]
      refine ⟨Kernel.Effect.region (.run (.block k.currentTask) ?_), hq.enqueue (.some hcur)⟩
      exact ((Kernel.sameSchedule_enterCritical k).registered _).mpr hcur
  | waitYield => exact ⟨.yield k, hq⟩
  | waitReturn => exact ⟨.refl _ k, hq⟩
  | signal => exact signalRegion_effect hq
  | signalReady => exact ⟨.run (.rouse k.currentTask) ⟨hcur, hsplit rfl⟩, hq⟩
  | signalWord p =>
    refine ⟨.run (.enter p) ⟨?_, hsplit rfl⟩, hq⟩
    rw [hn p rfl]
    exact hcur
  | signalBitmap p => exact ⟨.same (Kernel.sameSchedule_markPriority k p), hq⟩
  | signalYield => exact ⟨.yield k, hq⟩
  | signalReturn => exact ⟨.refl _ k, hq⟩
  | flush => exact flushRegion_effect hq

end Semaphore

/-! ## Event groups -/
namespace EventGroup
variable {P : Kernel.Permit} {k : Kernel} {g : EventGroup}

theorem removeTask_forall {Q : Option TaskPtr → Prop} (t : TaskPtr) (n i : ℕ)
    {q : Fifo (Option TaskPtr) maxTasks} (hq : q.Forall Q) : (removeTask t n i q).Forall Q := by
  induction n generalizing i with
  | zero => exact hq
  | succ n ih =>
    unfold removeTask
    split_ifs
    · exact hq.removeAt i
    · exact ih (i + 1)
    · exact hq

theorem setLoop_effect (n i : ℕ) (k : Kernel) (g : EventGroup)
    (hq : g.waitingTasks.Forall k.RegisteredOrNull) :
    Kernel.Effect P.Allows k (setLoop n i k g).1 ∧
      (setLoop n i k g).2.waitingTasks.Forall k.RegisteredOrNull := by
  induction n generalizing i k g with
  | zero => exact ⟨.refl _ k, hq⟩
  | succ n ih =>
    have hnull : k.RegisteredOrNull default := fun t ht => by cases ht
    have hnext : ∀ i k' (g' : EventGroup), Kernel.Effect P.Allows k k' →
        g'.waitingTasks.Forall k.RegisteredOrNull →
        Kernel.Effect P.Allows k (setLoop n i k' g').1 ∧
          (setLoop n i k' g').2.waitingTasks.Forall k.RegisteredOrNull := by
      intro i k' g' he hg
      have hreg := he.sameTable.registeredOrNull
      obtain ⟨he', hg'⟩ := ih i k' g' (hg.imp fun t ht => (hreg t).mpr ht)
      exact ⟨he.trans he', hg'.imp fun t ht => (hreg t).mp ht⟩
    unfold setLoop
    split_ifs with hi
    · cases ht : g.waitingTasks.getAt i with
      | none => exact hnext _ _ _ (.same (Kernel.sameSchedule_assert k false)) hq
      | some t =>
        have hreg : k.Registered t := hq.getAt hnull i t ht
        dsimp only
        split_ifs
        · refine hnext _ _ _ ?_ (hq.removeAt i)
          exact (Kernel.Effect.run (.ready t) hreg).trans
            (.same (Kernel.sameSchedule_setFlagsToWaitFor _ t 0))
        · exact hnext _ _ _ (.refl _ k) hq
    · exact ⟨.refl _ k, hq⟩

theorem setRegion_effect (hq : g.waitingTasks.Forall k.RegisteredOrNull) (flags : BitVec 32) :
    Kernel.Effect P.Allows k (setRegion k g flags).1 ∧
      (setRegion k g flags).2.waitingTasks.Forall k.RegisteredOrNull := by
  have hreg := (Kernel.sameSchedule_enterCritical k).registeredOrNull
  obtain ⟨he, hf⟩ := setLoop_effect (P := P) g.waitingTasks.getSize 0 k.enterCritical
    { g with eventFlags := g.eventFlags ||| flags } (hq.imp fun t ht => (hreg t).mpr ht)
  unfold setRegion
  exact ⟨he.region, hf.imp fun t ht => (hreg t).mp ht⟩

theorem clearRegion_effect (hq : g.waitingTasks.Forall k.RegisteredOrNull) (flags : BitVec 32) :
    Kernel.Effect P.Allows k (clearRegion k g flags).1 ∧
      (clearRegion k g flags).2.waitingTasks.Forall k.RegisteredOrNull :=
  ⟨Kernel.Effect.region (.refl _ _), hq⟩

theorem step_effect (hcur : k.Registered k.currentTask)
    (hq : g.waitingTasks.Forall k.RegisteredOrNull) {c : Call}
    (hs : ∀ f n, c = .waitForEvents f n → P.suspend k k.currentTask) :
    Kernel.Effect P.Allows k (step k g c).1 ∧
      (step k g c).2.1.waitingTasks.Forall k.RegisteredOrNull := by
  have hregion : Kernel.Effect P.Allows k k.enterCritical.exitCritical :=
    Kernel.Effect.region (.refl _ _)
  cases c with
  | waitForEvents f n =>
    simp only [step, waitRegion]
    split_ifs
    · exact ⟨hregion, hq⟩
    · exact ⟨hregion, hq⟩
    · refine ⟨Kernel.Effect.region ?_, hq.enqueue (.some hcur)⟩
      have henter := Kernel.sameSchedule_enterCritical k
      have hsuspend : P.Allows k.enterCritical (.suspend k.currentTask) :=
        ⟨(henter.registered _).mpr hcur, P.suspend_congr _ _ _ henter (hs f n rfl)⟩
      exact (Kernel.Effect.run _ hsuspend).trans
        (.same (Kernel.sameSchedule_setFlagsToWaitFor _ _ f))
  | waitYield f e t => exact ⟨.yield k, hq⟩
  | waitLoop f e t =>
    simp only [step, loopRegion]
    split_ifs
    · exact ⟨hregion, removeTask_forall t _ _ hq⟩
    · exact ⟨hregion, removeTask_forall t _ _ hq⟩
    · exact ⟨hregion, hq⟩
  | setEvents f => exact setRegion_effect hq f
  | setYield => exact ⟨.yield k, hq⟩
  | setReturn => exact ⟨.refl _ k, hq⟩
  | clearEvents f => exact clearRegion_effect hq f

end EventGroup

/-! ## Mutexes -/
namespace Mutex
variable {P : Kernel.Permit} {k : Kernel} {m : Mutex}

theorem blockSelf_effect {p : TaskPtr} (hp : k.Registered p) :
    Kernel.Effect P.Allows k (blockSelf k p) := by
  unfold blockSelf
  split_ifs
  · exact .run (.block p) hp
  · exact .refl _ k

theorem inheritPriority_effect {p : TaskPtr} (howner : ∀ o, m.owner = some o → k.Registered o)
    (hb : ∀ o, m.owner = some o → k.getPriority o < k.getPriority p → P.boost k o)
    (hlevel : k.highestTaskPriority.level ≤ (k.getPriority p).level) :
    Kernel.Effect P.Allows k (inheritPriority k m p) := by
  obtain ⟨o, ho, hlt, h⟩ | ⟨-, h⟩ := inheritPriority_cases k m p
  · rw [h]
    exact .run (.boost o (k.getPriority p)) ⟨howner o ho, hb o ho hlt, hlt, hlevel⟩
  · exact .same h

/-- The tasks that a step reads from the mutex or from the locals of the call. -/
structure Permitted (P : Kernel.Permit) (k : Kernel) (m : Mutex) (t : TaskPtr) (c : Call) :
    Prop where
  registered : k.Registered t
  level : k.highestTaskPriority.level ≤ (k.getPriority t).level
  queue : m.blockedTasks.Forall k.RegisteredOrNull
  owner : ∀ o, m.owner = some o → k.Registered o
  boost : ∀ o, boosted k m c = some o → P.boost k o
  acquire : ∀ f e p, c = .acquireLoop f e p → p = t
  release : ∀ p, c = .releaseRegion p → p = t ∧ k.getBasePriority t = k.getPriority t

theorem step_effect {t : TaskPtr} {c : Call} (h : Permitted P k m t c) :
    Kernel.Effect P.Allows k (step k m c).1 ∧
      (step k m c).2.1.blockedTasks.Forall k.RegisteredOrNull ∧
      ∀ o, (step k m c).2.1.owner = some o → k.Registered o := by
  have henter := Kernel.sameSchedule_enterCritical k
  have hregion : Kernel.Effect P.Allows k k.enterCritical.exitCritical :=
    Kernel.Effect.region (.refl _ _)
  cases c with
  | acquireLoop f e p =>
    obtain rfl := h.acquire f e p rfl
    have hinherit : 0 < m.count → timedOut k f e = false →
        Kernel.Effect P.Allows k.enterCritical (inheritPriority k.enterCritical m p) := by
      intro hc ht
      refine inheritPriority_effect (fun o ho => (henter.registered o).mpr (h.owner o ho)) ?_ ?_
      · intro o ho hlt
        refine P.boost_congr _ _ _ henter (h.boost o ?_)
        exact (boosted_acquireLoop hc ht).mpr ⟨o, ho, hlt, rfl⟩
      · exact h.level
    simp only [step]
    obtain ⟨-, hr⟩ | ⟨-, -, hr⟩ | ⟨hc, ht, -, hr⟩ | ⟨hc, ht, -, hr⟩ := acquireRegion_cases k m f e p
    · rw [hr]
      refine ⟨?_, h.queue, fun o ho => Option.some.inj ho ▸ h.registered⟩
      exact (Kernel.Effect.same henter).trans (Kernel.Effect.region (.refl _ _))
    · rw [hr]
      exact ⟨hregion, h.queue, h.owner⟩
    · rw [hr]
      have he := hinherit hc ht
      refine ⟨(he.trans (blockSelf_effect ?_)).region, h.queue.enqueue (.some h.registered),
        h.owner⟩
      exact (he.sameTable.registered p).mpr ((henter.registered p).mpr h.registered)
    · rw [hr]
      exact ⟨(hinherit hc ht).region, h.queue, h.owner⟩
  | releaseRegion p =>
    obtain ⟨rfl, hbase⟩ := h.release p rfl
    have hnull : k.RegisteredOrNull default := fun t ht => by cases ht
    have hd := h.queue.dequeued hnull
    simp only [step]
    obtain ⟨-, hr⟩ | ⟨-, -, hr⟩ | ⟨-, u, hu, b, c, -, hr⟩ := releaseRegion_cases k m p
    · rw [hr]
      exact ⟨hregion, h.queue, fun o ho => by cases ho⟩
    · rw [hr]
      exact ⟨Kernel.Effect.region (.same (Kernel.sameSchedule_assert _ _)), h.queue.dequeue,
        fun o ho => by cases ho⟩
    · rw [hr]
      have hready : Kernel.Effect P.Allows k.enterCritical
          (k.enterCritical.setTaskReady (some u)) :=
        .run (.ready u) ((henter.registered u).mpr (hd u hu))
      have hreset : P.Allows (k.enterCritical.setTaskReady (some u)) (.reset p) := by
        have hpar := Kernel.sameParameters_setTaskReady k.enterCritical (some u)
        refine ⟨(hready.sameTable.registered p).mpr ((henter.registered p).mpr h.registered), ?_⟩
        rw [hpar.basePriority, hpar.priority]
        exact hbase
      refine ⟨(Kernel.Effect.region ?_).trans (.same (Kernel.sameSchedule_assert _ c)),
        h.queue.dequeue, fun o ho => by cases ho⟩
      split_ifs
      · exact hready.trans (.run (.reset p) hreset)
      · exact hready
  | _ =>
    refine ⟨.same (step_kernel k m (by simp) (by simp)), ?_⟩
    rw [step_mutex k m (by simp) (by simp)]
    exact ⟨h.queue, h.owner⟩

theorem step_owner_cases {t u : TaskPtr} {c : Call} (h : (step k m c).2.1.owner = some u)
    (hc : ∀ f e p, c = .acquireLoop f e p → p = t) : m.owner = some u ∨ u = t := by
  cases c with
  | acquireLoop f e p =>
    obtain rfl := hc f e p rfl
    simp only [step] at h
    obtain ⟨-, hr⟩ | ⟨-, -, hr⟩ | ⟨-, -, -, hr⟩ | ⟨-, -, -, hr⟩ := acquireRegion_cases k m f e p
    · rw [hr] at h
      exact .inr (Option.some.inj h).symm
    all_goals
      rw [hr] at h
      exact .inl h
  | releaseRegion p =>
    simp only [step] at h
    obtain ⟨-, hr⟩ | ⟨-, -, hr⟩ | ⟨-, v, -, b, c, -, hr⟩ := releaseRegion_cases k m p <;>
      · rw [hr] at h
        cases h
  | _ =>
    rw [step_mutex k m (by simp) (by simp)] at h
    exact .inl h

end Mutex

end CppRtos
