import CppRtos.System.Preemption

/-! Priority inheritance: an owner has at least the priority of every task that is queued on
its mutex, and the ready table lists it there. -/
namespace CppRtos

namespace Mutex
variable {k : Kernel} {m : Mutex} {t : TaskPtr} {c : Call}

/-- A pair of an owner and a queued task was there before, or the task `t` has become the
owner over the head of a queued task, or it has joined the queue. -/
theorem step_waits (hn : ∀ f e p, c = .acquireLoop f e p → p = t)
    (hq : m.blockedTasks.WellFormed) {L H : TaskPtr}
    (ho : (step k m c).2.1.owner = some L) (hH : H ∈ (step k m c).2.1.blockedTasks.pointers) :
    (m.owner = some L ∧ H ∈ m.blockedTasks.pointers) ∨
      (m.Takes c ∧ L = t ∧ H ∈ m.blockedTasks.pointers) ∨
      (m.owner = some L ∧ H = t ∧ (boosted k m c = some L ∨
        ¬ k.getPriority L < k.getPriority t)) := by
  cases c with
  | acquireLoop f e p =>
    obtain rfl := hn f e p rfl
    simp only [step] at ho hH
    obtain ⟨h0, hr⟩ | ⟨-, -, hr⟩ | ⟨hc, ht, hfull, hr⟩ | ⟨-, -, -, hr⟩ :=
      acquireRegion_cases k m f e p <;> rw [hr] at ho hH
    · exact .inr (.inl ⟨h0, (Option.some.inj ho).symm, hH⟩)
    · exact .inl ⟨ho, hH⟩
    · have hroom : m.blockedTasks.size < maxTasks := lt_of_le_of_ne hq.size_le hfull
      rw [Fifo.pointers_enqueue hq _ hroom, List.mem_append, List.mem_singleton] at hH
      rcases hH with hH | rfl
      · exact .inl ⟨ho, hH⟩
      · refine .inr (.inr ⟨ho, rfl, ?_⟩)
        rw [boosted_acquireLoop hc ht]
        by_cases hlt : k.getPriority L < k.getPriority H
        · exact .inl ⟨L, ho, hlt, rfl⟩
        · exact .inr hlt
    · exact .inl ⟨ho, hH⟩
  | releaseRegion p =>
    simp only [step] at ho
    obtain ⟨-, hr⟩ | ⟨-, -, hr⟩ | ⟨-, u, -, b, d, -, hr⟩ := releaseRegion_cases k m p <;>
      · rw [hr] at ho
        cases ho
  | _ =>
    rw [step_mutex k m (by simp) (by simp)] at ho hH
    exact .inl ⟨ho, hH⟩

/-- The owner that is raised gets the priority of the calling task. -/
theorem priority_boosted (hn : ∀ f e p, c = .acquireLoop f e p → p = t) {u : TaskPtr}
    (h : boosted k m c = some u) : (step k m c).1.getPriority u = k.getPriority t := by
  obtain ⟨f, e, p, rfl, hc, ht, ho, hlt⟩ := boosted_cases h
  obtain rfl := hn f e p rfl
  have henter := Kernel.sameSchedule_enterCritical k
  have hinherit : (inheritPriority k.enterCritical m p).getPriority u = k.getPriority p := by
    obtain ⟨o, ho', hlt', hr⟩ | ⟨hno, -⟩ := inheritPriority_cases k.enterCritical m p
    · obtain rfl := Option.some.inj (ho.symm.trans ho')
      rw [hr, Kernel.getPriority, Kernel.taskData_modifyTask, if_pos rfl,
        TaskData.setPriority_of_lt _ hlt', henter.priority]
    · refine absurd ?_ (hno u ho)
      rwa [henter.priority, henter.priority]
  simp only [step]
  obtain ⟨h0, -⟩ | ⟨-, hto, -⟩ | ⟨-, -, -, hr⟩ | ⟨-, -, -, hr⟩ := acquireRegion_cases k m f e p
  · omega
  · rw [ht] at hto
    cases hto
  · rw [hr]
    rw [(Kernel.sameSchedule_exitCritical _).priority, (sameParameters_blockSelf _ p).priority,
      hinherit]
  · rw [hr]
    rw [(Kernel.sameSchedule_exitCritical _).priority, hinherit]

end Mutex

namespace Objects

/-- Task `H` is in the wait queue of a mutex that task `L` owns. -/
def WaitsFor (o : Objects) (H L : TaskPtr) : Prop :=
  ∃ m, (o.mutexes m).owner = some L ∧ H ∈ (o.mutexes m).blockedTasks.pointers

/-- The step of task `t` takes a mutex although a task of higher priority is queued. -/
def Overtakes (o : Objects) (t : TaskPtr) : Call → Prop
  | .mutex m c => (o.mutexes m).Takes c ∧ ∃ H ∈ (o.mutexes m).blockedTasks.pointers,
      o.kernel.getPriority t < o.kernel.getPriority H
  | _ => False

instance (o : Objects) (t : TaskPtr) : DecidablePred (o.Overtakes t) := fun c =>
  match c with
  | .mutex _ _ => inferInstanceAs (Decidable (_ ∧ _))
  | .task _ | .semaphore _ _ | .eventGroup _ _ => inferInstanceAs (Decidable False)

/-- The step of task `t` overtakes no queued task, and an owner that it raises is not
ready and does not wait for a task of lower priority than `t`. -/
structure Inherits (o : Objects) (t : TaskPtr) (c : Call) : Prop where
  acquired : ¬ o.Overtakes t c
  unready : ∀ L ∈ o.boosts c, o.kernel.getState L ≠ .eReady
  chained : ∀ L ∈ o.boosts c, ∀ L', o.WaitsFor L L' →
    ¬ o.kernel.getPriority L' < o.kernel.getPriority t

/-- No owner has a lower priority than a task that waits for it. -/
def Ordered (o : Objects) : Prop :=
  ∀ H L, o.WaitsFor H L → ¬ o.kernel.getPriority L < o.kernel.getPriority H

section
variable {o : Objects} {t : TaskPtr} {c : Call}

/-- A step changes the priority of the owner that it raises and of no other task. -/
theorem step_priority (hs : Sound o) (hl : InCall t c o) (hcur : o.kernel.currentTask = t)
    (u : TaskPtr) : (o.step c).1.kernel.getPriority u =
      if o.boosts c = some u then o.kernel.getPriority t else o.kernel.getPriority u := by
  split_ifs with hu
  · cases c with
    | mutex m c =>
      refine Mutex.priority_boosted ?_ hu
      rintro f e p rfl
      exact hl.names
    | _ => cases hu
  · have hboost : ∀ k k' : Kernel, ∀ v, Kernel.SameSchedule k k' → o.boosts c = some v →
        o.boosts c = some v := fun _ _ _ _ hv => hv
    obtain ⟨he, -, -⟩ := step_effect (P := ⟨True, fun _ _ => True,
      fun _ v => o.boosts c = some v, fun _ _ _ _ _ => trivial, hboost⟩) hs hl hcur
      (fun _ => trivial) (fun _ => trivial) fun _ hv => hv
    exact he.priority_of_not_boost fun _ => hu

theorem step_waitsFor (hl : InCall t c o) (hq : ∀ m, (o.mutexes m).blockedTasks.WellFormed)
    {H L : TaskPtr} (hw : (o.step c).1.WaitsFor H L) : o.WaitsFor H L ∨
      (∃ m d, c = .mutex m d ∧ (o.mutexes m).Takes d ∧ L = t ∧
        H ∈ (o.mutexes m).blockedTasks.pointers) ∨
      (H = t ∧ (o.boosts c = some L ∨ ¬ o.kernel.getPriority L < o.kernel.getPriority t)) := by
  obtain ⟨m', ho, hH⟩ := hw
  cases c with
  | mutex m c =>
    by_cases hm : m' = m
    · subst hm
      simp only [step, Objects.setMutex, Function.update_self] at ho hH
      have hn : ∀ f e p, c = .acquireLoop f e p → p = t := by
        rintro f e p rfl
        exact hl.names
      obtain ⟨ho, hH⟩ | ⟨ht, hL, hH⟩ | ⟨-, hH, hb⟩ := Mutex.step_waits hn (hq m') ho hH
      · exact .inl ⟨m', ho, hH⟩
      · exact .inr (.inl ⟨m', c, rfl, ht, hL, hH⟩)
      · exact .inr (.inr ⟨hH, hb⟩)
    · simp only [step, Objects.setMutex, Function.update_of_ne hm] at ho hH
      exact .inl ⟨m', ho, hH⟩
  | _ => exact .inl ⟨m', ho, hH⟩

/-- Priorities stay ordered along the queues. -/
theorem Ordered.step (hs : Sound o) (hl : InCall t c o) (hcur : o.kernel.currentTask = t)
    (hq : ∀ m, (o.mutexes m).blockedTasks.WellFormed) (hi : o.Inherits t c)
    (h : o.Ordered) : (o.step c).1.Ordered := by
  have hraise : ∀ L, o.boosts c = some L → o.kernel.getPriority L < o.kernel.getPriority t := by
    intro L hL
    cases c with
    | mutex m c =>
      obtain ⟨f, e, p, rfl, -, -, -, hlt⟩ := Mutex.boosted_cases hL
      rwa [show p = t from hl.names] at hlt
    | _ => cases hL
  have hself : ¬ o.boosts c = some t := fun ht => TaskPriority.lt_irrefl _ (hraise t ht)
  intro H L hw
  rw [step_priority hs hl hcur, step_priority hs hl hcur]
  obtain hw | ⟨m, d, rfl, ht, rfl, hH⟩ | ⟨rfl, hb⟩ := step_waitsFor hl hq hw
  · have hord := h H L hw
    split_ifs with hL hH hH
    · exact TaskPriority.lt_irrefl _
    · have hlt := hraise L hL
      rw [TaskPriority.lt_iff] at hord hlt ⊢
      omega
    · exact hi.chained H hH L hw
    · exact hord
  · have hnone : ∀ v, ¬ o.boosts (.mutex m d) = some v := by
      intro v hv
      obtain ⟨f, e, p, rfl, hc, -⟩ := Mutex.boosted_cases hv
      have h0 : (o.mutexes m).count ≤ 0 := ht
      omega
    rw [if_neg (hnone _), if_neg (hnone _)]
    exact fun hlt => hi.acquired ⟨ht, H, hH, hlt⟩
  · rw [if_neg hself]
    split_ifs with hL
    · exact TaskPriority.lt_irrefl _
    · exact hb.resolve_left hL

end

end Objects

/-! ## The ready table -/

namespace Standing

def ReadyListed (v : Standing) : Prop := v.state = .eReady → v.level ∈ v.listed

end Standing

namespace Objects

end Objects

namespace system

/-- The step raises nobody and overtakes nobody. -/
def Quiet : Event → State → Prop
  | .exec t, s => ∀ c ∈ s.call t, s.shared.boosts c = none ∧ ¬ s.shared.Overtakes t c
  | _, _ => True

instance : ∀ e s, Decidable (Quiet e s)
  | .exec t, s => inferInstanceAs (Decidable (∀ c ∈ s.call t,
      s.shared.boosts c = none ∧ ¬ s.shared.Overtakes t c))
  | .invoke _ _, _ => inferInstanceAs (Decidable True)
  | .env _, _ => inferInstanceAs (Decidable True)

end system

end CppRtos
