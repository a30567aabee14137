import CppRtos.Kernel.Effect

/-! The task table, the priorities of its tasks and the levels of the ready bits: what
every run maintains, whatever the tasks do. -/
namespace CppRtos.Kernel

/-- Development of a kernel without registration: tasks keep their places, priorities are
only raised, and new ready bits belong to registered tasks. -/
structure Evolves (k k' : Kernel) : Prop where
  tasks : k'.tasks = k.tasks
  taskCount : k'.taskCount = k.taskCount
  highestTaskPriority : k'.highestTaskPriority = k.highestTaskPriority
  idleTask : k'.idleTask = k.idleTask
  alarms : k'.alarms = k.alarms
  id : ∀ t, (k'.taskData t).id = (k.taskData t).id
  level_le : ∀ t, (k'.getPriority t).level ≤ (k.getPriority t).level
  priorities : ∀ t, k'.getBasePriority t = k'.getPriority t ∨
    (k'.getPriority t = k.getPriority t ∧ k'.getBasePriority t = k.getBasePriority t)
  highest_le : ∀ t, k'.getPriority t = k.getPriority t ∨
    k.highestTaskPriority.level ≤ (k'.getPriority t).level
  bits : ∀ p i, k'.readyBit p i = true → k.readyBit p i = true ∨
    ∃ t, k.Registered t ∧ (k.taskData t).id = i ∧ (k'.getPriority t).level ≤ p
  unregistered : ∀ t, ¬ k.Registered t → k'.getState t = k.getState t
  sleepers : ∀ i, k'.sleepingTasksBitmap.getLsbD i = true →
    k.sleepingTasksBitmap.getLsbD i = true ∨ ∃ t, k.Registered t ∧ (k.taskData t).id % 2 ^ 8 = i

namespace Evolves
variable {k k' k'' : Kernel}

theorem registered (h : Evolves k k') (t : TaskPtr) : k'.Registered t ↔ k.Registered t := by
  unfold Registered
  rw [h.tasks]

theorem trans (h : Evolves k k') (h' : Evolves k' k'') : Evolves k k'' where
  tasks := h'.tasks.trans h.tasks
  taskCount := h'.taskCount.trans h.taskCount
  highestTaskPriority := h'.highestTaskPriority.trans h.highestTaskPriority
  idleTask := h'.idleTask.trans h.idleTask
  alarms := h'.alarms.trans h.alarms
  id t := (h'.id t).trans (h.id t)
  level_le t := (h'.level_le t).trans (h.level_le t)
  priorities t := by
    rcases h'.priorities t with hb | ⟨hp, hb⟩
    · exact .inl hb
    · rw [hp, hb]
      exact h.priorities t
  highest_le t := by
    rcases h'.highest_le t with hp | hl
    · rw [hp]
      exact h.highest_le t
    · rw [h.highestTaskPriority] at hl
      exact .inr hl
  bits p i hbit := by
    rcases h'.bits p i hbit with hbit' | ⟨t, hr, hi, hl⟩
    · rcases h.bits p i hbit' with hbit₀ | ⟨t, hr, hi, hl⟩
      · exact .inl hbit₀
      · exact .inr ⟨t, hr, hi, (h'.level_le t).trans hl⟩
    · exact .inr ⟨t, (h.registered t).mp hr, (h.id t).symm.trans hi, hl⟩
  unregistered t ht := by
    rw [h'.unregistered t ((h.registered t).not.mpr ht), h.unregistered t ht]
  sleepers i hbit := by
    rcases h'.sleepers i hbit with hbit | ⟨t, hr, hi⟩
    · exact h.sleepers i hbit
    · exact .inr ⟨t, (h.registered t).mp hr, by rwa [h.id] at hi⟩

theorem of_sameParameters (ht : SameTable k k') (hp : SameParameters k k')
    (hbits : ∀ p i, k'.readyBit p i = true → k.readyBit p i = true ∨
      ∃ t, k.Registered t ∧ (k.taskData t).id = i ∧ (k.getPriority t).level ≤ p)
    (hs : ∀ t, ¬ k.Registered t → k'.getState t = k.getState t)
    (hw : ∀ i, k'.sleepingTasksBitmap.getLsbD i = true → k.sleepingTasksBitmap.getLsbD i = true ∨
      ∃ t, k.Registered t ∧ (k.taskData t).id % 2 ^ 8 = i) : Evolves k k' where
  tasks := ht.tasks
  taskCount := ht.taskCount
  highestTaskPriority := ht.highestTaskPriority
  idleTask := ht.idleTask
  alarms := ht.alarms
  id := hp.id
  level_le t := by rw [hp.priority]
  priorities t := .inr ⟨hp.priority t, hp.basePriority t⟩
  highest_le t := .inl (hp.priority t)
  bits p i hbit := by
    simp only [hp.priority]
    exact hbits p i hbit
  unregistered := hs
  sleepers := hw

theorem of_sameSchedule (h : SameSchedule k k') : Evolves k k' :=
  .of_sameParameters h.toSameTable h.toSameParameters
    (fun p i hbit => .inl (by rwa [← h.readyBit])) (fun t _ => h.getState t)
    fun i hbit => .inl (by rwa [← h.sleepingTasksBitmap])

end Evolves

section
variable {k : Kernel} {t : TaskPtr}

theorem evolves_setTaskReady (h : k.Registered t) : Evolves k (k.setTaskReady (some t)) := by
  refine .of_sameParameters (sameTable_setTaskReady k _) (sameParameters_setTaskReady k _) ?_ ?_ ?_
  · intro p i hbit
    rw [readyBit_setTaskReady, Bool.or_eq_true, decide_eq_true_eq] at hbit
    rcases hbit with hbit | ⟨-, -, he⟩
    · exact .inl hbit
    · have hp : p = (k.getPriority t).level := congrArg Prod.fst he
      exact .inr ⟨t, h, (congrArg Prod.snd he).symm, hp.ge⟩
  · intro u hu
    rw [getState_setTaskReady, if_neg]
    rintro rfl
    exact hu h
  · intro i hbit
    rw [sleepingTasksBitmap_setTaskReady] at hbit
    exact .inl hbit

theorem evolves_setReadyWord (h : k.Registered t) : Evolves k (k.setReadyWord t) := by
  refine .of_sameParameters (sameTable_setReadyWord k t) (sameParameters_setReadyWord k t) ?_ ?_ ?_
  · intro p i hbit
    rw [readyBit_setReadyWord, Bool.or_eq_true, decide_eq_true_eq] at hbit
    rcases hbit with hbit | ⟨-, -, he⟩
    · exact .inl hbit
    · have hp : p = (k.getPriority t).level := congrArg Prod.fst he
      exact .inr ⟨t, h, (congrArg Prod.snd he).symm, hp.ge⟩
  · intro u _
    exact getState_setReadyWord k t u
  · intro i hbit
    rw [sleepingTasksBitmap_setReadyWord] at hbit
    exact .inl hbit

theorem evolves_resetTaskReady (h : k.Registered t) (s : TaskStateType) :
    Evolves k (k.resetTaskReady (some t) s) := by
  refine .of_sameParameters (sameTable_resetTaskReady k t s) (sameParameters_resetTaskReady k t s)
    ?_ ?_ ?_
  · intro p i hbit
    rw [readyBit_resetTaskReady, Bool.and_eq_true] at hbit
    exact .inl hbit.1
  · intro u hu
    rw [getState_resetTaskReady, if_neg]
    rintro rfl
    exact hu h
  · intro i hbit
    rw [sleepingTasksBitmap_resetTaskReady] at hbit
    exact .inl hbit

theorem evolves_setState (h : k.Registered t) (s : TaskStateType) :
    Evolves k (k.setState t s) := by
  refine .of_sameParameters ⟨rfl, rfl, rfl, rfl, rfl, rfl⟩ (sameParameters_setState k t s)
    (fun p i hbit => .inl hbit) ?_ fun i hbit => .inl hbit
  intro u hu
  rw [getState_setState, if_neg]
  rintro rfl
  exact hu h

theorem evolves_sleepTable (k : Kernel) {w : BitVec 64} (times : ℕ → ℕ)
    (hw : ∀ i, w.getLsbD i = true → k.sleepingTasksBitmap.getLsbD i = true ∨
      ∃ t, k.Registered t ∧ (k.taskData t).id % 2 ^ 8 = i) :
    Evolves k { k with sleepingTasksBitmap := w, taskWakeUpTimes := times } :=
  .of_sameParameters ⟨rfl, rfl, rfl, rfl, rfl, rfl⟩ ⟨fun _ => rfl, fun _ => rfl, fun _ => rfl⟩
    (fun _ _ hbit => .inl hbit) (fun _ _ => rfl) hw

theorem evolves_boost {prio : TaskPriority} (hlt : k.getPriority t < prio)
    (hlevel : k.highestTaskPriority.level ≤ prio.level) (h : k.Registered t) :
    Evolves k (k.modifyTask t (·.setPriority prio)) := by
  have hd : ∀ u, (k.modifyTask t (·.setPriority prio)).taskData u =
      if u = t then { k.taskData t with priority := prio, basePriority := prio }
      else k.taskData u := by
    intro u
    rw [taskData_modifyTask, TaskData.setPriority_of_lt _ hlt]
  have hself : ∀ u, u = t → (k.modifyTask t (·.setPriority prio)).taskData u =
      { k.taskData u with priority := prio, basePriority := prio } := by
    rintro u rfl
    rw [hd, if_pos rfl]
  have hother : ∀ u, u ≠ t → (k.modifyTask t (·.setPriority prio)).taskData u = k.taskData u :=
    fun u hu => by rw [hd, if_neg hu]
  refine ⟨rfl, rfl, rfl, rfl, rfl, fun u => ?_, fun u => ?_, fun u => ?_, fun u => ?_,
    fun p i hbit => .inl hbit, fun u hu => ?_, fun i hbit => .inl hbit⟩ <;> by_cases hut : u = t
  · rw [hself u hut]
  · rw [hother u hut]
  · simp only [getPriority, hself u hut]
    subst hut
    exact hlt.le
  · simp only [getPriority, hother u hut, le_refl]
  · simp only [getPriority, getBasePriority, hself u hut, true_or]
  · simp only [getPriority, getBasePriority, hother u hut, and_self, or_true]
  · simp only [getPriority, hself u hut, hlevel, or_true]
  · simp only [getPriority, hother u hut, true_or]
  · exact absurd (hut ▸ h) hu
  · simp only [getState, hother u hut]

theorem modifyTask_resetPriority (h : k.getBasePriority t = k.getPriority t) :
    k.modifyTask t (·.resetPriority) = k := by
  have hd : ∀ d : TaskData, d.basePriority = d.priority → d.resetPriority = d := by
    rintro ⟨sp, prio, base, flags, state, id⟩ (rfl : base = prio)
    rfl
  have hself : (k.taskData t).resetPriority = k.taskData t := hd _ h
  unfold modifyTask
  simp only [hself, Function.update_eq_self]

end

theorem Permit.Allows.evolves {P : Permit} {k : Kernel} {a : Primitive} (h : P.Allows k a) :
    Evolves k (a.run k) := by
  cases a with
  | ready t => exact evolves_setTaskReady h
  | block t => exact evolves_resetTaskReady h _
  | rouse t => exact evolves_setState h.1 _
  | enter t => exact evolves_setReadyWord h.1
  | suspend t => exact evolves_setState h.1 _
  | sleep t n =>
    have hreg : Registered { k with
        sleepingTasksBitmap := Words.setBit k.sleepingTasksBitmap ((k.taskData t).id % 2 ^ 8)
        taskWakeUpTimes := Function.update k.taskWakeUpTimes ((k.taskData t).id % 2 ^ 8)
          ((k.getTickCount + n) % 2 ^ 64) } t := h.1
    refine (evolves_sleepTable k _ fun i hbit => ?_).trans (evolves_setState hreg .eSleeping)
    rw [Words.getLsbD_setBit, Bool.or_eq_true, decide_eq_true_eq] at hbit
    exact hbit.imp_right fun hi => ⟨t, h.1, hi.2.symm⟩
  | wake i =>
    have hready : Evolves k (k.setTaskReady (k.tasks i)) := by
      cases ht : k.tasks i with
      | none => exact .of_sameSchedule (.refl k)
      | some t => exact evolves_setTaskReady ⟨i, ht⟩
    refine hready.trans (evolves_sleepTable _ _ fun j hbit => .inl ?_)
    rw [Words.getLsbD_clearBit, Bool.and_eq_true] at hbit
    exact hbit.1
  | boost t prio => exact evolves_boost h.2.2.1 h.2.2.2 h.1
  | reset t =>
    rw [Primitive.run, modifyTask_resetPriority h.2]
    exact .of_sameSchedule (.refl k)

theorem Effect.evolves {P : Permit} {k k' : Kernel} (h : Effect P.Allows k k') :
    Evolves k k' := by
  induction h with
  | same h => exact .of_sameSchedule h
  | run a h => exact h.evolves
  | trans _ _ ih ih' => exact ih.trans ih'

/-! ## The invariant -/

/-- The registered tasks fill the table from slot 0 on and know their slots; no registered
priority is above `highestTaskPriority`; ready bits belong to registered tasks and are not
above the levels of these, and sleep bits belong to registered tasks. A base priority differs
from the priority only where the application has assigned `PRIORITY_RESERVED`. -/
structure Registry (k : Kernel) : Prop where
  taskCount_le : k.taskCount ≤ maxTasks
  slot_lt : ∀ i t, k.tasks i = some t → i < k.taskCount
  slot_id : ∀ i t, k.tasks i = some t → (k.taskData t).id = i
  occupied : ∀ i < k.taskCount, ∃ t, k.tasks i = some t
  current : k.Registered k.currentTask
  bits : ∀ p i, k.readyBit p i = true → ∃ t, k.tasks i = some t
  bit_level : ∀ t p, k.Registered t → k.readyBit p (k.taskData t).id = true →
    (k.getPriority t).level ≤ p
  level_le : ∀ t, (k.getPriority t).level ≤ 15
  highest_le : ∀ t, k.Registered t → k.highestTaskPriority.level ≤ (k.getPriority t).level
  priorities : ∀ t, k.getBasePriority t = k.getPriority t ∨ k.getPriority t = .idle
  unregistered : ∀ t, ¬ k.Registered t → k.getState t = .eReady
  alarms : ∀ i, k.alarms i = none
  sleepers : ∀ i, k.sleepingTasksBitmap.getLsbD i = true → ∃ t, k.tasks i = some t

namespace Registry
variable {k k' : Kernel}

theorem tasks_id (h : Registry k) {t : TaskPtr} (ht : k.Registered t) :
    k.tasks (k.taskData t).id = some t := by
  obtain ⟨i, hi⟩ := ht
  rw [h.slot_id i t hi, hi]

theorem id_lt (h : Registry k) {t : TaskPtr} (ht : k.Registered t) : (k.taskData t).id < 32 :=
  (h.slot_lt _ t (h.tasks_id ht)).trans_le h.taskCount_le

theorem id_inj (h : Registry k) {t u : TaskPtr} (ht : k.Registered t) (hu : k.Registered u)
    (he : (k.taskData t).id = (k.taskData u).id) : t = u := by
  have h1 := h.tasks_id ht
  rw [he, h.tasks_id hu] at h1
  exact (Option.some.inj h1).symm

theorem highest_le_bit (h : Registry k) {p i : ℕ} (hbit : k.readyBit p i = true) :
    k.highestTaskPriority.level ≤ p := by
  obtain ⟨t, ht⟩ := h.bits p i hbit
  have hi := h.slot_id i t ht
  rw [← hi] at hbit
  exact (h.highest_le t ⟨i, ht⟩).trans (h.bit_level t p ⟨i, ht⟩ hbit)

theorem evolves (h : Registry k) (he : Evolves k k') (hc : k'.Registered k'.currentTask) :
    Registry k' where
  taskCount_le := by rw [he.taskCount]; exact h.taskCount_le
  slot_lt i t ht := by
    rw [he.tasks] at ht
    rw [he.taskCount]
    exact h.slot_lt i t ht
  slot_id i t ht := by
    rw [he.tasks] at ht
    rw [he.id]
    exact h.slot_id i t ht
  occupied i hi := by
    rw [he.taskCount] at hi
    rw [he.tasks]
    exact h.occupied i hi
  current := hc
  bits p i hbit := by
    rw [he.tasks]
    rcases he.bits p i hbit with hbit | ⟨t, ht, rfl, -⟩
    · exact h.bits p i hbit
    · exact ⟨t, h.tasks_id ht⟩
  bit_level t p ht hbit := by
    rw [he.registered] at ht
    rw [he.id] at hbit
    rcases he.bits p _ hbit with hbit | ⟨u, hu, hid, hl⟩
    · exact (he.level_le t).trans (h.bit_level t p ht hbit)
    · rw [h.id_inj hu ht hid] at hl
      exact hl
  level_le t := (he.level_le t).trans (h.level_le t)
  highest_le t ht := by
    rw [he.registered] at ht
    rw [he.highestTaskPriority]
    rcases he.highest_le t with hp | hl
    · rw [hp]
      exact h.highest_le t ht
    · exact hl
  priorities t := by
    rcases he.priorities t with hb | ⟨hp, hb⟩
    · exact .inl hb
    · rw [hp, hb]
      exact h.priorities t
  unregistered t ht := by
    rw [he.registered] at ht
    rw [he.unregistered t ht]
    exact h.unregistered t ht
  alarms i := by
    rw [he.alarms]
    exact h.alarms i
  sleepers i hbit := by
    rw [he.tasks]
    rcases he.sleepers i hbit with hbit | ⟨t, ht, rfl⟩
    · exact h.sleepers i hbit
    · rw [Nat.mod_eq_of_lt ((h.id_lt ht).trans (by decide))]
      exact ⟨t, h.tasks_id ht⟩

theorem effect {P : Permit} (h : Registry k) (he : Effect P.Allows k k') : Registry k' := by
  refine h.evolves he.evolves ?_
  rw [he.sameTable.currentTask]
  exact (he.evolves.registered _).mpr h.current

end Registry

def AboveIdle (k : Kernel) (t : TaskPtr) : Prop := (k.getPriority t).level < 15

theorem Registry.base_eq {k : Kernel} (h : Registry k) {t : TaskPtr} (ht : k.AboveIdle t) :
    k.getBasePriority t = k.getPriority t := by
  refine (h.priorities t).resolve_right fun hp => ?_
  unfold AboveIdle at ht
  rw [hp] at ht
  exact lt_irrefl _ ht

end CppRtos.Kernel
