import CppRtos.Kernel.Registry

/-! Context switches: what `selectHighestPriorityTask` does to a well-registered kernel. -/
namespace CppRtos.Kernel

/-- A switch to task `t`, found at position `(p, i)` of the ready table. -/
structure Switches (k k' : Kernel) (p i : ℕ) (t : TaskPtr) : Prop where
  first : k.First p i
  slot : k.tasks i = some t
  tasks : k'.tasks = k.tasks
  taskCount : k'.taskCount = k.taskCount
  highestTaskPriority : k'.highestTaskPriority = k.highestTaskPriority
  idleTask : k'.idleTask = k.idleTask
  alarms : k'.alarms = k.alarms
  sleepingTasksBitmap : k'.sleepingTasksBitmap = k.sleepingTasksBitmap
  parameters : SameParameters k k'
  currentTask : k'.currentTask = t
  getState : ∀ u, k'.getState u = if u = t then .eRunning else
    if u = k.currentTask ∧ k.getState k.currentTask = .eRunning then .eReady else k.getState u
  bits : ∀ q j, k'.readyBit q j = ((k.readyBit q j ||
    decide (k.getState k.currentTask = .eRunning ∧ q < maxPrioryLevels ∧
      (q, j) = k.slot k.currentTask)) && decide ((q, j) ≠ (p, i)))

/-- Waking the current task if it is running. -/
def readyRunning (k : Kernel) : Kernel :=
  if k.getState k.currentTask = .eRunning then k.setTaskReady (some k.currentTask) else k

theorem readyRunning_effect {P : Permit} {k : Kernel} (h : k.Registered k.currentTask) :
    Effect P.Allows k k.readyRunning := by
  unfold readyRunning
  split_ifs
  · exact .run (.ready k.currentTask) h
  · exact .refl _ k

theorem getState_readyRunning (k : Kernel) (u : TaskPtr) : k.readyRunning.getState u =
    if u = k.currentTask ∧ k.getState k.currentTask = .eRunning then .eReady
    else k.getState u := by
  unfold readyRunning
  by_cases h : k.getState k.currentTask = .eRunning
  · simp only [h, if_true, and_true, getState_setTaskReady]
  · simp only [h, if_false, and_false]

theorem sameParameters_readyRunning (k : Kernel) : SameParameters k k.readyRunning := by
  unfold readyRunning
  split_ifs
  · exact sameParameters_setTaskReady k _
  · exact .refl k

theorem sleepingTasksBitmap_readyRunning (k : Kernel) :
    k.readyRunning.sleepingTasksBitmap = k.sleepingTasksBitmap := by
  unfold readyRunning
  split_ifs
  · exact sleepingTasksBitmap_setTaskReady k _
  · rfl

theorem switchTo_eq {k : Kernel} {i : ℕ} {t : TaskPtr} (h : k.tasks i = some t) (p : ℕ) :
    k.switchTo p i =
      ({ k.readyRunning.setState t .eRunning with
        currentTask := t } : Kernel).clearReadyBit p i := by
  unfold switchTo
  rw [h]
  rfl

theorem Switches.congr {k₀ k k' k₁ : Kernel} {p i : ℕ} {t : TaskPtr} (h₀ : SameSchedule k₀ k)
    (h : Switches k k' p i t) (h₁ : SameSchedule k' k₁) : Switches k₀ k₁ p i t where
  first := by
    have hf := h.first
    constructor
    · exact hf.level_lt
    · exact (h₀.readyBit p i).symm.trans hf.bit
    · intro q j hq hle
      rw [← h₀.readyBit]
      exact hf.above q j hq (by rwa [h₀.highestTaskPriority])
    · intro j hj
      rw [← h₀.readyBit]
      exact hf.before j hj
  slot := by rw [← h₀.tasks]; exact h.slot
  tasks := (h₁.tasks.trans h.tasks).trans h₀.tasks
  taskCount := (h₁.taskCount.trans h.taskCount).trans h₀.taskCount
  highestTaskPriority :=
    (h₁.highestTaskPriority.trans h.highestTaskPriority).trans h₀.highestTaskPriority
  idleTask := (h₁.idleTask.trans h.idleTask).trans h₀.idleTask
  alarms := (h₁.alarms.trans h.alarms).trans h₀.alarms
  sleepingTasksBitmap :=
    (h₁.sleepingTasksBitmap.trans h.sleepingTasksBitmap).trans h₀.sleepingTasksBitmap
  parameters := h₀.toSameParameters.trans (h.parameters.trans h₁.toSameParameters)
  currentTask := h₁.currentTask.trans h.currentTask
  getState u := by
    rw [h₁.getState, h.getState, h₀.getState, h₀.getState, h₀.currentTask]
  bits q j := by
    have hslot : k.slot k.currentTask = k₀.slot k₀.currentTask := by
      unfold Kernel.slot
      rw [h₀.currentTask, h₀.priority, h₀.id]
    rw [h₁.readyBit, h.bits, h₀.readyBit, h₀.getState, hslot, h₀.currentTask]

theorem readyBit_setTaskReady_of_slot {k : Kernel} {t : TaskPtr}
    (ht : (k.slot t).1 < maxPrioryLevels ∧ (k.slot t).2 < 32) (p i : ℕ) :
    (k.setTaskReady (some t)).readyBit p i = (k.readyBit p i || decide ((p, i) = k.slot t)) := by
  rw [readyBit_setTaskReady]
  congr 1
  rw [decide_eq_decide]
  constructor
  · exact fun he => he.2.2
  · intro he
    have hp : p = (k.slot t).1 := congrArg Prod.fst he
    have hi : i = (k.slot t).2 := congrArg Prod.snd he
    exact ⟨hp ▸ ht.1, hi ▸ ht.2, he⟩

/-- The task table as registration leaves it: a registered task knows its slot, and the current
task is registered. -/
structure Seated (k : Kernel) : Prop where
  slot_lt : ∀ i t, k.tasks i = some t → i < maxTasks
  slot_id : ∀ i t, k.tasks i = some t → (k.taskData t).id = i
  current : k.Registered k.currentTask

/-- In addition every registered task has one of the 16 levels. -/
structure Tabled (k : Kernel) : Prop extends Seated k where
  level_lt : ∀ t, k.Registered t → (k.getPriority t).level < maxPrioryLevels

namespace Seated
variable {k : Kernel} (h : Seated k)
include h

theorem tasks_id {t : TaskPtr} (ht : k.Registered t) : k.tasks (k.taskData t).id = some t := by
  obtain ⟨i, hi⟩ := ht
  rw [h.slot_id i t hi, hi]

theorem id_lt {t : TaskPtr} (ht : k.Registered t) : (k.taskData t).id < 32 :=
  h.slot_lt _ t (h.tasks_id ht)

theorem id_inj {t u : TaskPtr} (ht : k.Registered t) (hu : k.Registered u)
    (he : (k.taskData t).id = (k.taskData u).id) : t = u := by
  have ht' := h.tasks_id ht
  rw [he, h.tasks_id hu] at ht'
  exact (Option.some.inj ht').symm

end Seated

theorem Seated.congr {k k' : Kernel} (h : Seated k) (htasks : k'.tasks = k.tasks)
    (hid : ∀ t, (k'.taskData t).id = (k.taskData t).id) (hc : k.Registered k'.currentTask) :
    Seated k' where
  slot_lt i t ht := h.slot_lt i t (htasks ▸ ht)
  slot_id i t ht := by
    rw [hid]
    exact h.slot_id i t (htasks ▸ ht)
  current := by
    unfold Registered
    rw [htasks]
    exact hc

theorem Tabled.congr {k k' : Kernel} (h : Tabled k) (htasks : k'.tasks = k.tasks)
    (hpar : SameParameters k k') (hc : k.Registered k'.currentTask) : Tabled k' where
  toSeated := h.toSeated.congr htasks hpar.id hc
  level_lt t ht := by
    unfold Registered at ht
    rw [htasks] at ht
    rw [hpar.priority]
    exact h.level_lt t ht

theorem Tabled.slot_lt_table {k : Kernel} (h : Tabled k) {t : TaskPtr} (ht : k.Registered t) :
    (k.slot t).1 < maxPrioryLevels ∧ (k.slot t).2 < 32 := ⟨h.level_lt t ht, h.id_lt ht⟩

namespace Seated
variable {k : Kernel} (h : Seated k)
include h

theorem readyBit_setTaskReady {t : TaskPtr} (ht : k.Registered t) (p i : ℕ) :
    (k.setTaskReady (some t)).readyBit p i =
      (k.readyBit p i || decide (p < maxPrioryLevels ∧ (p, i) = k.slot t)) := by
  rw [Kernel.readyBit_setTaskReady]
  congr 1
  rw [decide_eq_decide]
  constructor
  · exact fun he => ⟨he.1, he.2.2⟩
  · intro he
    have hi : i = (k.taskData t).id := congrArg Prod.snd he.2
    exact ⟨he.1, hi ▸ h.id_lt ht, he.2⟩

theorem readyBit_readyRunning (p i : ℕ) : k.readyRunning.readyBit p i =
    (k.readyBit p i || decide (k.getState k.currentTask = .eRunning ∧ p < maxPrioryLevels ∧
      (p, i) = k.slot k.currentTask)) := by
  unfold readyRunning
  by_cases hr : k.getState k.currentTask = .eRunning
  · simp only [hr, if_true, true_and]
    exact h.readyBit_setTaskReady h.current p i
  · simp only [hr, if_false, false_and, decide_false, Bool.or_false]

theorem switches_switchTo {p i : ℕ} {t : TaskPtr} (hf : k.First p i)
    (hi : k.tasks i = some t) : Switches k (k.switchTo p i) p i t := by
  have htable := (readyRunning_effect (P := .all) h.current).sameTable
  have hpar := (sameParameters_readyRunning k).trans
    (sameParameters_setState k.readyRunning t .eRunning)
  rw [switchTo_eq hi]
  constructor
  · exact hf
  · exact hi
  · exact htable.tasks
  · exact htable.taskCount
  · exact htable.highestTaskPriority
  · exact htable.idleTask
  · exact htable.alarms
  · exact sleepingTasksBitmap_readyRunning k
  · exact ⟨hpar.priority, hpar.basePriority, hpar.id⟩
  · rfl
  · intro u
    have hs := getState_setState k.readyRunning t u .eRunning
    rw [getState_readyRunning] at hs
    exact hs
  · intro q j
    rw [readyBit_clearReadyBit, ← h.readyBit_readyRunning]
    rfl

theorem select_some {p i : ℕ} {t : TaskPtr} (hf : k.findReady = some (p, i))
    (ht : k.tasks i = some t) : Switches k k.selectHighestPriorityTask p i t := by
  have hfirst := findReady_some hf
  have henter := sameSchedule_enterCritical k
  have hseated : k.enterCritical.Seated :=
    h.congr henter.tasks henter.id (henter.currentTask ▸ h.current)
  have hsw : Switches k.enterCritical (k.enterCritical.switchTo p i) p i t :=
    hseated.switches_switchTo ⟨hfirst.level_lt, hfirst.bit, hfirst.above, hfirst.before⟩ ht
  obtain ⟨hn, -⟩ | ⟨p', i', hf', hs⟩ := k.select_cases
  · rw [hf] at hn
    cases hn
  · obtain ⟨rfl, rfl⟩ := Prod.mk.inj (Option.some.inj (hf.symm.trans hf'))
    rw [hs]
    exact hsw.congr henter (sameSchedule_exitCritical _)

end Seated

namespace Registry
variable {k : Kernel}

theorem tabled (h : Registry k) : Tabled k :=
  ⟨⟨fun i t ht => (h.slot_lt i t ht).trans_le h.taskCount_le, h.slot_id, h.current⟩,
    fun t _ => (h.level_le t).trans_lt (by decide)⟩

/-- A call of `selectHighestPriorityTask` switches to the first ready task above the idle
level, if there is one. -/
theorem select (h : Registry k) :
    (¬ k.AppReady ∧ SameSchedule k k.selectHighestPriorityTask) ∨
      ∃ p i t, Switches k k.selectHighestPriorityTask p i t := by
  obtain ⟨hn, hs⟩ | ⟨p, i, hf, -⟩ := k.select_cases
  · refine .inl ⟨findReady_none hn fun p i hbit => h.highest_le_bit hbit, ?_⟩
    rw [hs]
    exact (sameSchedule_enterCritical k).trans (sameSchedule_exitCritical _)
  · obtain ⟨t, ht⟩ := h.bits p i (findReady_some hf).bit
    exact .inr ⟨p, i, t, h.tabled.select_some hf ht⟩

/-- The same for the interrupt in which the choice is made. -/
theorem pendSV (h : Registry k) :
    (¬ k.AppReady ∧ SameSchedule k k.pendSVHandler) ∨
      ∃ p i t, Switches k k.pendSVHandler p i t := by
  unfold pendSVHandler
  set k₁ : Kernel := { k with port := { k.port with pendSV := false, masked := true } }
  have h₁ : SameSchedule k k₁ := sameSchedule_port k _
  have hreg : Registry k₁ := h.effect (P := .all) (.same h₁)
  have hlast := sameSchedule_port k₁.selectHighestPriorityTask
    { k₁.selectHighestPriorityTask.port with masked := false }
  obtain ⟨hn, hs⟩ | ⟨p, i, t, hs⟩ := hreg.select
  · exact .inl ⟨hn, h₁.trans (hs.trans hlast)⟩
  · exact .inr ⟨p, i, t, hs.congr h₁ hlast⟩

theorem switches_evolves {k' : Kernel} {p i : ℕ} {t : TaskPtr} (h : Registry k)
    (hs : Switches k k' p i t) : Evolves k k' where
  tasks := hs.tasks
  taskCount := hs.taskCount
  highestTaskPriority := hs.highestTaskPriority
  idleTask := hs.idleTask
  alarms := hs.alarms
  id := hs.parameters.id
  level_le u := by rw [hs.parameters.priority]
  priorities u := .inr ⟨hs.parameters.priority u, hs.parameters.basePriority u⟩
  highest_le u := .inl (hs.parameters.priority u)
  bits q j hbit := by
    rw [hs.bits, Bool.and_eq_true, Bool.or_eq_true, decide_eq_true_eq] at hbit
    rcases hbit.1 with hbit | ⟨-, -, he⟩
    · exact .inl hbit
    · have hq : q = (k.getPriority k.currentTask).level := congrArg Prod.fst he
      refine .inr ⟨k.currentTask, h.current, (congrArg Prod.snd he).symm, ?_⟩
      rw [hs.parameters.priority]
      exact hq.ge
  unregistered u hu := by
    have hut : u ≠ t := fun he => hu (he ▸ ⟨i, hs.slot⟩)
    have huc : u ≠ k.currentTask := fun he => hu (he ▸ h.current)
    rw [hs.getState, if_neg hut, if_neg fun hc => huc hc.1]
  sleepers i hbit := .inl (by rwa [← hs.sleepingTasksBitmap])

theorem switches {k' : Kernel} {p i : ℕ} {t : TaskPtr} (h : Registry k)
    (hs : Switches k k' p i t) : Registry k' := by
  refine h.evolves (h.switches_evolves hs) ⟨i, ?_⟩
  rw [hs.tasks, hs.currentTask]
  exact hs.slot

theorem switches_level {k' : Kernel} {p i : ℕ} {t : TaskPtr} (h : Registry k)
    (hs : Switches k k' p i t) : (k.getPriority t).level ≤ p ∧ p < 15 := by
  have hbit := hs.first.bit
  rw [← h.slot_id i t hs.slot] at hbit
  exact ⟨h.bit_level t p ⟨i, hs.slot⟩ hbit, hs.first.level_lt⟩

end Registry

end CppRtos.Kernel
