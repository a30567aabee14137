import CppRtos.Kernel.Registry

/-! Registration: what `addTask` does to a well-registered kernel, and the constructor. -/
namespace CppRtos.Kernel

/-- Registration of task `t` in the next free slot. -/
structure Adds (k k' : Kernel) (t : TaskPtr) : Prop where
  tasks : k'.tasks = Function.update k.tasks k.taskCount (some t)
  taskCount : k'.taskCount = k.taskCount + 1
  highestTaskPriority : k'.highestTaskPriority =
    if k.getPriority t > k.highestTaskPriority then k.getPriority t else k.highestTaskPriority
  currentTask : k'.currentTask = k.currentTask
  idleTask : k'.idleTask = k.idleTask
  alarms : k'.alarms = k.alarms
  sleepingTasksBitmap : k'.sleepingTasksBitmap = k.sleepingTasksBitmap
  id : ∀ u, (k'.taskData u).id = if u = t then k.taskCount else (k.taskData u).id
  priority : ∀ u, k'.getPriority u = k.getPriority u
  basePriority : ∀ u, k'.getBasePriority u = k.getBasePriority u
  getState : ∀ u, k'.getState u = k.getState u
  bits : ∀ p i, k'.readyBit p i =
    (k.readyBit p i || decide ((p, i) = ((k.getPriority t).level, k.taskCount)))

section
variable {k : Kernel} (h : k.taskCount < maxTasks) (t : TaskPtr)
include h

theorem taskData_addTask : ∃ sp, (k.addTask t).taskData = Function.update k.taskData t
    { k.taskData t with id := k.taskCount, currentStackPointer := sp } := by
  refine ⟨((k.addTask t).taskData t).currentStackPointer, ?_⟩
  unfold addTask
  rw [if_pos h]
  dsimp only
  split_ifs <;> simp [exitCritical, setReadyBit, assert, modifyTask, enterCritical,
    TaskData.setId, TaskData.setCurrentStackPtr]

theorem readyTasks_addTask (hl : (k.getPriority t).level < maxPrioryLevels) :
    (k.addTask t).readyTasks = Function.update k.readyTasks (k.getPriority t).level
      (Words.setBit (k.readyTasks (k.getPriority t).level) k.taskCount) := by
  unfold addTask
  rw [if_pos h]
  dsimp only
  split_ifs <;> simp_all [exitCritical, setReadyBit, assert, modifyTask, enterCritical,
    TaskData.setId, TaskData.setCurrentStackPtr, getPriority]

theorem highestTaskPriority_addTask : (k.addTask t).highestTaskPriority =
    if k.getPriority t > k.highestTaskPriority then k.getPriority t
    else k.highestTaskPriority := by
  unfold addTask
  rw [if_pos h]
  dsimp only
  split_ifs <;> simp_all [exitCritical, setReadyBit, assert, modifyTask, enterCritical,
    TaskData.setId, TaskData.setCurrentStackPtr, getPriority]

theorem adds_addTask (hl : (k.getPriority t).level < maxPrioryLevels) :
    Adds k (k.addTask t) t := by
  obtain ⟨sp, hd⟩ := taskData_addTask h t
  have hframe : (k.addTask t).tasks = Function.update k.tasks k.taskCount (some t) ∧
      (k.addTask t).taskCount = k.taskCount + 1 ∧ (k.addTask t).currentTask = k.currentTask ∧
      (k.addTask t).idleTask = k.idleTask ∧ (k.addTask t).alarms = k.alarms ∧
      (k.addTask t).sleepingTasksBitmap = k.sleepingTasksBitmap := by
    unfold addTask
    rw [if_pos h]
    dsimp only
    split_ifs <;> exact ⟨rfl, rfl, rfl, rfl, rfl, rfl⟩
  obtain ⟨htasks, hcount, hcur, hidle, halarms, hsleep⟩ := hframe
  constructor
  · exact htasks
  · exact hcount
  · exact highestTaskPriority_addTask h t
  · exact hcur
  · exact hidle
  · exact halarms
  · exact hsleep
  · intro u
    rw [hd, Function.update_apply]
    split_ifs <;> rfl
  · intro u
    unfold getPriority
    rw [hd, Function.update_apply]
    split_ifs with hu
    · rw [hu]
    · rfl
  · intro u
    unfold getBasePriority
    rw [hd, Function.update_apply]
    split_ifs with hu
    · rw [hu]
    · rfl
  · intro u
    unfold getState
    rw [hd, Function.update_apply]
    split_ifs with hu
    · rw [hu]
    · rfl
  · intro p i
    have hi : k.taskCount < 32 := h
    unfold readyBit
    rw [readyTasks_addTask h t hl, Function.update_apply]
    by_cases hp : p = (k.getPriority t).level
    · subst hp
      rw [if_pos rfl, Words.getLsbD_setBit]
      congr 1
      simp only [Prod.mk.injEq, true_and, decide_eq_decide]
      omega
    · simp [hp]

end

namespace Registry
variable {k : Kernel}

theorem addTask_of_full (h : ¬ k.taskCount < maxTasks) (t : TaskPtr) : k.addTask t = k :=
  if_neg h

theorem registered_adds (h : Registry k) {k' : Kernel} {t : TaskPtr} (ha : Adds k k' t)
    (u : TaskPtr) : k'.Registered u ↔ u = t ∨ k.Registered u := by
  unfold Registered
  rw [ha.tasks]
  constructor
  · rintro ⟨i, hi⟩
    rw [Function.update_apply] at hi
    split_ifs at hi
    · exact .inl (Option.some.inj hi).symm
    · exact .inr ⟨i, hi⟩
  · rintro (rfl | ⟨i, hi⟩)
    · exact ⟨k.taskCount, Function.update_self _ _ _⟩
    · have hne : i ≠ k.taskCount := (h.slot_lt i u hi).ne
      exact ⟨i, by rw [Function.update_of_ne hne]; exact hi⟩

theorem adds (h : Registry k) {k' : Kernel} {t : TaskPtr} (hroom : k.taskCount < maxTasks)
    (ht : ¬ k.Registered t) (ha : Adds k k' t) : Registry k' := by
  have hreg := h.registered_adds ha
  have hne : ∀ u, k.Registered u → u ≠ t := fun u hu he => ht (he ▸ hu)
  have hlevel : k'.highestTaskPriority.level ≤ k.highestTaskPriority.level ∧
      k'.highestTaskPriority.level ≤ (k.getPriority t).level := by
    rw [ha.highestTaskPriority]
    split_ifs with hgt
    · exact ⟨le_of_lt hgt, le_rfl⟩
    · exact ⟨le_rfl, not_lt.mp hgt⟩
  constructor
  · rw [ha.taskCount]
    exact hroom
  · intro i u hi
    rw [ha.tasks, Function.update_apply] at hi
    rw [ha.taskCount]
    split_ifs at hi with hcount
    · omega
    · exact (h.slot_lt i u hi).trans (Nat.lt_succ_self _)
  · intro i u hi
    rw [ha.tasks, Function.update_apply] at hi
    rw [ha.id]
    split_ifs at hi with hcount
    · rw [if_pos (Option.some.inj hi).symm, hcount]
    · rw [if_neg (hne u ⟨i, hi⟩)]
      exact h.slot_id i u hi
  · intro i hi
    rw [ha.taskCount] at hi
    rw [ha.tasks]
    by_cases hcount : i = k.taskCount
    · exact ⟨t, by rw [hcount, Function.update_self]⟩
    · rw [Function.update_of_ne hcount]
      exact h.occupied i (by omega)
  · rw [ha.currentTask, hreg]
    exact .inr h.current
  · intro p i hbit
    rw [ha.bits, Bool.or_eq_true, decide_eq_true_eq] at hbit
    rw [ha.tasks]
    rcases hbit with hbit | he
    · obtain ⟨u, hu⟩ := h.bits p i hbit
      exact ⟨u, by rw [Function.update_of_ne (h.slot_lt i u hu).ne]; exact hu⟩
    · have hi : i = k.taskCount := congrArg Prod.snd he
      exact ⟨t, by rw [hi, Function.update_self]⟩
  · intro u p hu hbit
    rw [hreg] at hu
    rw [ha.id, ha.bits, Bool.or_eq_true, decide_eq_true_eq] at hbit
    rw [ha.priority]
    rcases hu with rfl | hu
    · rw [if_pos rfl] at hbit
      rcases hbit with hbit | he
      · obtain ⟨v, hv⟩ := h.bits p _ hbit
        exact absurd (h.slot_lt _ v hv) (lt_irrefl _)
      · have hp : p = (k.getPriority u).level := congrArg Prod.fst he
        exact hp.ge
    · rw [if_neg (hne u hu)] at hbit
      rcases hbit with hbit | he
      · exact h.bit_level u p hu hbit
      · have hi : (k.taskData u).id = k.taskCount := congrArg Prod.snd he
        have hlt := h.slot_lt _ u (h.tasks_id hu)
        omega
  · intro u
    rw [ha.priority]
    exact h.level_le u
  · intro u hu
    rw [hreg] at hu
    rw [ha.priority]
    rcases hu with rfl | hu
    · exact hlevel.2
    · exact hlevel.1.trans (h.highest_le u hu)
  · intro u
    rw [ha.priority, ha.basePriority]
    exact h.priorities u
  · intro u hu
    rw [hreg, not_or] at hu
    rw [ha.getState]
    exact h.unregistered u hu.2
  · intro i
    rw [ha.alarms]
    exact h.alarms i
  · intro i hbit
    rw [ha.sleepingTasksBitmap] at hbit
    obtain ⟨u, hu⟩ := h.sleepers i hbit
    rw [ha.tasks, Function.update_of_ne (h.slot_lt i u hu).ne]
    exact ⟨u, hu⟩

theorem addTask (h : Registry k) {t : TaskPtr} (ht : ¬ k.Registered t) :
    Registry (k.addTask t) := by
  by_cases hroom : k.taskCount < maxTasks
  · exact h.adds hroom ht (adds_addTask hroom t ((h.level_le t).trans_lt (by decide)))
  · rwa [addTask_of_full hroom]

end Registry

/-! ## The constructor -/

theorem Adds.setCurrent {k k' : Kernel} {t c : TaskPtr} (h : Adds k k' t)
    (hc : c = k.currentTask) : Adds k { k' with currentTask := c } t :=
  ⟨h.tasks, h.taskCount, h.highestTaskPriority, hc, h.idleTask, h.alarms,
    h.sleepingTasksBitmap, h.id, h.priority, h.basePriority, h.getState, h.bits⟩

theorem adds_new (idleTask : TaskPtr) (assigned : TaskPtr → TaskPriority) :
    Adds (initial idleTask assigned) (new idleTask assigned) idleTask := by
  have hlevel : ((initial idleTask assigned).getPriority idleTask).level < maxPrioryLevels := by
    simp [initial, getPriority, maxPrioryLevels]
  have hroom : (initial idleTask assigned).taskCount < maxTasks := Nat.zero_lt_succ 31
  have ha := adds_addTask hroom idleTask hlevel
  exact ha.setCurrent rfl

theorem registered_new (idleTask : TaskPtr) (assigned : TaskPtr → TaskPriority) (t : TaskPtr) :
    (new idleTask assigned).Registered t ↔ t = idleTask := by
  unfold Registered
  rw [(adds_new idleTask assigned).tasks]
  constructor
  · rintro ⟨i, hi⟩
    rw [Function.update_apply] at hi
    split_ifs at hi
    · exact (Option.some.inj hi).symm
    · exact absurd hi (by simp [initial])
  · rintro rfl
    exact ⟨_, Function.update_self _ _ _⟩

/-- Priorities before registration: those that `setPriority` has stored. -/
theorem priorities_initial (idleTask : TaskPtr) (assigned : TaskPtr → TaskPriority)
    (t : TaskPtr) :
    ((initial idleTask assigned).getPriority t).level ≤ 15 ∧
      ((initial idleTask assigned).getBasePriority t = (initial idleTask assigned).getPriority t ∨
        (initial idleTask assigned).getPriority t = .idle) ∧
      (initial idleTask assigned).getState t = .eReady := by
  unfold getPriority getBasePriority getState initial
  by_cases ht : t = idleTask
  · subst ht
    simp
  · simp only [Function.update_of_ne ht]
    obtain ⟨hne, hf⟩ | ⟨-, hf⟩ := TaskData.fresh_cases (assigned t)
    · rw [hf]
      exact ⟨(assigned t).level_le_idle_or_reserved.resolve_right hne, .inl rfl, rfl⟩
    · rw [hf]
      exact ⟨le_rfl, .inr rfl, rfl⟩

theorem id_initial (idleTask : TaskPtr) (assigned : TaskPtr → TaskPriority) (t : TaskPtr) :
    ((initial idleTask assigned).taskData t).id = 0 := by
  unfold initial
  dsimp only
  by_cases ht : t = idleTask
  · rw [ht, Function.update_self]
  · rw [Function.update_of_ne ht]
    obtain ⟨-, hf⟩ | ⟨-, hf⟩ := TaskData.fresh_cases (assigned t) <;> rw [hf]

theorem registry_new (idleTask : TaskPtr) (assigned : TaskPtr → TaskPriority) :
    Registry (new idleTask assigned) := by
  have ha := adds_new idleTask assigned
  have hinitial := priorities_initial idleTask assigned
  have hreg := registered_new idleTask assigned
  have hslot : ∀ i t, (new idleTask assigned).tasks i = some t → i = 0 ∧ t = idleTask := by
    intro i t hi
    have hr := (hreg t).mp ⟨i, hi⟩
    rw [ha.tasks, Function.update_apply] at hi
    split_ifs at hi with h0
    · exact ⟨h0, hr⟩
    · exact absurd hi (by simp [initial])
  have hbits : ∀ p i, (new idleTask assigned).readyBit p i = true → p = 15 ∧ i = 0 := by
    intro p i hbit
    rw [ha.bits] at hbit
    simpa [readyBit, initial, getPriority] using hbit
  have hidle : (new idleTask assigned).getPriority idleTask = .idle := by
    rw [ha.priority]
    simp [getPriority, initial]
  have hzero : (new idleTask assigned).tasks 0 = some idleTask := by
    rw [ha.tasks]
    exact Function.update_self _ _ _
  have hcount : (new idleTask assigned).taskCount = 1 := ha.taskCount
  have hhigh : (new idleTask assigned).highestTaskPriority = .idle := by
    rw [ha.highestTaskPriority]
    simp [getPriority, initial]
  constructor
  · rw [hcount]
    decide
  · intro i t hi
    rw [hcount, (hslot i t hi).1]
    exact Nat.zero_lt_one
  · intro i t hi
    obtain ⟨rfl, rfl⟩ := hslot i t hi
    rw [ha.id, if_pos rfl]
    rfl
  · intro i hi
    obtain rfl : i = 0 := by omega
    exact ⟨idleTask, hzero⟩
  · exact ⟨0, hzero⟩
  · intro p i hbit
    rw [(hbits p i hbit).2]
    exact ⟨idleTask, hzero⟩
  · intro t p ht hbit
    rw [(hbits p _ hbit).1, (hreg t).mp ht, hidle]
    exact le_rfl
  · intro t
    rw [ha.priority]
    exact (hinitial t).1
  · intro t ht
    rw [hhigh, (hreg t).mp ht, hidle]
  · intro t
    rw [ha.priority, ha.basePriority]
    exact (hinitial t).2.1
  · intro t _
    rw [ha.getState]
    exact (hinitial t).2.2
  · intro i
    rw [ha.alarms]
    rfl
  · intro i hbit
    rw [ha.sleepingTasksBitmap] at hbit
    simp [initial] at hbit

end CppRtos.Kernel
