import CppRtos.Kernel.Registration
import CppRtos.Kernel.Switch

/-! The assertions of the kernel operations. They fail for a task whose priority does not index
the ready table, and for no other reason. -/
namespace CppRtos.Kernel

/-- Ids and ready bits belong to registered tasks, and no assertion has failed. -/
structure Numbered (k : Kernel) : Prop where
  count_le : k.taskCount ≤ maxTasks
  id_lt : ∀ t, (k.taskData t).id < k.taskCount
  occupied : ∀ i < k.taskCount, ∃ t, k.tasks i = some t
  bits : ∀ p i, k.readyBit p i = true → i < k.taskCount
  outside : k.isInsideInterrupt = false
  fault : k.fault = false

/-- A part of an operation that registers no task and fails no assertion. -/
structure Succeeds (k k' : Kernel) : Prop where
  tasks : k'.tasks = k.tasks
  taskCount : k'.taskCount = k.taskCount
  id : ∀ t, (k'.taskData t).id = (k.taskData t).id
  bits : ∀ p i, k'.readyBit p i = true → k.readyBit p i = true ∨ ∃ t, (k.taskData t).id = i
  outside : k'.isInsideInterrupt = k.isInsideInterrupt
  fault : k'.fault = k.fault

variable {k k' k'' : Kernel} {t : TaskPtr}

theorem Succeeds.refl (k : Kernel) : Succeeds k k :=
  ⟨rfl, rfl, fun _ => rfl, fun _ _ => .inl, rfl, rfl⟩

theorem Succeeds.trans (h : Succeeds k k') (h' : Succeeds k' k'') : Succeeds k k'' where
  tasks := h'.tasks.trans h.tasks
  taskCount := h'.taskCount.trans h.taskCount
  id t := (h'.id t).trans (h.id t)
  bits p i hbit := by
    rcases h'.bits p i hbit with hbit | ⟨t, ht⟩
    · exact h.bits p i hbit
    · exact .inr ⟨t, (h.id t).symm.trans ht⟩
  outside := h'.outside.trans h.outside
  fault := h'.fault.trans h.fault

theorem Numbered.succeeds (h : k.Numbered) (hp : Succeeds k k') : k'.Numbered where
  count_le := hp.taskCount.trans_le h.count_le
  id_lt t := by
    rw [hp.id, hp.taskCount]
    exact h.id_lt t
  occupied i hi := by
    rw [hp.taskCount] at hi
    rw [hp.tasks]
    exact h.occupied i hi
  bits p i hbit := by
    rw [hp.taskCount]
    rcases hp.bits p i hbit with hbit | ⟨t, ht⟩
    · exact h.bits p i hbit
    · exact ht ▸ h.id_lt t
  outside := hp.outside.trans h.outside
  fault := hp.fault.trans h.fault

/-! ## Operations on one task -/

theorem succeeds_of_sameSchedule (h : SameSchedule k k')
    (ho : k'.isInsideInterrupt = k.isInsideInterrupt) (hf : k'.fault = k.fault) : Succeeds k k' :=
  ⟨h.tasks, h.taskCount, h.id, fun p i hbit => .inl (by rwa [← h.readyBit]), ho, hf⟩

theorem succeeds_port (k : Kernel) {p : Port} (hp : p.insideInterrupt = k.port.insideInterrupt) :
    Succeeds k { k with port := p } :=
  succeeds_of_sameSchedule (sameSchedule_port k p) hp rfl

theorem succeeds_enterCritical (k : Kernel) : Succeeds k k.enterCritical := by
  have hport : k.port.enterCritical.insideInterrupt = k.port.insideInterrupt := by
    unfold Port.enterCritical
    rfl
  exact succeeds_port k hport

theorem succeeds_exitCritical (k : Kernel) : Succeeds k k.exitCritical := by
  have hport : k.port.exitCritical.insideInterrupt = k.port.insideInterrupt := by
    unfold Port.exitCritical
    rfl
  exact succeeds_port k hport

theorem succeeds_yield (k : Kernel) : Succeeds k k.yield := by
  have hport : k.port.yield.insideInterrupt = k.port.insideInterrupt := by
    unfold Port.yield Port.exitCritical Port.enterCritical
    rfl
  exact succeeds_port k hport

theorem succeeds_modifyTask (k : Kernel) (t : TaskPtr) {f : TaskData → TaskData}
    (hf : (f (k.taskData t)).id = (k.taskData t).id) : Succeeds k (k.modifyTask t f) :=
  ⟨rfl, rfl, modifyTask_congr k t hf, fun _ _ => .inl, rfl, rfl⟩

theorem succeeds_setPriority (k : Kernel) (t : TaskPtr) (prio : TaskPriority) :
    Succeeds k (k.modifyTask t (·.setPriority prio)) := by
  have hid : ((k.taskData t).setPriority prio).id = (k.taskData t).id := by
    unfold TaskData.setPriority
    split_ifs <;> rfl
  exact succeeds_modifyTask k t hid

theorem succeeds_clearReadyBit (k : Kernel) (p i : ℕ) : Succeeds k (k.clearReadyBit p i) := by
  have hbits : ∀ q j, (k.clearReadyBit p i).readyBit q j = true → k.readyBit q j = true := by
    intro q j hbit
    rw [readyBit_clearReadyBit, Bool.and_eq_true] at hbit
    exact hbit.1
  exact ⟨rfl, rfl, fun _ => rfl, fun q j hbit => .inl (hbits q j hbit), rfl, rfl⟩

theorem fault_setTaskReady (h : (k.slot t).1 < maxPrioryLevels) :
    (k.setTaskReady (some t)).fault = k.fault := by
  have hlevel : ((k.setState t .eReady).getPriority t).level = (k.slot t).1 :=
    congrArg Prod.fst (k.slot_setState t .eReady)
  unfold setTaskReady
  dsimp only
  rw [hlevel, if_pos h, decide_eq_true h]
  exact Bool.or_false k.fault

theorem fault_resetTaskReady (h : (k.slot t).1 < maxPrioryLevels) (s : TaskStateType) :
    (k.resetTaskReady (some t) s).fault = k.fault := by
  have hlevel : (k.getPriority t).level < maxPrioryLevels := h
  unfold resetTaskReady
  dsimp only
  rw [if_pos hlevel, decide_eq_true hlevel]
  split_ifs
  · exact Bool.or_false k.fault
  · rfl

theorem succeeds_setTaskReady (h : (k.slot t).1 < maxPrioryLevels) :
    Succeeds k (k.setTaskReady (some t)) := by
  have htable := sameTable_setTaskReady k (some t)
  constructor
  · exact htable.tasks
  · exact htable.taskCount
  · exact (sameParameters_setTaskReady k (some t)).id
  · intro p i hbit
    rw [readyBit_setTaskReady, Bool.or_eq_true, decide_eq_true_eq] at hbit
    rcases hbit with hbit | ⟨-, -, he⟩
    · exact .inl hbit
    · exact .inr ⟨t, (congrArg Prod.snd he).symm⟩
  · exact congrArg Port.insideInterrupt (port_setTaskReady k (some t))
  · exact fault_setTaskReady h

theorem succeeds_setReadyWord (h : (k.slot t).1 < maxPrioryLevels) :
    Succeeds k (k.setReadyWord t) := by
  have htable := sameTable_setReadyWord k t
  constructor
  · exact htable.tasks
  · exact htable.taskCount
  · exact (sameParameters_setReadyWord k t).id
  · intro p i hbit
    rw [readyBit_setReadyWord, Bool.or_eq_true, decide_eq_true_eq] at hbit
    rcases hbit with hbit | ⟨-, -, he⟩
    · exact .inl hbit
    · exact .inr ⟨t, (congrArg Prod.snd he).symm⟩
  · exact congrArg Port.insideInterrupt (port_setReadyWord k t)
  · obtain ⟨-, hr⟩ | ⟨hge, -⟩ := k.setReadyWord_cases t
    · rw [hr]
      exact Bool.or_false k.fault
    · exact absurd h hge

theorem succeeds_resetTaskReady (h : (k.slot t).1 < maxPrioryLevels) (s : TaskStateType) :
    Succeeds k (k.resetTaskReady (some t) s) := by
  have htable := sameTable_resetTaskReady k t s
  constructor
  · exact htable.tasks
  · exact htable.taskCount
  · exact (sameParameters_resetTaskReady k t s).id
  · intro p i hbit
    rw [readyBit_resetTaskReady, Bool.and_eq_true] at hbit
    exact .inl hbit.1
  · exact congrArg Port.insideInterrupt (port_resetTaskReady k t s)
  · exact fault_resetTaskReady h s

/-! ## Choice of a task -/

theorem succeeds_setCurrent (k : Kernel) (c : TaskPtr) : Succeeds k { k with currentTask := c } :=
  ⟨rfl, rfl, fun _ => rfl, fun _ _ => .inl, rfl, rfl⟩

theorem succeeds_switchTo {i : ℕ} (ht : k.tasks i = some t)
    (hcurrent : (k.slot k.currentTask).1 < maxPrioryLevels) (p : ℕ) :
    Succeeds k (k.switchTo p i) := by
  have hready : Succeeds k k.readyRunning := by
    unfold readyRunning
    split_ifs
    · exact succeeds_setTaskReady hcurrent
    · exact .refl k
  have hrunning : Succeeds k.readyRunning (k.readyRunning.setState t .eRunning) :=
    succeeds_modifyTask _ t rfl
  rw [switchTo_eq ht]
  have hcurrent := (hready.trans hrunning).trans (succeeds_setCurrent _ t)
  exact hcurrent.trans (succeeds_clearReadyBit _ p i)

theorem Numbered.select (h : k.Numbered)
    (hcurrent : (k.slot k.currentTask).1 < maxPrioryLevels) :
    Succeeds k k.selectHighestPriorityTask := by
  have henter := succeeds_enterCritical k
  obtain ⟨-, hsel⟩ | ⟨p, i, hfind, hsel⟩ := k.select_cases
  · rw [hsel]
    exact henter.trans (succeeds_exitCritical _)
  · obtain ⟨t, ht⟩ := h.occupied i (h.bits p i (findReady_some hfind).bit)
    have hswitch : Succeeds k.enterCritical (k.enterCritical.switchTo p i) :=
      succeeds_switchTo (k := k.enterCritical) ht hcurrent p
    rw [hsel]
    exact (henter.trans hswitch).trans (succeeds_exitCritical _)

/-! ## Registration -/

theorem insideInterrupt_initialiseStack (p : Port) (top : ℕ) :
    (p.initialiseStack top).1.insideInterrupt = p.insideInterrupt := by
  simp only [Port.initialiseStack, Port.push, List.foldl_cons, List.foldl_nil]

theorem outside_addTask (k : Kernel) (t : TaskPtr) :
    (k.addTask t).isInsideInterrupt = k.isInsideInterrupt := by
  unfold addTask
  dsimp only
  split_ifs <;> simp [isInsideInterrupt, exitCritical, Port.exitCritical, setReadyBit, assert,
    modifyTask, enterCritical, Port.enterCritical, insideInterrupt_initialiseStack]

theorem fault_addTask (hl : (k.getPriority t).level < maxPrioryLevels) :
    (k.addTask t).fault = k.fault := by
  by_cases hroom : k.taskCount < maxTasks
  · have hcount : k.taskCount + 1 ≤ maxTasks := hroom
    unfold addTask
    rw [if_pos hroom]
    dsimp only
    split_ifs <;> simp_all [exitCritical, setReadyBit, assert, modifyTask, enterCritical,
      TaskData.setId, TaskData.setCurrentStackPtr, getPriority]
  · rw [Registry.addTask_of_full hroom]

theorem Numbered.addTask (h : k.Numbered) (hl : (k.getPriority t).level < maxPrioryLevels) :
    (k.addTask t).Numbered := by
  by_cases hroom : k.taskCount < maxTasks
  · have ha := adds_addTask hroom t hl
    constructor
    · rw [ha.taskCount]
      exact hroom
    · intro u
      have hold := h.id_lt u
      rw [ha.taskCount, ha.id]
      split_ifs <;> omega
    · intro i hi
      rw [ha.taskCount] at hi
      rw [ha.tasks, Function.update_apply]
      split_ifs with hnew
      · exact ⟨t, rfl⟩
      · exact h.occupied i (by omega)
    · intro p i hbit
      rw [ha.bits, Bool.or_eq_true, decide_eq_true_eq] at hbit
      rw [ha.taskCount]
      rcases hbit with hbit | he
      · have hold := h.bits p i hbit
        omega
      · have hi : i = k.taskCount := congrArg Prod.snd he
        omega
    · exact (outside_addTask k t).trans h.outside
    · exact (fault_addTask hl).trans h.fault
  · rwa [Registry.addTask_of_full hroom]

theorem numbered_new (idleTask : TaskPtr) (assigned : TaskPtr → TaskPriority) :
    (new idleTask assigned).Numbered := by
  have ha := adds_new idleTask assigned
  have hcount : (new idleTask assigned).taskCount = 1 := ha.taskCount
  have hlevel : ((initial idleTask assigned).getPriority idleTask).level < maxPrioryLevels :=
    (priorities_initial idleTask assigned idleTask).1.trans_lt (by decide)
  have hadd : Succeeds ((initial idleTask assigned).addTask idleTask) (new idleTask assigned) :=
    succeeds_setCurrent _ idleTask
  constructor
  · rw [hcount]
    decide
  · intro t
    have hzero : (initial idleTask assigned).taskCount = 0 := rfl
    rw [hcount, ha.id, id_initial, hzero, ite_self]
    exact Nat.zero_lt_one
  · intro i hi
    obtain rfl : i = 0 := by omega
    exact ⟨idleTask, by rw [ha.tasks]; exact Function.update_self _ _ _⟩
  · intro p i hbit
    rw [ha.bits] at hbit
    have hi : i = 0 := by
      rw [Bool.or_eq_true, decide_eq_true_eq] at hbit
      rcases hbit with hbit | he
      · simp [readyBit, initial] at hbit
      · exact congrArg Prod.snd he
    omega
  · exact hadd.outside.trans (outside_addTask _ idleTask)
  · exact hadd.fault.trans (fault_addTask hlevel)

end CppRtos.Kernel
