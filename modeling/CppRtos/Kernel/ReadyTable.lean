import CppRtos.Kernel
import Mathlib.Data.List.Basic

/-! What the operations on the ready table and the scan do, field by field. The other
modules use these equations and do not unfold the operations. -/
namespace CppRtos.Kernel

/-- Bit `i` of the word of level `p`. -/
def readyBit (k : Kernel) (p i : ℕ) : Bool := (k.readyTasks p).getLsbD i

/-- The task is in a slot of the task table. -/
def Registered (k : Kernel) (t : TaskPtr) : Prop := ∃ i, k.tasks i = some t

/-- Agreement on the task table and on what a context switch alone changes. -/
structure SameTable (k k' : Kernel) : Prop where
  tasks : k'.tasks = k.tasks
  currentTask : k'.currentTask = k.currentTask
  highestTaskPriority : k'.highestTaskPriority = k.highestTaskPriority
  taskCount : k'.taskCount = k.taskCount
  idleTask : k'.idleTask = k.idleTask
  alarms : k'.alarms = k.alarms

/-- Agreement on priorities and ids. -/
structure SameParameters (k k' : Kernel) : Prop where
  priority : ∀ t, k'.getPriority t = k.getPriority t
  basePriority : ∀ t, k'.getBasePriority t = k.getBasePriority t
  id : ∀ t, (k'.taskData t).id = (k.taskData t).id

/-- Agreement on everything that registration and scheduling read or write, the times
apart. -/
structure SameSchedule (k k' : Kernel) : Prop extends SameTable k k', SameParameters k k' where
  readyTasks : k'.readyTasks = k.readyTasks
  getState : ∀ t, k'.getState t = k.getState t
  sleepingTasksBitmap : k'.sleepingTasksBitmap = k.sleepingTasksBitmap

theorem SameTable.refl (k : Kernel) : SameTable k k := ⟨rfl, rfl, rfl, rfl, rfl, rfl⟩

theorem SameTable.trans {k k' k'' : Kernel} (h : SameTable k k') (h' : SameTable k' k'') :
    SameTable k k'' where
  tasks := h'.tasks.trans h.tasks
  currentTask := h'.currentTask.trans h.currentTask
  highestTaskPriority := h'.highestTaskPriority.trans h.highestTaskPriority
  taskCount := h'.taskCount.trans h.taskCount
  idleTask := h'.idleTask.trans h.idleTask
  alarms := h'.alarms.trans h.alarms

theorem SameTable.registered {k k' : Kernel} (h : SameTable k k') (t : TaskPtr) :
    k'.Registered t ↔ k.Registered t := by
  rw [Registered, h.tasks, Registered]

theorem SameParameters.refl (k : Kernel) : SameParameters k k :=
  ⟨fun _ => rfl, fun _ => rfl, fun _ => rfl⟩

theorem SameParameters.trans {k k' k'' : Kernel} (h : SameParameters k k')
    (h' : SameParameters k' k'') : SameParameters k k'' where
  priority t := (h'.priority t).trans (h.priority t)
  basePriority t := (h'.basePriority t).trans (h.basePriority t)
  id t := (h'.id t).trans (h.id t)

theorem SameSchedule.refl (k : Kernel) : SameSchedule k k :=
  ⟨.refl k, .refl k, rfl, fun _ => rfl, rfl⟩

theorem SameSchedule.trans {k k' k'' : Kernel} (h : SameSchedule k k')
    (h' : SameSchedule k' k'') : SameSchedule k k'' where
  toSameTable := h.toSameTable.trans h'.toSameTable
  toSameParameters := h.toSameParameters.trans h'.toSameParameters
  readyTasks := h'.readyTasks.trans h.readyTasks
  getState t := (h'.getState t).trans (h.getState t)
  sleepingTasksBitmap := h'.sleepingTasksBitmap.trans h.sleepingTasksBitmap

theorem SameSchedule.of_taskData {k k' : Kernel} (h : SameTable k k')
    (hr : k'.readyTasks = k.readyTasks) (ht : k'.taskData = k.taskData)
    (hs : k'.sleepingTasksBitmap = k.sleepingTasksBitmap) : SameSchedule k k' := by
  have hd : ∀ t, k'.taskData t = k.taskData t := fun t => congrFun ht t
  exact ⟨h, ⟨fun t => congrArg TaskData.priority (hd t),
    fun t => congrArg TaskData.basePriority (hd t), fun t => congrArg TaskData.id (hd t)⟩, hr,
    fun t => congrArg TaskData.state (hd t), hs⟩

theorem sameSchedule_port (k : Kernel) (p : Port) : SameSchedule k { k with port := p } :=
  .of_taskData ⟨rfl, rfl, rfl, rfl, rfl, rfl⟩ rfl rfl rfl

theorem sameSchedule_enterCritical (k : Kernel) : SameSchedule k k.enterCritical :=
  sameSchedule_port k _

theorem sameSchedule_exitCritical (k : Kernel) : SameSchedule k k.exitCritical :=
  sameSchedule_port k _

theorem sameSchedule_region (k : Kernel) : SameSchedule k k.enterCritical.exitCritical :=
  (sameSchedule_enterCritical k).trans (sameSchedule_exitCritical _)

theorem sameSchedule_yield (k : Kernel) : SameSchedule k k.yield := sameSchedule_port k _

theorem taskData_port (k : Kernel) (p : Port) :
    ({ k with port := p } : Kernel).taskData = k.taskData := rfl

@[simp] theorem taskData_enterCritical (k : Kernel) : k.enterCritical.taskData = k.taskData :=
  taskData_port k _

@[simp] theorem taskData_exitCritical (k : Kernel) : k.exitCritical.taskData = k.taskData :=
  taskData_port k _

@[simp] theorem taskData_yield (k : Kernel) : k.yield.taskData = k.taskData := taskData_port k _

theorem sameSchedule_assert (k : Kernel) (b : Bool) : SameSchedule k (k.assert b) :=
  .of_taskData ⟨rfl, rfl, rfl, rfl, rfl, rfl⟩ rfl rfl rfl

theorem sameSchedule_taskYield (k : Kernel) : SameSchedule k k.taskYield := by
  rw [taskYield]
  split_ifs
  · exact (sameSchedule_assert k _).trans (sameSchedule_yield _)
  · exact sameSchedule_assert k _

theorem SameSchedule.readyBit {k k' : Kernel} (h : SameSchedule k k') (p i : ℕ) :
    k'.readyBit p i = k.readyBit p i := by
  rw [Kernel.readyBit, h.readyTasks, Kernel.readyBit]

/-! ## Task control blocks -/

theorem taskData_modifyTask (k : Kernel) (t u : TaskPtr) (f : TaskData → TaskData) :
    (k.modifyTask t f).taskData u = if u = t then f (k.taskData t) else k.taskData u := by
  simp only [modifyTask, Function.update_apply]

theorem getState_setState (k : Kernel) (t u : TaskPtr) (s : TaskStateType) :
    (k.setState t s).getState u = if u = t then s else k.getState u := by
  simp only [getState, setState, taskData_modifyTask]
  split_ifs <;> rfl

@[simp] theorem readyBit_modifyTask (k : Kernel) (t : TaskPtr) (f : TaskData → TaskData)
    (p i : ℕ) : (k.modifyTask t f).readyBit p i = k.readyBit p i := rfl

theorem modifyTask_congr {β : Type*} (k : Kernel) (t : TaskPtr) {f : TaskData → TaskData}
    {g : TaskData → β} (h : g (f (k.taskData t)) = g (k.taskData t)) (u : TaskPtr) :
    g ((k.modifyTask t f).taskData u) = g (k.taskData u) := by
  rw [taskData_modifyTask]
  split_ifs with hu
  · rw [h, hu]
  · rfl

/-! ## `setTaskReady` and `resetTaskReady` -/

/-- The table position of a task: the level of its priority and its id. -/
def slot (k : Kernel) (t : TaskPtr) : ℕ × ℕ := ((k.getPriority t).level, (k.taskData t).id)

theorem readyBit_setReadyBit (k : Kernel) (q j p i : ℕ) :
    (k.setReadyBit q j).readyBit p i =
      (k.readyBit p i || decide (i < 32 ∧ (p, i) = (q, j))) := by
  simp only [readyBit, setReadyBit, Function.update_apply]
  split_ifs with hp
  · subst p
    simp
  · simp [hp]

theorem readyBit_clearReadyBit (k : Kernel) (q j p i : ℕ) :
    (k.clearReadyBit q j).readyBit p i = (k.readyBit p i && decide ((p, i) ≠ (q, j))) := by
  simp only [readyBit, clearReadyBit, Function.update_apply]
  split_ifs with hp
  · subst p
    simp
  · simp [hp]

@[simp] theorem taskData_clearReadyBit (k : Kernel) (q j : ℕ) :
    (k.clearReadyBit q j).taskData = k.taskData := rfl

theorem slot_setState (k : Kernel) (t : TaskPtr) (s : TaskStateType) :
    (k.setState t s).slot t = k.slot t := by
  simp [slot, getPriority, setState, taskData_modifyTask, TaskData.setState]

theorem taskData_setTaskReady (k : Kernel) (t u : TaskPtr) :
    (k.setTaskReady (some t)).taskData u =
      if u = t then (k.taskData t).setState .eReady else k.taskData u := by
  rw [setTaskReady]
  split_ifs <;>
    first | contradiction | simp_all [setReadyBit, assert, setState, taskData_modifyTask]

theorem getState_setTaskReady (k : Kernel) (t u : TaskPtr) :
    (k.setTaskReady (some t)).getState u = if u = t then .eReady else k.getState u := by
  rw [getState, taskData_setTaskReady]
  split_ifs <;> rfl

theorem readyBit_setTaskReady (k : Kernel) (t : TaskPtr) (p i : ℕ) :
    (k.setTaskReady (some t)).readyBit p i =
      (k.readyBit p i ||
        decide (p < maxPrioryLevels ∧ i < 32 ∧ (p, i) = k.slot t)) := by
  have hslot : ((k.setState t .eReady).getPriority t).level = (k.slot t).1 :=
    congrArg Prod.fst (k.slot_setState t .eReady)
  rw [setTaskReady]
  split_ifs with hlt
  · refine (readyBit_setReadyBit _ _ _ p i).trans ?_
    change (k.readyBit p i || decide (i < 32 ∧ (p, i) = (k.setState t .eReady).slot t)) = _
    rw [slot_setState]
    congr 1
    rw [decide_eq_decide]
    constructor
    · rintro ⟨h1, he⟩
      have hp : p = (k.slot t).1 := congrArg Prod.fst he
      exact ⟨by rw [hp, ← hslot]; exact hlt, h1, he⟩
    · rintro ⟨-, h1, he⟩
      exact ⟨h1, he⟩
  · have hno : ¬ (p < maxPrioryLevels ∧ i < 32 ∧ (p, i) = k.slot t) := by
      rintro ⟨hp, -, he⟩
      have hp' : p = (k.slot t).1 := congrArg Prod.fst he
      rw [hp', ← hslot] at hp
      exact hlt hp
    simp only [hno, decide_false, Bool.or_false]
    rfl

theorem getState_foldl_setTaskReady (ts : List TaskPtr) (k : Kernel) (u : TaskPtr) :
    ((ts.map some).foldl (fun k t => k.setTaskReady t) k).getState u =
      if u ∈ ts then .eReady else k.getState u := by
  induction ts generalizing k with
  | nil => rfl
  | cons t ts ih =>
    rw [List.map_cons, List.foldl_cons, ih, getState_setTaskReady]
    by_cases hu : u ∈ ts
    · simp [hu]
    · by_cases hut : u = t <;> simp [hu, hut]

theorem sameTable_setTaskReady (k : Kernel) (t : Option TaskPtr) :
    SameTable k (k.setTaskReady t) := by
  cases t with
  | none => exact .refl k
  | some t =>
    rw [setTaskReady]
    split_ifs <;> exact ⟨rfl, rfl, rfl, rfl, rfl, rfl⟩

theorem port_assert (k : Kernel) (b : Bool) : (k.assert b).port = k.port := rfl

theorem assert_true (k : Kernel) : k.assert true = k := by
  simp [assert]

@[simp] theorem port_setTaskReady (k : Kernel) (t : Option TaskPtr) :
    (k.setTaskReady t).port = k.port := by
  cases t with
  | none => rfl
  | some t =>
    rw [setTaskReady]
    split_ifs <;> rfl

@[simp] theorem sleepingTasksBitmap_setTaskReady (k : Kernel) (t : Option TaskPtr) :
    (k.setTaskReady t).sleepingTasksBitmap = k.sleepingTasksBitmap := by
  cases t with
  | none => rfl
  | some t =>
    rw [setTaskReady]
    split_ifs <;> rfl

/-- `setTaskReady` is the sequence of its three statements. -/
theorem setTaskReady_eq (k : Kernel) (t : TaskPtr) :
    k.setTaskReady (some t) =
      if (k.getPriority t).level < maxPrioryLevels then
        ((k.setState t .eReady).setReadyWord t).markPriority (k.getPriority t).level
      else (k.setState t .eReady).setReadyWord t := by
  have hlevel : ((k.setState t .eReady).getPriority t).level = (k.getPriority t).level :=
    congrArg Prod.fst (k.slot_setState t .eReady)
  rw [setTaskReady, setReadyWord]
  dsimp only
  rw [hlevel]
  split_ifs <;> rfl

/-- The two ways through the second statement. -/
theorem setReadyWord_cases (k : Kernel) (t : TaskPtr) :
    ((k.slot t).1 < maxPrioryLevels ∧
      k.setReadyWord t = (k.assert true).setReadyBit (k.slot t).1 (k.slot t).2) ∨
    (¬ (k.slot t).1 < maxPrioryLevels ∧ k.setReadyWord t = k.assert false) := by
  by_cases hp : (k.slot t).1 < maxPrioryLevels
  · refine .inl ⟨hp, ?_⟩
    unfold slot at hp ⊢
    simp only [setReadyWord, hp, decide_true, if_true]
    rfl
  · refine .inr ⟨hp, ?_⟩
    unfold slot at hp
    simp only [setReadyWord, hp, decide_false, if_false]

theorem sameTable_setReadyWord (k : Kernel) (t : TaskPtr) : SameTable k (k.setReadyWord t) := by
  obtain ⟨-, h⟩ | ⟨-, h⟩ := k.setReadyWord_cases t <;>
    · rw [h]
      exact ⟨rfl, rfl, rfl, rfl, rfl, rfl⟩

@[simp] theorem taskData_setReadyWord (k : Kernel) (t : TaskPtr) :
    (k.setReadyWord t).taskData = k.taskData := by
  obtain ⟨-, h⟩ | ⟨-, h⟩ := k.setReadyWord_cases t <;>
    · rw [h]
      rfl

@[simp] theorem getState_setReadyWord (k : Kernel) (t u : TaskPtr) :
    (k.setReadyWord t).getState u = k.getState u := by
  rw [getState, taskData_setReadyWord, getState]

@[simp] theorem port_setReadyWord (k : Kernel) (t : TaskPtr) :
    (k.setReadyWord t).port = k.port := by
  obtain ⟨-, h⟩ | ⟨-, h⟩ := k.setReadyWord_cases t <;>
    · rw [h]
      rfl

@[simp] theorem sleepingTasksBitmap_setReadyWord (k : Kernel) (t : TaskPtr) :
    (k.setReadyWord t).sleepingTasksBitmap = k.sleepingTasksBitmap := by
  obtain ⟨-, h⟩ | ⟨-, h⟩ := k.setReadyWord_cases t <;>
    · rw [h]
      rfl

theorem readyBit_setReadyWord (k : Kernel) (t : TaskPtr) (p i : ℕ) :
    (k.setReadyWord t).readyBit p i =
      (k.readyBit p i || decide (p < maxPrioryLevels ∧ i < 32 ∧ (p, i) = k.slot t)) := by
  obtain ⟨hlt, h⟩ | ⟨hge, h⟩ := k.setReadyWord_cases t
  · rw [h, readyBit_setReadyBit]
    change (k.readyBit p i || _) = _
    congr 1
    rw [decide_eq_decide]
    constructor
    · rintro ⟨hi, he⟩
      have hp : p = (k.slot t).1 := congrArg Prod.fst he
      exact ⟨hp ▸ hlt, hi, he⟩
    · rintro ⟨-, hi, he⟩
      exact ⟨hi, he⟩
  · have hno : ¬ (p < maxPrioryLevels ∧ i < 32 ∧ (p, i) = k.slot t) := by
      rintro ⟨hp, -, he⟩
      have hlevel : p = (k.slot t).1 := congrArg Prod.fst he
      exact hge (hlevel ▸ hp)
    rw [h]
    simp only [hno, decide_false, Bool.or_false]
    rfl

theorem sameSchedule_markPriority (k : Kernel) (prio : ℕ) :
    SameSchedule k (k.markPriority prio) :=
  .of_taskData ⟨rfl, rfl, rfl, rfl, rfl, rfl⟩ rfl rfl rfl

/-- The three ways through `resetTaskReady`. -/
theorem resetTaskReady_cases (k : Kernel) (t : TaskPtr) (s : TaskStateType) :
    ((k.getState t = .eReady ∧ (k.slot t).1 < maxPrioryLevels) ∧ k.resetTaskReady (some t) s =
        ((k.assert true).clearReadyBit (k.slot t).1 (k.slot t).2).setState t s) ∨
    (¬ (k.getState t = .eReady ∧ (k.slot t).1 < maxPrioryLevels) ∧
      ∃ b, k.resetTaskReady (some t) s = (k.assert b).setState t s) := by
  by_cases hs : k.getState t = .eReady
  · by_cases hp : (k.getPriority t).level < maxPrioryLevels
    · refine .inl ⟨⟨hs, hp⟩, ?_⟩
      simp only [resetTaskReady, if_pos hs, hp, decide_true, if_true]
      rfl
    · refine .inr ⟨fun h => hp h.2, false, ?_⟩
      simp only [resetTaskReady, if_pos hs, hp, decide_false, if_false]
  · refine .inr ⟨fun h => hs h.1, true, ?_⟩
    simp only [resetTaskReady, if_neg hs, assert, Bool.not_true, Bool.or_false]

theorem taskData_resetTaskReady (k : Kernel) (t u : TaskPtr) (s : TaskStateType) :
    (k.resetTaskReady (some t) s).taskData u =
      if u = t then (k.taskData t).setState s else k.taskData u := by
  obtain ⟨-, h⟩ | ⟨-, b, h⟩ := k.resetTaskReady_cases t s <;>
    · rw [h, setState, taskData_modifyTask]
      rfl

theorem getState_resetTaskReady (k : Kernel) (t u : TaskPtr) (s : TaskStateType) :
    (k.resetTaskReady (some t) s).getState u = if u = t then s else k.getState u := by
  rw [getState, taskData_resetTaskReady]
  split_ifs <;> rfl

theorem readyBit_resetTaskReady (k : Kernel) (t : TaskPtr) (s : TaskStateType) (p i : ℕ) :
    (k.resetTaskReady (some t) s).readyBit p i =
      (k.readyBit p i && !decide ((k.getState t = .eReady ∧ (k.slot t).1 < maxPrioryLevels) ∧
        (p, i) = k.slot t)) := by
  obtain ⟨hc, h⟩ | ⟨hc, b, h⟩ := k.resetTaskReady_cases t s
  · rw [h, setState, readyBit_modifyTask, readyBit_clearReadyBit]
    simp only [hc, and_self, true_and, ne_eq, decide_not]
    rfl
  · rw [h]
    simp only [hc, false_and, decide_false, Bool.not_false, Bool.and_true]
    rfl

theorem sameTable_resetTaskReady (k : Kernel) (t : TaskPtr) (s : TaskStateType) :
    SameTable k (k.resetTaskReady (some t) s) := by
  obtain ⟨-, h⟩ | ⟨-, b, h⟩ := k.resetTaskReady_cases t s <;>
    · rw [h]
      exact ⟨rfl, rfl, rfl, rfl, rfl, rfl⟩

@[simp] theorem port_resetTaskReady (k : Kernel) (t : TaskPtr) (s : TaskStateType) :
    (k.resetTaskReady (some t) s).port = k.port := by
  obtain ⟨-, h⟩ | ⟨-, b, h⟩ := k.resetTaskReady_cases t s <;>
    · rw [h]
      rfl

@[simp] theorem sleepingTasksBitmap_resetTaskReady (k : Kernel) (t : TaskPtr)
    (s : TaskStateType) :
    (k.resetTaskReady (some t) s).sleepingTasksBitmap = k.sleepingTasksBitmap := by
  obtain ⟨-, h⟩ | ⟨-, b, h⟩ := k.resetTaskReady_cases t s <;>
    · rw [h]
      rfl

/-! ## Fields that the changes of state leave alone -/

theorem sameParameters_of_taskData {k k' : Kernel} {t : TaskPtr} {d : TaskData}
    (h : ∀ u, k'.taskData u = if u = t then d else k.taskData u)
    (hp : d.priority = (k.taskData t).priority) (hb : d.basePriority = (k.taskData t).basePriority)
    (hi : d.id = (k.taskData t).id) : SameParameters k k' := by
  have hu : ∀ u, (k'.taskData u).priority = (k.taskData u).priority ∧
      (k'.taskData u).basePriority = (k.taskData u).basePriority ∧
      (k'.taskData u).id = (k.taskData u).id := by
    intro u
    rw [h u]
    split_ifs with he
    · rw [he]
      exact ⟨hp, hb, hi⟩
    · exact ⟨rfl, rfl, rfl⟩
  exact ⟨fun u => (hu u).1, fun u => (hu u).2.1, fun u => (hu u).2.2⟩

theorem sameParameters_setState (k : Kernel) (t : TaskPtr) (s : TaskStateType) :
    SameParameters k (k.setState t s) :=
  sameParameters_of_taskData (fun u => taskData_modifyTask k t u _) rfl rfl rfl

theorem sameParameters_setFlagsToWaitFor (k : Kernel) (t : TaskPtr) (flags : BitVec 32) :
    SameParameters k (k.modifyTask t (·.setFlagsToWaitFor flags)) :=
  sameParameters_of_taskData (fun u => taskData_modifyTask k t u _) rfl rfl rfl

theorem sameParameters_setTaskReady (k : Kernel) (t : Option TaskPtr) :
    SameParameters k (k.setTaskReady t) := by
  cases t with
  | none => exact .refl k
  | some t => exact sameParameters_of_taskData (fun u => taskData_setTaskReady k t u) rfl rfl rfl

theorem sameParameters_setReadyWord (k : Kernel) (t : TaskPtr) :
    SameParameters k (k.setReadyWord t) := by
  constructor <;> intro u <;> simp only [getPriority, getBasePriority, taskData_setReadyWord]

theorem sameParameters_resetTaskReady (k : Kernel) (t : TaskPtr) (s : TaskStateType) :
    SameParameters k (k.resetTaskReady (some t) s) :=
  sameParameters_of_taskData (fun u => taskData_resetTaskReady k t u s) rfl rfl rfl

theorem sameSchedule_setFlagsToWaitFor (k : Kernel) (t : TaskPtr) (flags : BitVec 32) :
    SameSchedule k (k.modifyTask t (·.setFlagsToWaitFor flags)) := by
  have hstate : (TaskData.setFlagsToWaitFor (k.taskData t) flags).state = (k.taskData t).state :=
    rfl
  exact ⟨⟨rfl, rfl, rfl, rfl, rfl, rfl⟩, sameParameters_setFlagsToWaitFor k t flags, rfl,
    modifyTask_congr k t hstate, rfl⟩

/-! ## The scan -/

theorem scanLevels_eq_none_iff (f : ℕ → BitVec 32) (n start : ℕ) :
    scanLevels f n start = none ↔
      ∀ p i, start ≤ p → p < start + n → (f p).getLsbD i = false := by
  induction n generalizing start with
  | zero =>
    simp only [scanLevels, true_iff]
    intro p i h1 h2
    omega
  | succ n ih =>
    rw [scanLevels]
    cases h : Words.scan 32 (f start) 0 with
    | some r =>
      simp only [reduceCtorEq, false_iff, not_forall]
      obtain ⟨i, -, -, hi, -⟩ := Words.scan_eq_some h
      exact ⟨start, i, le_rfl, by omega, by simp [hi]⟩
    | none =>
      rw [Words.scan_eq_none_iff] at h
      simp only [ih]
      constructor
      · intro hn p i h1 h2
        by_cases hp : p = start
        · subst p
          by_cases hi : i < 32
          · exact h i hi
          · exact BitVec.getLsbD_of_ge _ _ (by omega)
        · exact hn p i (by omega) (by omega)
      · intro hn p i h1 h2
        exact hn p i (by omega) (by omega)

/-- The scan stops at the first set bit in the order of levels and then of ids. -/
theorem scanLevels_eq_some {f : ℕ → BitVec 32} {n start p i : ℕ}
    (h : scanLevels f n start = some (p, i)) :
    start ≤ p ∧ p < start + n ∧ (f p).getLsbD i = true ∧
      (∀ q j, start ≤ q → q < p → (f q).getLsbD j = false) ∧
      ∀ j < i, (f p).getLsbD j = false := by
  induction n generalizing start with
  | zero => simp [scanLevels] at h
  | succ n ih =>
    rw [scanLevels] at h
    cases hs : Words.scan 32 (f start) 0 with
    | some r =>
      rw [hs] at h
      obtain ⟨rfl, rfl⟩ := Prod.mk.inj (Option.some.inj h)
      obtain ⟨i', -, rfl, hi, hlow⟩ := Words.scan_eq_some hs
      rw [Nat.zero_add]
      exact ⟨le_rfl, by omega, hi, fun q j h1 h2 => by omega, hlow⟩
    | none =>
      rw [hs] at h
      rw [Words.scan_eq_none_iff] at hs
      obtain ⟨h1, h2, hi, hq, hj⟩ := ih h
      refine ⟨by omega, by omega, hi, fun q j hq1 hq2 => ?_, hj⟩
      by_cases he : q = start
      · subst q
        by_cases hj : j < 32
        · exact hs j hj
        · exact BitVec.getLsbD_of_ge _ _ (by omega)
      · exact hq q j (by omega) hq2

/-- Some bit is set at a level above `PRIORITY_IDLE`. -/
def AppReady (k : Kernel) : Prop := ∃ p i, p < TaskPriority.idle.level ∧ k.readyBit p i = true

theorem appReady_iff (k : Kernel) :
    k.AppReady ↔ ∃ p < TaskPriority.idle.level, ∃ i < 32, k.readyBit p i = true := by
  constructor
  · rintro ⟨p, i, hp, hbit⟩
    refine ⟨p, hp, i, ?_, hbit⟩
    by_contra hi
    rw [readyBit, BitVec.getLsbD_of_ge _ _ (not_lt.mp hi)] at hbit
    cases hbit
  · rintro ⟨p, hp, i, -, hbit⟩
    exact ⟨p, i, hp, hbit⟩

instance (k : Kernel) : Decidable k.AppReady := decidable_of_iff _ k.appReady_iff.symm

/-- The bit that the scan stops at. -/
structure First (k : Kernel) (p i : ℕ) : Prop where
  level_lt : p < TaskPriority.idle.level
  bit : k.readyBit p i = true
  above : ∀ q j, q < p → k.highestTaskPriority.level ≤ q → k.readyBit q j = false
  before : ∀ j < i, k.readyBit p j = false

theorem findReady_some {k : Kernel} {p i : ℕ} (h : k.findReady = some (p, i)) : k.First p i := by
  obtain ⟨h1, h2, hi, hq, hj⟩ := scanLevels_eq_some h
  exact ⟨by omega, hi, fun q j hqp hq1 => hq q j hq1 hqp, hj⟩

theorem findReady_none {k : Kernel} (h : k.findReady = none)
    (hlevel : ∀ p i, k.readyBit p i = true → k.highestTaskPriority.level ≤ p) : ¬ k.AppReady := by
  rintro ⟨p, i, hp, hbit⟩
  have hle := hlevel p i hbit
  rw [findReady, scanLevels_eq_none_iff] at h
  rw [readyBit, h p i hle (by omega)] at hbit
  exact Bool.false_ne_true hbit

theorem select_cases (k : Kernel) :
    (k.findReady = none ∧
      k.selectHighestPriorityTask = k.enterCritical.exitCritical) ∨
    ∃ p i, k.findReady = some (p, i) ∧
      k.selectHighestPriorityTask = (k.enterCritical.switchTo p i).exitCritical := by
  have hf : k.enterCritical.findReady = k.findReady := rfl
  rw [selectHighestPriorityTask, hf]
  cases h : k.findReady with
  | none => exact .inl ⟨rfl, rfl⟩
  | some r => exact .inr ⟨r.1, r.2, rfl, rfl⟩

/-! ## The tick -/

theorem forSlots_none {slots : ℕ → Option ℕ} (h : ∀ i, slots i = none)
    (f : Kernel → ℕ → Kernel) (k : Kernel) : forSlots slots f k = k := by
  simp [forSlots, h]

/-- What holds at the start and is kept by the body holds after a loop over slots. -/
theorem forSlots_induction {P : Kernel → Prop} {slots : ℕ → Option ℕ} {f : Kernel → ℕ → Kernel}
    {k : Kernel} (h0 : P k) (hf : ∀ k x, P k → P (f k x)) : P (forSlots slots f k) := by
  rw [forSlots]
  apply List.foldlRecOn _ _ h0
  intro k hk i _
  cases slots i with
  | none => exact hk
  | some x => exact hf k x hk

theorem sameSchedule_invokeCallback (k : Kernel) (c a : ℕ) :
    SameSchedule k (k.invokeCallback c a) := .of_taskData ⟨rfl, rfl, rfl, rfl, rfl, rfl⟩ rfl rfl rfl

theorem sameSchedule_tickTimer (k : Kernel) (t : TimerPtr) : SameSchedule k (k.tickTimer t) := by
  have h : SameSchedule k { k with
      timerData := Function.update k.timerData t ((k.timerData t).tick id) } :=
    .of_taskData ⟨rfl, rfl, rfl, rfl, rfl, rfl⟩ rfl rfl rfl
  rw [tickTimer]
  split_ifs
  · cases (k.timerData t).callback with
    | none => exact h
    | some c => exact h.trans (sameSchedule_invokeCallback _ _ _)
  · exact h

/-- The objects that the rest of a tick works on are not part of the schedule. -/
theorem sameSchedule_updateTimers (k : Kernel) : SameSchedule k k.updateTimers :=
  forSlots_induction (P := SameSchedule k) (.refl k) fun k' t h =>
    h.trans (sameSchedule_tickTimer k' t)

theorem sameSchedule_incrementCounters (k : Kernel) : SameSchedule k k.incrementCounters :=
  forSlots_induction (P := SameSchedule k) (.refl k) fun _ _ h =>
    h.trans (.of_taskData ⟨rfl, rfl, rfl, rfl, rfl, rfl⟩ rfl rfl rfl)

end CppRtos.Kernel
