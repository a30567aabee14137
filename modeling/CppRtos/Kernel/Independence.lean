import CppRtos.Kernel.Activation
import CppRtos.Kernel.Switch

/-! What scheduling does not depend on: the tables of timers, counters and alarms, and whether
the interrupts are masked when a critical region is entered. -/
namespace CppRtos

/-- A function that maps the branches maps the choice. -/
theorem map_ite {α β : Type*} (g : α → β) {c d : Prop} [Decidable c] [Decidable d] {a b : α}
    {a' b' : β} (h : c ↔ d) (ha : g a = a') (hb : g b = b') :
    g (if c then a else b) = if d then a' else b' := by
  rw [apply_ite g, ha, hb]
  exact if_congr h rfl rfl

namespace Kernel

/-- The kernel with other timers, counters and alarms, and other calls of callbacks so far. -/
def withTables (T : Tables × List (ℕ × ℕ)) (k : Kernel) : Kernel :=
  { k with
    timers := T.1.timers
    counters := T.1.counters
    alarms := T.1.alarms
    timerData := T.1.timerData
    counterData := T.1.counterData
    alarmData := T.1.alarmData
    callbacks := T.2 }

def bare (k : Kernel) : Kernel :=
  k.withTables (⟨fun _ => none, fun _ => none, fun _ => none, fun _ => Timer.new none 0 false 0,
    fun _ => { maxAllowedValue := 0 }, fun _ => ⟨0, none, 0, 0, 0, 0, false, none⟩⟩, [])

def withPort (p : Port) (k : Kernel) : Kernel := { k with port := p }

def mask (masked : Bool) (k : Kernel) : Kernel := k.withPort { k.port with masked := masked }

variable (T : Tables × List (ℕ × ℕ)) (k : Kernel) (p : Port) (t : TaskPtr)

/-! ## Other tables -/

theorem bare_withTables : (k.withTables T).bare = k.bare := rfl

theorem withTables_exitCritical : k.exitCritical.withTables T = (k.withTables T).exitCritical := rfl

theorem isInsideInterrupt_withTables {α : Type*} (r : Kernel × α) :
    (r.map (withTables T) id).1.isInsideInterrupt = r.1.isInsideInterrupt := rfl

theorem withTables_setTaskReady (t : Option TaskPtr) :
    (k.setTaskReady t).withTables T = (k.withTables T).setTaskReady t := by
  cases t with
  | none => rfl
  | some t => exact map_ite (withTables T) Iff.rfl rfl rfl

theorem withTables_setReadyWord :
    (k.setReadyWord t).withTables T = (k.withTables T).setReadyWord t :=
  map_ite (withTables T) Iff.rfl rfl rfl

theorem withTables_resetTaskReady (s : TaskStateType) :
    (k.resetTaskReady (some t) s).withTables T = (k.withTables T).resetTaskReady (some t) s := by
  have hin := map_ite (withTables T) (Iff.refl ((k.getPriority t).level < maxPrioryLevels))
    (a := (k.assert ((k.getPriority t).level < maxPrioryLevels)).clearReadyBit
      (k.getPriority t).level (k.taskData t).id)
    (b := k.assert ((k.getPriority t).level < maxPrioryLevels)) rfl rfl
  exact congrArg (setState · t s) (map_ite (withTables T) Iff.rfl hin rfl)

theorem withTables_readyRunning : k.readyRunning.withTables T = (k.withTables T).readyRunning :=
  map_ite (withTables T) Iff.rfl (withTables_setTaskReady T k (some k.currentTask)) rfl

theorem withTables_switchTo (prio i : ℕ) :
    (k.switchTo prio i).withTables T = (k.withTables T).switchTo prio i := by
  cases hi : k.tasks i with
  | none =>
    have htables : (k.withTables T).tasks i = none := hi
    unfold switchTo
    rw [hi, htables]
    rfl
  | some t =>
    have htables : (k.withTables T).tasks i = some t := hi
    rw [switchTo_eq hi, switchTo_eq htables, ← withTables_readyRunning]
    rfl

theorem withTables_selectHighestPriorityTask :
    k.selectHighestPriorityTask.withTables T = (k.withTables T).selectHighestPriorityTask := by
  have hfind : (k.withTables T).enterCritical.findReady = k.enterCritical.findReady := rfl
  unfold selectHighestPriorityTask
  dsimp only
  rw [hfind]
  cases k.enterCritical.findReady with
  | none => rfl
  | some r =>
    dsimp only
    rw [withTables_exitCritical, withTables_switchTo]
    rfl

theorem withTables_pendSVHandler :
    k.pendSVHandler.withTables T = (k.withTables T).pendSVHandler := by
  have hunmask (k : Kernel) :
      ({ k with port := { k.port with masked := false } } : Kernel).withTables T =
        { k.withTables T with port := { (k.withTables T).port with masked := false } } := rfl
  refine (hunmask _).trans ?_
  rw [withTables_selectHighestPriorityTask]
  rfl

/-- `addTask` up to its critical region, -/
def enlist : Kernel :=
  let k := k.modifyTask t (·.setId k.taskCount)
  let k := { k with
    tasks := Function.update k.tasks k.taskCount (some t)
    taskCount := k.taskCount + 1 }
  (k.assert (k.taskCount ≤ maxTasks)).enterCritical

/-- the level at which the scan starts, -/
def raiseHighest (prio : TaskPriority) : Kernel :=
  if prio > k.highestTaskPriority then { k with highestTaskPriority := prio } else k

/-- and the first frame. -/
def prepare (prio : TaskPriority) : Kernel :=
  let frame := k.port.initialiseStack (k.taskData t).currentStackPointer
  let k := { k with port := frame.1 }
  (k.modifyTask t (·.setCurrentStackPtr frame.2)).assert (prio.level < maxPrioryLevels)

theorem addTask_eq : k.addTask t = if k.taskCount < maxTasks then
      let prio := (k.enlist t).getPriority t
      let k := ((k.enlist t).raiseHighest prio).prepare t prio
      (if prio.level < maxPrioryLevels then k.setReadyBit prio.level (k.taskData t).id
        else k).exitCritical
    else k := rfl

theorem withTables_raiseHighest (prio : TaskPriority) :
    (k.raiseHighest prio).withTables T = (k.withTables T).raiseHighest prio :=
  map_ite (withTables T) Iff.rfl rfl rfl

theorem withTables_prepare (prio : TaskPriority) :
    (k.prepare t prio).withTables T = (k.withTables T).prepare t prio := by
  have hframe : (k.withTables T).port.initialiseStack
        ((k.withTables T).taskData t).currentStackPointer =
      k.port.initialiseStack (k.taskData t).currentStackPointer := rfl
  unfold prepare
  rw [hframe]
  rfl

theorem withTables_addTask : (k.addTask t).withTables T = (k.withTables T).addTask t := by
  have henlist : (k.enlist t).withTables T = (k.withTables T).enlist t := rfl
  rw [addTask_eq, addTask_eq]
  refine map_ite (withTables T) Iff.rfl ?_ rfl
  dsimp only
  refine (withTables_exitCritical T _).trans (congrArg exitCritical ?_)
  rw [← henlist]
  have hprepare (k : Kernel) (prio : TaskPriority) :
      ((k.raiseHighest prio).prepare t prio).withTables T =
        ((k.withTables T).raiseHighest prio).prepare t prio := by
    rw [withTables_prepare, withTables_raiseHighest]
  have hpriority : ((k.enlist t).withTables T).getPriority t = (k.enlist t).getPriority t := rfl
  rw [hpriority, ← hprepare]
  exact map_ite (withTables T) Iff.rfl rfl rfl

theorem bare_new (idleTask : TaskPtr) (assigned : TaskPtr → TaskPriority) :
    (new idleTask assigned).bare = new idleTask assigned := by
  have hadd : ((initial idleTask assigned).addTask idleTask).bare =
      (initial idleTask assigned).addTask idleTask := withTables_addTask _ _ idleTask
  exact congrArg (fun k : Kernel => { k with currentTask := idleTask }) hadd

theorem withTables_taskYield : k.taskYield.withTables T = (k.withTables T).taskYield :=
  map_ite (withTables T) Iff.rfl rfl rfl

theorem withTables_wakeUp (now i : ℕ) :
    (k.wakeUp now i).withTables T = (k.withTables T).wakeUp now i := by
  have hslot : (k.withTables T).tasks i = k.tasks i := rfl
  refine map_ite (withTables T) Iff.rfl ?_ rfl
  dsimp only
  rw [hslot, ← withTables_setTaskReady]
  rfl

theorem withTables_wakeUps : k.wakeUps.withTables T = (k.withTables T).wakeUps :=
  (List.foldl_hom (withTables T) fun k i => (withTables_wakeUp T k _ i).symm).symm

/-- What works the same with any tables leaves them alone. -/
theorem tables_of_withTables {g : Kernel → Kernel}
    (hg : ∀ T k, (g k).withTables T = g (k.withTables T)) :
    (g k).tables = k.tables ∧ (g k).callbacks = k.callbacks := by
  have hself : k.withTables (k.tables, k.callbacks) = k := rfl
  have h := hg (k.tables, k.callbacks) k
  rw [hself] at h
  rw [← h]
  exact ⟨rfl, rfl⟩

/-- Where there is nothing in the tables, a tick only wakes tasks. -/
theorem tick_bare : k.bare.tick = k.bare.wakeUps := by
  have hnone (f : Kernel → ℕ → Kernel) (k : Kernel) : forSlots (fun _ => none) f k = k :=
    forSlots_none (fun _ => rfl) f k
  have hwakeUps : k.bare.wakeUps = k.wakeUps.bare := (withTables_wakeUps _ k).symm
  rw [tick_eq_checkAlarms, beforeAlarms, hwakeUps]
  generalize k.wakeUps = k'
  have htimers : k'.bare.updateTimers = k'.bare := hnone _ _
  have hcounters : k'.bare.incrementCounters = k'.bare := hnone _ _
  rw [htimers, hcounters]
  exact hnone _ _

/-! ## Another port -/

theorem withPort_setTaskReady (t : Option TaskPtr) :
    (k.setTaskReady t).withPort p = (k.withPort p).setTaskReady t := by
  cases t with
  | none => rfl
  | some t => exact map_ite (withPort p) Iff.rfl rfl rfl

theorem mask_setReadyWord (b : Bool) : (k.setReadyWord t).mask b = (k.mask b).setReadyWord t := by
  unfold mask
  rw [port_setReadyWord]
  exact map_ite (withPort _) Iff.rfl rfl rfl

/-- A region masks the interrupts itself. -/
theorem enterCritical_mask (b : Bool) : (k.mask b).enterCritical = k.enterCritical := rfl

theorem taskYield_mask (b : Bool) :
    (k.mask b).taskYield = k.taskYield ∨ (k.mask b).taskYield = k.taskYield.mask b := by
  have hif (k : Kernel) : k.taskYield = if !k.isInsideInterrupt then
      (k.assert (!k.isInsideInterrupt)).yield else k.assert (!k.isInsideInterrupt) := rfl
  have hmask : (k.mask b).isInsideInterrupt = k.isInsideInterrupt := rfl
  rw [hif, hif, hmask]
  split_ifs
  · exact .inl rfl
  · exact .inr rfl

theorem addTask_mask (b : Bool) :
    (k.mask b).addTask t = k.addTask t ∨ (k.mask b).addTask t = (k.addTask t).mask b := by
  have henlist : (k.mask b).enlist t = k.enlist t := rfl
  have hcount : (k.mask b).taskCount = k.taskCount := rfl
  rw [addTask_eq, addTask_eq, henlist, hcount]
  split_ifs
  · exact .inl rfl
  · exact .inr rfl

theorem mask_of_eq {α : Type*} {r r' : Kernel × α} (h : r' = r) :
    ∃ b, r' = r.map (mask b) id := ⟨r.1.port.masked, h⟩

theorem mask_of_map {α : Type*} {r r' : Kernel × α} {b : Bool} (h : r.map (mask b) id = r') :
    ∃ b, r' = r.map (mask b) id := ⟨b, h.symm⟩

end Kernel

end CppRtos
