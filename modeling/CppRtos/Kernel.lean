import CppRtos.Library.Words
import CppRtos.Port
import CppRtos.Timing

/-! The kernel object: task registration, the ready table, sleeping tasks, the choice
of the next task and the tick. The objects that its pointers refer to are part of
its state. -/
namespace CppRtos

/-- `MAX_TASKS`, `MAX_TIMERS`, `MAX_COUNTERS` and `MAX_ALARMS` are all 32. -/
def maxTasks : ℕ := 32

/-- `callbacks` lists the callbacks invoked so far with their arguments, latest first.
`fault` records a failed assertion, a null dereference or a call of an empty function;
the model then goes on with the next statement. -/
structure Kernel where
  tasks : ℕ → Option TaskPtr := fun _ => none
  readyTasks : ℕ → BitVec 32 := fun _ => 0
  priorityBitmap : BitVec 32 := 0
  currentTask : TaskPtr
  highestTaskPriority : TaskPriority := .idle
  taskCount : ℕ := 0
  port : Port := {}
  idleTask : TaskPtr
  sleepingTasksBitmap : BitVec 64 := 0
  taskWakeUpTimes : ℕ → ℕ := fun _ => 0
  timers : ℕ → Option TimerPtr := fun _ => none
  counters : ℕ → Option CounterPtr := fun _ => none
  alarms : ℕ → Option AlarmPtr := fun _ => none
  taskData : TaskPtr → TaskData
  timerData : TimerPtr → Timer := fun _ => Timer.new none 0 false 0
  counterData : CounterPtr → Counter := fun _ => { maxAllowedValue := 0 }
  alarmData : AlarmPtr → Alarm := fun _ => ⟨0, none, 0, 0, 0, 0, false, none⟩
  callbacks : List (ℕ × ℕ) := []
  fault : Bool := false

namespace Kernel

/-! ## Access to task control blocks and to the port -/

def getState (k : Kernel) (t : TaskPtr) : TaskStateType := (k.taskData t).state

def getPriority (k : Kernel) (t : TaskPtr) : TaskPriority := (k.taskData t).priority

def getBasePriority (k : Kernel) (t : TaskPtr) : TaskPriority := (k.taskData t).basePriority

def modifyTask (k : Kernel) (t : TaskPtr) (f : TaskData → TaskData) : Kernel :=
  { k with taskData := Function.update k.taskData t (f (k.taskData t)) }

def setState (k : Kernel) (t : TaskPtr) (state : TaskStateType) : Kernel :=
  k.modifyTask t (·.setState state)

def assert (k : Kernel) (condition : Bool) : Kernel :=
  { k with fault := k.fault || !condition }

def getTickCount (k : Kernel) : ℕ := k.port.tickCount

def isInsideInterrupt (k : Kernel) : Bool := k.port.insideInterrupt

def enterCritical (k : Kernel) : Kernel := { k with port := k.port.enterCritical }

def exitCritical (k : Kernel) : Kernel := { k with port := k.port.exitCritical }

def yield (k : Kernel) : Kernel := { k with port := k.port.yield }

/-! ## The ready table -/

def setReadyBit (k : Kernel) (prio id : ℕ) : Kernel :=
  { k with readyTasks := Function.update k.readyTasks prio (Words.setBit (k.readyTasks prio) id) }

/-- Clear a ready bit and, with the last bit of the level, its summary bit. -/
def clearReadyBit (k : Kernel) (prio id : ℕ) : Kernel :=
  let word := Words.clearBit (k.readyTasks prio) id
  { k with
    readyTasks := Function.update k.readyTasks prio word
    priorityBitmap :=
      if word = 0 then Words.clearBit k.priorityBitmap prio else k.priorityBitmap }

def setTaskReady (k : Kernel) : Option TaskPtr → Kernel
  | none => k
  | some ptrTask =>
    let k := k.setState ptrTask .eReady
    let prio := (k.getPriority ptrTask).level
    let k := k.assert (prio < maxPrioryLevels)
    if prio < maxPrioryLevels then
      let k := k.setReadyBit prio (k.taskData ptrTask).id
      { k with priorityBitmap := Words.setBit k.priorityBitmap prio }
    else k

/-- `setTaskReady` from the reading of the priority to the write of the ready word. -/
def setReadyWord (k : Kernel) (ptrTask : TaskPtr) : Kernel :=
  let prio := (k.getPriority ptrTask).level
  let k := k.assert (prio < maxPrioryLevels)
  if prio < maxPrioryLevels then k.setReadyBit prio (k.taskData ptrTask).id else k

/-- The last statement of `setTaskReady`. -/
def markPriority (k : Kernel) (prio : ℕ) : Kernel :=
  { k with priorityBitmap := Words.setBit k.priorityBitmap prio }

def resetTaskReady (k : Kernel) (ptrTask : Option TaskPtr) (newState : TaskStateType) : Kernel :=
  match ptrTask with
  | none => k
  | some ptrTask =>
    let k :=
      if k.getState ptrTask = .eReady then
        let prio := (k.getPriority ptrTask).level
        let k := k.assert (prio < maxPrioryLevels)
        if prio < maxPrioryLevels then k.clearReadyBit prio (k.taskData ptrTask).id else k
      else k
    k.setState ptrTask newState

/-! ## Registration -/

/-- An existing table is full at `MAX_TASKS`; further tasks are ignored. -/
def addTask (k : Kernel) (task : TaskPtr) : Kernel :=
  if k.taskCount < maxTasks then
    let k := k.modifyTask task (·.setId k.taskCount)
    let k := { k with
      tasks := Function.update k.tasks k.taskCount (some task)
      taskCount := k.taskCount + 1 }
    let k := k.assert (k.taskCount ≤ maxTasks)
    let k := k.enterCritical
    let priority := k.getPriority task
    let k :=
      if priority > k.highestTaskPriority then { k with highestTaskPriority := priority } else k
    let frame := k.port.initialiseStack (k.taskData task).currentStackPointer
    let k := { k with port := frame.1 }
    let k := k.modifyTask task (·.setCurrentStackPtr frame.2)
    let prio := priority.level
    let k := k.assert (prio < maxPrioryLevels)
    let k :=
      if prio < maxPrioryLevels then k.setReadyBit prio (k.taskData task).id else k
    k.exitCritical
  else k

/-- The members before the body of the constructor. The application has assigned
`assigned t` to task `t`; nothing is registered yet. -/
def initial (idleTask : TaskPtr) (assigned : TaskPtr → TaskPriority) : Kernel :=
  { currentTask := idleTask
    idleTask := idleTask
    taskData := Function.update (fun t => TaskData.fresh (assigned t)) idleTask {} }

/-- The constructor. -/
def new (idleTask : TaskPtr) (assigned : TaskPtr → TaskPriority) : Kernel :=
  { (initial idleTask assigned).addTask idleTask with currentTask := idleTask }

/-! ## Scheduling -/

/-- The outer loop of the scan, over the given number of levels from `countPrio` on; the
inner loop shifts the word of the level. -/
def scanLevels (readyTasks : ℕ → BitVec 32) : ℕ → ℕ → Option (ℕ × ℕ)
  | 0, _ => none
  | levels + 1, countPrio =>
    match Words.scan 32 (readyTasks countPrio) 0 with
    | some countTask => some (countPrio, countTask)
    | none => scanLevels readyTasks levels (countPrio + 1)

/-- Level and id that the scan stops at; it ends below `PRIORITY_IDLE`. -/
def findReady (k : Kernel) : Option (ℕ × ℕ) :=
  let startPrio := k.highestTaskPriority.level
  scanLevels k.readyTasks (TaskPriority.idle.level - startPrio) startPrio

/-- The body of the scan for a set bit. -/
def switchTo (k : Kernel) (countPrio countTask : ℕ) : Kernel :=
  match k.tasks countTask with
  | none => k.assert false
  | some ptrTaskData =>
    let k :=
      if k.getState k.currentTask = .eRunning then k.setTaskReady (some k.currentTask) else k
    let k := k.setState ptrTaskData .eRunning
    let k := { k with currentTask := ptrTaskData }
    k.clearReadyBit countPrio countTask

def selectHighestPriorityTask (k : Kernel) : Kernel :=
  let k := k.enterCritical
  match k.findReady with
  | none => k.exitCritical
  | some (countPrio, countTask) => (k.switchTo countPrio countTask).exitCritical

def addSleepingTask (k : Kernel) (task : TaskPtr) (ticks : ℕ) : Kernel :=
  let taskId := (k.taskData task).id % 2 ^ 8
  let k := { k with
    sleepingTasksBitmap := Words.setBit k.sleepingTasksBitmap taskId
    taskWakeUpTimes := Function.update k.taskWakeUpTimes taskId
      ((k.getTickCount + ticks) % 2 ^ 64) }
  k.setState task .eSleeping

/-! ## The tick -/

/-- The body of the wake-up loop of `tick`. -/
def wakeUp (currentTick : ℕ) (k : Kernel) (i : ℕ) : Kernel :=
  if k.sleepingTasksBitmap.getLsbD i && decide (k.taskWakeUpTimes i ≤ currentTick) then
    let k := k.setTaskReady (k.tasks i)
    { k with sleepingTasksBitmap := Words.clearBit k.sleepingTasksBitmap i }
  else k

/-- Apply `f` to the object in every occupied slot of a table of 32 slots. -/
def forSlots (slots : ℕ → Option ℕ) (f : Kernel → ℕ → Kernel) (k : Kernel) : Kernel :=
  (List.range 32).foldl (fun k i => (slots i).elim k (f k)) k

def invokeCallback (k : Kernel) (callback arg : ℕ) : Kernel :=
  { k with callbacks := (callback, arg) :: k.callbacks }

def tickTimer (k : Kernel) (timer : TimerPtr) : Kernel :=
  let t := k.timerData timer
  let k := { k with timerData := Function.update k.timerData timer (t.tick id) }
  if t.expires then t.callback.elim k (k.invokeCallback · t.arg) else k

def updateTimers (k : Kernel) : Kernel := forSlots k.timers tickTimer k

def incrementCounters (k : Kernel) : Kernel :=
  forSlots k.counters (fun k c =>
    { k with counterData := Function.update k.counterData c (k.counterData c).increment }) k

/-- `Task::yield`, which asserts that it does not run in an interrupt. -/
def taskYield (k : Kernel) : Kernel :=
  let k := k.assert (!k.isInsideInterrupt)
  if !k.isInsideInterrupt then k.yield else k

def checkAndTrigger (k : Kernel) (a : AlarmPtr) : Kernel :=
  let alarm := k.alarmData a
  let counter := k.counterData alarm.counter
  if alarm.expired counter then
    let k := { k with alarmData := Function.update k.alarmData a (alarm.rearm counter) }
    match alarm.taskToActivate with
    | some task =>
      if k.getState task ≠ .eRunning then (k.setState task .eReady).taskYield else k
    | none => alarm.callback.elim (k.assert false) (k.invokeCallback · alarm.callbackArg)
  else k

def checkAlarms (k : Kernel) : Kernel := forSlots k.alarms checkAndTrigger k

def tick (k : Kernel) : Kernel :=
  let currentTick := k.getTickCount
  let k := (List.range maxTasks).foldl (wakeUp currentTick) k
  k.updateTimers.incrementCounters.checkAlarms

/-! ## Interrupt handlers of the port -/

/-- `SysTick_Handler`: one tick, then a request for a context switch. -/
def sysTickHandler (k : Kernel) : Kernel :=
  let k := { k with port := { k.port with masked := true, insideInterrupt := true } }
  let k := { k with port := k.port.incrementTickCount }
  let k := k.tick
  { k with port := { k.port with pendSV := true, masked := false, insideInterrupt := false } }

/-- `PendSV_Handler` without the register context: the pending bit falls on entry. -/
def pendSVHandler (k : Kernel) : Kernel :=
  let k := { k with port := { k.port with pendSV := false, masked := true } }
  let k := k.selectHighestPriorityTask
  { k with port := { k.port with masked := false } }

end Kernel

end CppRtos
