import CppRtos.Semaphore

/-! Event groups, split at critical regions. The wait queue is read and shortened by
raw buffer index. -/
namespace CppRtos

structure EventGroup where
  eventFlags : BitVec 32
  waitingTasks : Fifo (Option TaskPtr) maxTasks

namespace EventGroup

def new : EventGroup := ⟨0, Fifo.new⟩

/-- Points inside `waitForEvents`, `setEvents` and `clearEvents`; `waitLoop` is the head
of the polling loop with the locals of the call. -/
inductive Call where
  | waitForEvents (flagsToWaitFor : BitVec 32) (timeout : ℕ)
  | waitYield (flagsToWaitFor : BitVec 32) (endTime : ℕ) (task : TaskPtr)
  | waitLoop (flagsToWaitFor : BitVec 32) (endTime : ℕ) (task : TaskPtr)
  | setEvents (flagsToSet : BitVec 32)
  | setYield
  | setReturn
  | clearEvents (flagsToClear : BitVec 32)
deriving DecidableEq, Repr

/-- The value a call returns; `setEvents` and `clearEvents` return nothing. -/
inductive Result where
  | value (b : Bool)
  | unit
deriving DecidableEq, Repr

/-- The first critical region of `waitForEvents`. -/
def waitRegion (k : Kernel) (g : EventGroup) (flagsToWaitFor : BitVec 32) (timeout : ℕ) :
    Kernel × EventGroup × Outcome Call Result :=
  let k := k.enterCritical
  if g.eventFlags &&& flagsToWaitFor ≠ 0 then
    (k.exitCritical, g, .ret (.value true))
  else if timeout = 0 then
    (k.exitCritical, g, .ret (.value false))
  else
    let endTime := (k.getTickCount + timeout) % 2 ^ 64
    let task := k.currentTask
    let k := k.setState task .eBlocked
    let k := k.modifyTask task (·.setFlagsToWaitFor flagsToWaitFor)
    let g := { g with waitingTasks := g.waitingTasks.enqueue (some task) }
    (k.exitCritical, g, .next (.waitYield flagsToWaitFor endTime task))

/-- The loop that removes the first entry of `task`, over indices from `i` on. -/
def removeTask (task : TaskPtr) : ℕ → ℕ → Fifo (Option TaskPtr) maxTasks →
    Fifo (Option TaskPtr) maxTasks
  | 0, _, q => q
  | rounds + 1, i, q =>
    if i < q.getSize then
      if q.getAt i = some task then q.removeAt i else removeTask task rounds (i + 1) q
    else q

/-- The critical region at the head of the polling loop. -/
def loopRegion (k : Kernel) (g : EventGroup) (flagsToWaitFor : BitVec 32) (endTime : ℕ)
    (task : TaskPtr) : Kernel × EventGroup × Outcome Call Result :=
  let k := k.enterCritical
  if g.eventFlags &&& flagsToWaitFor ≠ 0 then
    let g := { g with waitingTasks := removeTask task g.waitingTasks.getSize 0 g.waitingTasks }
    (k.exitCritical, g, .ret (.value true))
  else if k.getTickCount ≥ endTime then
    let g := { g with waitingTasks := removeTask task g.waitingTasks.getSize 0 g.waitingTasks }
    (k.exitCritical, g, .ret (.value false))
  else (k.exitCritical, g, .next (.waitYield flagsToWaitFor endTime task))

/-- The loop of `setEvents` from index `i` on. Every round removes an entry or advances
the index, so the initial size is enough rounds. -/
def setLoop : ℕ → ℕ → Kernel → EventGroup → Kernel × EventGroup
  | 0, _, k, g => (k, g)
  | rounds + 1, i, k, g =>
    if i < g.waitingTasks.getSize then
      match g.waitingTasks.getAt i with
      | none => setLoop rounds (i + 1) (k.assert false) g
      | some task =>
        if g.eventFlags &&& (k.taskData task).flagsToWaitFor ≠ 0 then
          let k := k.setTaskReady (some task)
          let k := k.modifyTask task (·.setFlagsToWaitFor 0)
          setLoop rounds i k { g with waitingTasks := g.waitingTasks.removeAt i }
        else setLoop rounds (i + 1) k g
    else (k, g)

/-- The critical region of `setEvents`. -/
def setRegion (k : Kernel) (g : EventGroup) (flagsToSet : BitVec 32) : Kernel × EventGroup :=
  let k := k.enterCritical
  let g := { g with eventFlags := g.eventFlags ||| flagsToSet }
  let r := setLoop g.waitingTasks.getSize 0 k g
  (r.1.exitCritical, r.2)

def clearRegion (k : Kernel) (g : EventGroup) (flagsToClear : BitVec 32) : Kernel × EventGroup :=
  let k := k.enterCritical
  (k.exitCritical, { g with eventFlags := g.eventFlags &&& ~~~flagsToClear })

def step (k : Kernel) (g : EventGroup) : Call → Kernel × EventGroup × Outcome Call Result
  | .waitForEvents flagsToWaitFor timeout => waitRegion k g flagsToWaitFor timeout
  | .waitYield flagsToWaitFor endTime task =>
    (k.yield, g, .next (.waitLoop flagsToWaitFor endTime task))
  | .waitLoop flagsToWaitFor endTime task => loopRegion k g flagsToWaitFor endTime task
  | .setEvents flagsToSet =>
    let r := setRegion k g flagsToSet
    (r.1, r.2, .next .setYield)
  | .setYield => (k.yield, g, .next .setReturn)
  | .setReturn => (k, g, .ret .unit)
  | .clearEvents flagsToClear =>
    let r := clearRegion k g flagsToClear
    (r.1, r.2, .ret .unit)

end EventGroup

end CppRtos
