import CppRtos.EventGroup
import CppRtos.Mutex

/-! The whole system: tasks call the synchronization objects and `sleep`, the handlers of
the port switch tasks and advance time, and interrupts call the objects. Critical
regions are atomic; PendSV is taken as soon as it is pending outside of them, as with
the stubbed critical sections of the unit-test port. -/
namespace CppRtos

/-- Points inside `Task::sleep` and `Task::yield`. -/
inductive TaskCall where
  | sleep (task : TaskPtr) (ticks : ℕ)
  | sleepYield
  | yield
  | yieldReturn
deriving DecidableEq, Repr

namespace TaskCall

/-- The critical region of `sleep`. -/
def sleepRegion (k : Kernel) (task : TaskPtr) (ticks : ℕ) : Kernel :=
  let k := k.assert (!k.isInsideInterrupt)
  ((k.enterCritical).addSleepingTask task ticks).exitCritical

def step (k : Kernel) : TaskCall → Kernel × Outcome TaskCall Unit
  | .sleep task ticks => (sleepRegion k task ticks, .next .sleepYield)
  | .sleepYield => (k.yield, .next .yieldReturn)
  | .yield => (k.taskYield, .next .yieldReturn)
  | .yieldReturn => (k, .ret ())

end TaskCall

structure Objects where
  kernel : Kernel
  semaphores : ℕ → Semaphore
  mutexes : ℕ → Mutex
  eventGroups : ℕ → EventGroup

/-- What the application fixes before the start: the address of the idle task, the
priority assigned to each task, and the parameters of the semaphores. -/
structure Setup where
  idleTask : TaskPtr
  assigned : TaskPtr → TaskPriority
  maxCount : ℕ → ℕ := fun _ => 1
  initialCount : ℕ → ℕ := fun _ => 0

inductive Call where
  | task (c : TaskCall)
  | semaphore (s : ℕ) (c : Semaphore.Call)
  | mutex (m : ℕ) (c : Mutex.Call)
  | eventGroup (g : ℕ) (c : EventGroup.Call)
deriving DecidableEq, Repr

inductive CallResult where
  | task
  | semaphore (r : Semaphore.SemResult)
  | mutex (r : Mutex.MutexResult)
  | eventGroup (r : EventGroup.Result)
deriving DecidableEq, Repr

/-- The points at which a call of task `t` begins; a task sleeps on its own object. -/
def Call.isEntry (t : TaskPtr) : Call → Bool
  | .task (.sleep self _) => self == t
  | .task .yield => true
  | .semaphore _ (.wait _) | .semaphore _ .signal | .semaphore _ .flush => true
  | .mutex _ (.acquire _) | .mutex _ .release => true
  | .eventGroup _ (.waitForEvents _ _) | .eventGroup _ (.setEvents _)
  | .eventGroup _ (.clearEvents _) => true
  | _ => false

/-- Calls that interrupt handlers may make. -/
inductive IsrCall where
  | signal (s : ℕ)
  | flush (s : ℕ)
  | setEvents (g : ℕ) (flags : BitVec 32)
  | clearEvents (g : ℕ) (flags : BitVec 32)
deriving DecidableEq, Repr

/-- What happens besides the steps of the running task. -/
inductive Interrupt where
  | pendSV
  | sysTick
  | isr (c : IsrCall)
  | addTask (t : TaskPtr)
deriving DecidableEq, Repr

namespace Objects

def init (u : Setup) : Objects where
  kernel := Kernel.new u.idleTask u.assigned
  semaphores s := Semaphore.new (u.maxCount s) (u.initialCount s)
  mutexes _ := Mutex.new
  eventGroups _ := EventGroup.new

def setSemaphore (o : Objects) (k : Kernel) (s : ℕ) (sem : Semaphore) : Objects :=
  { o with kernel := k, semaphores := Function.update o.semaphores s sem }

def setMutex (o : Objects) (k : Kernel) (m : ℕ) (mtx : Mutex) : Objects :=
  { o with kernel := k, mutexes := Function.update o.mutexes m mtx }

def setEventGroup (o : Objects) (k : Kernel) (g : ℕ) (grp : EventGroup) : Objects :=
  { o with kernel := k, eventGroups := Function.update o.eventGroups g grp }

def step (o : Objects) : Call → Objects × Outcome Call CallResult
  | .task c =>
    let r := TaskCall.step o.kernel c
    ({ o with kernel := r.1 }, r.2.map .task fun _ => .task)
  | .semaphore s c =>
    let r := Semaphore.step o.kernel (o.semaphores s) c
    (o.setSemaphore r.1 s r.2.1, r.2.2.map (.semaphore s) .semaphore)
  | .mutex m c =>
    let r := Mutex.step o.kernel (o.mutexes m) c
    (o.setMutex r.1 m r.2.1, r.2.2.map (.mutex m) .mutex)
  | .eventGroup g c =>
    let r := EventGroup.step o.kernel (o.eventGroups g) c
    (o.setEventGroup r.1 g r.2.1, r.2.2.map (.eventGroup g) .eventGroup)

/-- A call from an interrupt handler runs to its end; `setEvents` yields there too. -/
def isr (o : Objects) : IsrCall → Objects
  | .signal s =>
    let r := Semaphore.signalRegion o.kernel (o.semaphores s)
    o.setSemaphore r.1 s r.2
  | .flush s =>
    let r := Semaphore.flushRegion o.kernel (o.semaphores s)
    o.setSemaphore r.1 s r.2.1
  | .setEvents g flags =>
    let r := EventGroup.setRegion o.kernel (o.eventGroups g) flags
    o.setEventGroup r.1.yield g r.2
  | .clearEvents g flags =>
    let r := EventGroup.clearRegion o.kernel (o.eventGroups g) flags
    o.setEventGroup r.1 g r.2

/-- A task is registered once, and its control block is not in use before. -/
def Interrupts : Interrupt → Objects → Prop
  | .pendSV, o => o.kernel.port.pendSV = true
  | .addTask t, o => ∀ i < maxTasks, o.kernel.tasks i ≠ some t
  | _, _ => True

instance : ∀ e o, Decidable (Interrupts e o)
  | .pendSV, o => inferInstanceAs (Decidable (o.kernel.port.pendSV = true))
  | .addTask t, o => inferInstanceAs (Decidable (∀ i < maxTasks, o.kernel.tasks i ≠ some t))
  | .sysTick, _ => inferInstanceAs (Decidable True)
  | .isr _, _ => inferInstanceAs (Decidable True)

def interrupt (o : Objects) : Interrupt → Objects
  | .pendSV => { o with kernel := o.kernel.pendSVHandler }
  | .sysTick => { o with kernel := o.kernel.sysTickHandler }
  | .isr c => o.isr c
  | .addTask t => { o with kernel := o.kernel.addTask t }

/-- Task `t` executes: it is the current task and no switch is pending. -/
def Runs (t : TaskPtr) (o : Objects) : Prop :=
  o.kernel.currentTask = t ∧ o.kernel.port.pendSV = false

instance (t : TaskPtr) (o : Objects) : Decidable (Runs t o) :=
  inferInstanceAs (Decidable (_ ∧ _))

end Objects

/-- The scheduled system. The idle task loops without calling anything. -/
def system : Protocol TaskPtr Objects Call CallResult Interrupt where
  entry t c o := Objects.Runs t o ∧ t ≠ o.kernel.idleTask ∧ c.isEntry t = true
  enabled t _ o := Objects.Runs t o
  step _ c o := o.step c
  interferes := Objects.Interrupts
  interfere e o := o.interrupt e

namespace system

abbrev State := Config TaskPtr Objects Call
abbrev Event := Protocol.Action TaskPtr Call Interrupt

instance : ∀ t c o, Decidable (system.entry t c o) := fun t c o =>
  inferInstanceAs (Decidable (Objects.Runs t o ∧ t ≠ o.kernel.idleTask ∧ c.isEntry t = true))

instance : ∀ t c o, Decidable (system.enabled t c o) := fun t _ o =>
  inferInstanceAs (Decidable (Objects.Runs t o))

instance : ∀ e o, Decidable (system.interferes e o) := fun e o =>
  inferInstanceAs (Decidable (Objects.Interrupts e o))

def init (u : Setup) : State := Protocol.start (Objects.init u)

/-- A run from the start of the system with the given setup. -/
def Run (u : Setup) (es : List Event) : Prop := system.machine.Valid (init u) es

def reached (u : Setup) (es : List Event) : State := system.machine.exec (init u) es

instance (u : Setup) (es : List Event) : Decidable (Run u es) :=
  inferInstanceAs (Decidable (system.machine.Valid _ _))

end system

end CppRtos
