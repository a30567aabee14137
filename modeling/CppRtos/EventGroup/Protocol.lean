import CppRtos.EventGroup.Waiting
import Mathlib.Data.Finset.Card

/-! Tasks and interrupt handlers that use one event group. Critical regions are atomic and
tasks are switched arbitrarily. The history that the statements speak about is recorded
beside the state; no step reads it. -/
namespace CppRtos.EventGroup

/-- `waits t`: the task has enqueued itself and has neither been woken by `setEvents` nor
returned. Of its last call of `waitForEvents`, `since t` and `timeout t` are the tick count at
its beginning and its argument, and `woken t` says that the call has been woken. `denied`: some
call with timeout `WAIT_FOREVER` has returned false. -/
structure History where
  waits : TaskPtr → Bool := fun _ => false
  woken : TaskPtr → Bool := fun _ => false
  since : TaskPtr → ℕ := fun _ => 0
  timeout : TaskPtr → ℕ := fun _ => 0
  denied : Bool := false

namespace History

def wake (h : History) (ts : List TaskPtr) : History :=
  { h with
    waits := fun t => h.waits t && decide (t ∉ ts)
    woken := fun t => h.woken t || decide (t ∈ ts) }

/-- A call of task `t` at point `c` begins at tick count `now` or goes on. -/
def enter (h : History) (t : TaskPtr) (now : ℕ) : Call → History
  | .waitForEvents _ timeout =>
    { h with
      woken := Function.update h.woken t false
      since := Function.update h.since t now
      timeout := Function.update h.timeout t timeout }
  | _ => h

def leave (h : History) (t : TaskPtr) (c : Call) : Outcome Call Result → History
  | .next _ => match c with
    | .waitForEvents _ _ => { h with waits := Function.update h.waits t true }
    | _ => h
  | .ret r =>
    { h with
      waits := Function.update h.waits t false
      denied := h.denied || (r == .value false && h.timeout t == waitForever) }

/-- The history after a step of task `t` at tick count `now` in which the tasks `ts` have been
woken. -/
def after (h : History) (t : TaskPtr) (now : ℕ) (ts : List TaskPtr) (c : Call)
    (o : Outcome Call Result) : History :=
  ((h.enter t now c).wake ts).leave t c o

end History

structure Shared where
  kernel : Kernel
  group : EventGroup
  history : History := {}

def wakes (k : Kernel) (g : EventGroup) : Call → List TaskPtr
  | .setEvents flagsToSet => setWakes k g flagsToSet
  | _ => []

/-- The kernel that the environment offers, in which only the flags of waiting tasks are
not its own. -/
def Shared.reschedule (s : Shared) (k' : Kernel) : Kernel :=
  { k' with taskData := fun t =>
      if s.history.waits t then
        (k'.taskData t).setFlagsToWaitFor (s.kernel.taskData t).flagsToWaitFor
      else k'.taskData t }

/-- What happens between the steps of the tasks: time passes and the scheduler and other
code work, or an interrupt handler calls `setEvents` or `clearEvents`. -/
inductive Environment where
  | schedule (k : Kernel)
  | setEvents (flagsToSet : BitVec 32)
  | clearEvents (flagsToClear : BitVec 32)

def Call.isEntry : Call → Bool
  | .waitForEvents _ _ | .setEvents _ | .clearEvents _ => true
  | _ => false

def protocol (tasks : Finset TaskPtr) :
    Protocol TaskPtr Shared Call Result Environment where
  entry t c s := s.kernel.currentTask = t ∧ t ∈ tasks ∧ c.isEntry = true
  enabled t _ s := s.kernel.currentTask = t
  step t c s :=
    let r := step s.kernel s.group c
    (⟨r.1, r.2.1, s.history.after t s.kernel.getTickCount (wakes s.kernel s.group c) c r.2.2⟩,
      r.2.2)
  interferes _ _ := True
  interfere e s := match e with
    | .schedule k' => { s with kernel := s.reschedule k' }
    | .setEvents f =>
      let r := setRegion s.kernel s.group f
      ⟨r.1.yield, r.2, s.history.wake (setWakes s.kernel s.group f)⟩
    | .clearEvents f =>
      let r := clearRegion s.kernel s.group f
      ⟨r.1, r.2, s.history⟩

abbrev State := Config TaskPtr Shared Call
abbrev Event := Protocol.Action TaskPtr Call Environment

def start (k : Kernel) : State := Protocol.start { kernel := k, group := new }

section
variable (tasks : Finset TaskPtr)

instance : ∀ t c s, Decidable ((protocol tasks).entry t c s) := fun t c s =>
  inferInstanceAs (Decidable (s.kernel.currentTask = t ∧ t ∈ tasks ∧ c.isEntry = true))

instance : ∀ t c s, Decidable ((protocol tasks).enabled t c s) := fun t _ s =>
  inferInstanceAs (Decidable (s.kernel.currentTask = t))

instance : ∀ e s, Decidable ((protocol tasks).interferes e s) := fun _ _ =>
  inferInstanceAs (Decidable True)

end

end CppRtos.EventGroup
