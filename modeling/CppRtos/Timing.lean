import CppRtos.Task

/-! Software timers, counters and alarms, with 32-bit wrapping tick values. A callback
is named by its address; what it does is application code. -/
namespace CppRtos

abbrev TimerPtr := ℕ
abbrev CounterPtr := ℕ
abbrev AlarmPtr := ℕ

structure Timer where
  callback : Option ℕ
  periodTicks : ℕ
  remainingTicks : ℕ
  autoReload : Bool
  running : Bool
  allocated : Bool
  arg : ℕ
deriving DecidableEq, Repr

namespace Timer

def new (cbck : Option ℕ) (periodTicks : ℕ) (autoReload : Bool) (arg : ℕ) : Timer :=
  ⟨cbck, periodTicks, periodTicks, autoReload, false, false, arg⟩

def start (t : Timer) : Timer := { t with running := true, remainingTicks := t.periodTicks }

def stop (t : Timer) : Timer := { t with running := false }

def reset (t : Timer) : Timer := { t with remainingTicks := t.periodTicks }

def setPeriod (t : Timer) (periodTicks : ℕ) : Timer :=
  let t := { t with periodTicks := periodTicks }
  if t.running then { t with remainingTicks := periodTicks } else t

/-- The countdown of `tick`, before its value is tested. -/
def countdown (t : Timer) : Timer :=
  { t with remainingTicks := (t.remainingTicks + (2 ^ 32 - 1)) % 2 ^ 32 }

/-- A running timer whose countdown reaches zero in the next tick. -/
def expires (t : Timer) : Bool := t.running && t.countdown.remainingTicks == 0

/-- One tick; `invoke` is the effect on the timer of calling its callback. -/
def tick (invoke : Timer → Timer) (t : Timer) : Timer :=
  if t.running then
    let t := t.countdown
    if t.remainingTicks = 0 then
      let t := if t.callback.isSome then invoke t else t
      if t.autoReload then { t with remainingTicks := t.periodTicks }
      else { t with running := false }
    else t
  else t

def allocate (t : Timer) : Timer := { t with allocated := true }

def deallocate (t : Timer) : Timer := { t with allocated := false, running := false }

end Timer

structure Counter where
  maxAllowedValue : ℕ
  currentTick : ℕ := 0
deriving DecidableEq, Repr

namespace Counter

def increment (c : Counter) : Counter :=
  let tick := (c.currentTick + 1) % 2 ^ 32
  { c with currentTick := if c.maxAllowedValue ≤ tick then 0 else tick }

def getElapsedValue (c : Counter) (startTick : ℕ) : ℕ :=
  if startTick ≤ c.currentTick then c.currentTick - startTick
  else (c.maxAllowedValue + (2 ^ 32 - startTick) + c.currentTick) % 2 ^ 32

def setCounterValue (c : Counter) (value : ℕ) : Counter :=
  if value ≤ c.maxAllowedValue then { c with currentTick := value } else c

end Counter

/-- An alarm calls its callback or activates a task when its counter has advanced far
enough. -/
structure Alarm where
  counter : CounterPtr
  callback : Option ℕ
  callbackArg : ℕ
  alarmTime : ℕ
  cycleTime : ℕ
  startTick : ℕ := 0
  active : Bool := false
  taskToActivate : Option TaskPtr := none
deriving DecidableEq, Repr

namespace Alarm

def start (a : Alarm) (counter : Counter) : Alarm :=
  { a with startTick := counter.currentTick, active := true }

def stop (a : Alarm) : Alarm := { a with active := false }

/-- Whether an active alarm has expired. -/
def expired (a : Alarm) (counter : Counter) : Bool :=
  a.active && decide (a.alarmTime ≤ counter.getElapsedValue a.startTick)

/-- The fields of an expired alarm after the cyclic or one-shot branch. -/
def rearm (a : Alarm) (counter : Counter) : Alarm :=
  if a.cycleTime > 0 then
    { a with startTick := counter.currentTick, alarmTime := a.cycleTime }
  else { a with active := false }

end Alarm

end CppRtos
