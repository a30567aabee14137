import CppRtos.Kernel.Alarms
import CppRtos.Kernel.Independence
import CppRtos.Timing.Countdown

/-! The calls on timers, counters and alarms that a program makes, and the parts of the tick
between which its callbacks make them. -/
namespace CppRtos

/-- Calls on timers, counters and alarms. -/
inductive TableCall where
  | timer (t : TimerPtr) (c : Timer.Command)
  | add (table : Kernel.Table) (x : ℕ)
  | remove (table : Kernel.Table) (x : ℕ)
  | setCounterValue (c : CounterPtr) (value : ℕ)
  | startAlarm (a : AlarmPtr)
  | stopAlarm (a : AlarmPtr)
deriving DecidableEq, Repr

/-- What no check of an alarm changes. -/
theorem Alarm.setup_rearm (a : Alarm) (c : Counter) : (a.rearm c).setup = a.setup := by
  unfold rearm
  split_ifs <;> rfl

namespace Kernel

def modifyTimer (k : Kernel) (t : TimerPtr) (f : Timer → Timer) : Kernel :=
  { k with timerData := Function.update k.timerData t (f (k.timerData t)) }

def modifyAlarm (k : Kernel) (a : AlarmPtr) (f : Alarm → Alarm) : Kernel :=
  { k with alarmData := Function.update k.alarmData a (f (k.alarmData a)) }

def modifyCounter (k : Kernel) (c : CounterPtr) (f : Counter → Counter) : Kernel :=
  { k with counterData := Function.update k.counterData c (f (k.counterData c)) }

def tableCall (k : Kernel) : TableCall → Kernel
  | .timer t c => k.modifyTimer t c.run
  | .add table x => (k.add table x).1
  | .remove table x => k.remove table x
  | .setCounterValue c value =>
    { k with
      counterData := Function.update k.counterData c ((k.counterData c).setCounterValue value) }
  | .startAlarm a => k.startAlarm a
  | .stopAlarm a => k.modifyAlarm a Alarm.stop

/-- The branch of `CheckAndTrigger` for an alarm that has a task to activate. -/
def activate (k : Kernel) (task : TaskPtr) : Kernel :=
  if k.getState task ≠ .eRunning then (k.setState task .eReady).taskYield else k

/-- `SysTick_Handler` after `tick`. -/
def leaveTick (k : Kernel) : Kernel :=
  { k with port := { k.port with pendSV := true, masked := false, insideInterrupt := false } }

/-! ## The parts of the tick -/

/-- One timer in the tick of the kernel, one statement after the other. -/
theorem tickTimer_eq (k : Kernel) (t : TimerPtr) : k.tickTimer t =
    if (k.timerData t).running = true then
      let k' := k.modifyTimer t Timer.countdown
      if (k.timerData t).countdown.remainingTicks = 0 then
        ((k.timerData t).callback.elim k'
          (k'.invokeCallback · (k.timerData t).arg)).modifyTimer t Timer.reload
      else k'
    else k := by
  unfold tickTimer
  dsimp only
  rw [Timer.tick_eq]
  by_cases hrun : (k.timerData t).running = true
  · by_cases hzero : (k.timerData t).countdown.remainingTicks = 0
    · have hexpires := (Timer.expires_eq _).mpr ⟨hrun, hzero⟩
      simp only [if_pos hrun, if_pos hzero, if_pos hexpires, id, ite_self]
      cases (k.timerData t).callback with
      | none =>
        simp only [modifyTimer, Option.elim_none, Function.update_self, Function.update_idem]
      | some c =>
        simp only [modifyTimer, invokeCallback, Option.elim_some, Function.update_self,
          Function.update_idem]
    · have hexpires : ¬ (k.timerData t).expires = true := fun h =>
        hzero ((Timer.expires_eq _).mp h).2
      rw [if_pos hrun, if_pos hrun, if_neg hzero, if_neg hzero, if_neg hexpires]
      rfl
  · have hexpires : ¬ (k.timerData t).expires = true := fun h =>
      hrun ((Timer.expires_eq _).mp h).1
    rw [if_neg hrun, if_neg hrun, if_neg hexpires, Function.update_eq_self]

theorem checkAndTrigger_eq (k : Kernel) (a : AlarmPtr) : k.checkAndTrigger a =
    if (k.alarmData a).expired (k.counterData (k.alarmData a).counter) = true then
      let k' := k.modifyAlarm a (·.rearm (k.counterData (k.alarmData a).counter))
      match (k.alarmData a).taskToActivate with
      | some task => k'.activate task
      | none => (k.alarmData a).callback.elim (k'.assert false)
          (k'.invokeCallback · (k.alarmData a).callbackArg)
    else k := rfl

theorem sysTickHandler_eq_leaveTick (k : Kernel) :
    k.sysTickHandler = k.enterTick.tick.leaveTick := rfl

/-! ## What the calls change -/

theorem keeps_update {α β : Type*} (g : α → β) (d : ℕ → α) {u : ℕ} {x : α} (hx : g x = g (d u))
    (t : ℕ) : g (Function.update d u x t) = g (d t) := by
  rcases eq_or_ne t u with rfl | ht
  · rw [Function.update_self, hx]
  · rw [Function.update_of_ne ht]

theorem add_eq (k : Kernel) (table : Table) (x : ℕ) :
    (k.add table x).1 = k.withTables ((k.add table x).1.tables, k.callbacks) ∧
      (k.add table x).1.counterData = k.counterData ∧
      (k.add table x).1.alarmData = k.alarmData := by
  cases table with
  | timers =>
    unfold add addTimer
    dsimp only
    cases SlotTable.find 32 k.timers none <;> exact ⟨rfl, rfl, rfl⟩
  | counters => exact ⟨rfl, rfl, rfl⟩
  | alarms => exact ⟨rfl, rfl, rfl⟩

theorem remove_eq (k : Kernel) (table : Table) (x : ℕ) :
    k.remove table x = k.withTables ((k.remove table x).tables, k.callbacks) ∧
      (k.remove table x).counterData = k.counterData ∧
      (k.remove table x).alarmData = k.alarmData := by
  cases table with
  | timers =>
    unfold remove removeTimer
    dsimp only
    cases SlotTable.find 32 k.timers (some x) <;> exact ⟨rfl, rfl, rfl⟩
  | counters => exact ⟨rfl, rfl, rfl⟩
  | alarms => exact ⟨rfl, rfl, rfl⟩

theorem bare_tableCall (k : Kernel) (c : TableCall) : (k.tableCall c).bare = k.bare := by
  cases c with
  | timer t c => rfl
  | add table x => exact (congrArg bare (add_eq k table x).1).trans (bare_withTables _ k)
  | remove table x => exact (congrArg bare (remove_eq k table x).1).trans (bare_withTables _ k)
  | setCounterValue c value => rfl
  | startAlarm a => rfl
  | stopAlarm a => rfl

theorem bare_incrementCounters (k : Kernel) : k.incrementCounters.bare = k.bare := by
  unfold incrementCounters
  exact forSlots_induction (P := fun k' : Kernel => k'.bare = k.bare) rfl fun _ _ h => h

end Kernel

end CppRtos
