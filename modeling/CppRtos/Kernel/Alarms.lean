import CppRtos.Kernel.Tables
import CppRtos.Timing.Alarms

/-! The alarms in the ticks of the kernel: which callbacks a tick calls, and what it does to one
alarm and its counter. -/
namespace CppRtos

namespace Tables
variable {s : Tables} {a b : AlarmPtr}

/-- The callback that the check of an alarm calls, with its argument. -/
def call (s : Tables) (a : AlarmPtr) : Option (ℕ × ℕ) :=
  let alarm := s.alarmData a
  if alarm.expired (s.counterData alarm.counter) then
    match alarm.taskToActivate with
    | some _ => none
    | none => alarm.callback.map fun cbk => (cbk, alarm.callbackArg)
  else none

/-- The calls of a loop over alarms, with the alarms they come from. -/
def calls : List AlarmPtr → Tables → List (AlarmPtr × ℕ × ℕ)
  | [], _ => []
  | a :: as, s => ((s.call a).map fun c => (a, c)).toList ++ calls as (s.checkAlarm a)

theorem calls_cons (s : Tables) (a : AlarmPtr) (as : List AlarmPtr) :
    calls (a :: as) s = ((s.call a).map fun c => (a, c)).toList ++ calls as (s.checkAlarm a) := rfl

theorem call_checkAlarm (h : a ≠ b) : (s.checkAlarm b).call a = s.call a := by
  have hdata : (s.checkAlarm b).alarmData a = s.alarmData a := Function.update_of_ne h _ _
  unfold call
  rw [hdata]
  rfl

theorem calls_of_not_mem {as : List AlarmPtr} (h : a ∉ as) :
    (calls as s).filter (·.1 = a) = [] := by
  induction as generalizing s with
  | nil => rfl
  | cons b as ih =>
    rw [List.mem_cons, not_or] at h
    rw [calls_cons, List.filter_append, ih h.2, List.append_nil]
    cases s.call b with
    | none => rfl
    | some c => simp [Ne.symm h.1]

/-- An alarm that is visited once is called once at most, whatever the other alarms do. -/
theorem calls_of_count {as : List AlarmPtr} (h : as.count a = 1) :
    (calls as s).filter (·.1 = a) = ((s.call a).map fun c => (a, c)).toList := by
  induction as generalizing s with
  | nil => cases h
  | cons b as ih =>
    rw [calls_cons, List.filter_append]
    by_cases hab : a = b
    · subst hab
      rw [List.count_cons_self] at h
      have hnot : a ∉ as := List.count_eq_zero.mp (Nat.succ.inj h)
      rw [calls_of_not_mem hnot, List.append_nil]
      cases s.call a with
      | none => rfl
      | some c => simp
    · rw [List.count_cons_of_ne (Ne.symm hab)] at h
      rw [ih h, call_checkAlarm hab]
      cases s.call b with
      | none => rfl
      | some c => simp [Ne.symm hab]

end Tables

namespace Kernel
open SlotTable

theorem callbacks_taskYield (k : Kernel) : k.taskYield.callbacks = k.callbacks := by
  have hport : ∀ (k : Kernel) (p : Port), ({ k with port := p } : Kernel).callbacks = k.callbacks :=
    fun _ _ => rfl
  unfold taskYield yield
  dsimp only
  split_ifs
  · rw [hport]
    rfl
  · rfl

theorem callbacks_checkAndTrigger (k : Kernel) (a : AlarmPtr) :
    (k.checkAndTrigger a).callbacks = (k.tables.call a).toList ++ k.callbacks := by
  have hcall : k.tables.call a =
      if (k.alarmData a).expired (k.counterData (k.alarmData a).counter) then
        match (k.alarmData a).taskToActivate with
        | some _ => none
        | none => (k.alarmData a).callback.map fun cbk => (cbk, (k.alarmData a).callbackArg)
      else none := rfl
  rw [hcall]
  unfold checkAndTrigger
  dsimp only
  split_ifs
  · cases (k.alarmData a).taskToActivate with
    | none => cases (k.alarmData a).callback <;> rfl
    | some t =>
      dsimp only
      split_ifs
      · rw [callbacks_taskYield]
        rfl
      · rfl
  · rfl

theorem callbacks_foldl (as : List AlarmPtr) (k : Kernel) :
    (as.foldl checkAndTrigger k).callbacks =
      ((Tables.calls as k.tables).map Prod.snd).reverse ++ k.callbacks := by
  induction as generalizing k with
  | nil => rfl
  | cons a as ih =>
    have hcall : (((k.tables.call a).map fun c => (a, c)).toList.map Prod.snd).reverse =
        (k.tables.call a).toList := by cases k.tables.call a <;> rfl
    rw [List.foldl_cons, ih, callbacks_checkAndTrigger, tables_checkAndTrigger]
    rw [Tables.calls_cons, List.map_append, List.reverse_append, hcall, List.append_assoc]

/-- The calls that a tick makes for alarms, in order. -/
def alarmCalls (k : Kernel) : List (AlarmPtr × ℕ × ℕ) :=
  Tables.calls (k.tickVisits .alarms) k.beforeAlarms.tables

theorem tick_eq_tickVisits (k : Kernel) :
    k.tick = (k.tickVisits .alarms).foldl checkAndTrigger k.beforeAlarms := by
  rw [tick_eq_checkAlarms]
  unfold checkAlarms
  rw [forSlots_eq, alarms_beforeAlarms]
  rfl

/-- The callbacks that a tick calls after those of the timers are the calls for alarms. -/
theorem callbacks_tick (k : Kernel) : k.tick.callbacks =
    (k.alarmCalls.map Prod.snd).reverse ++ k.beforeAlarms.callbacks := by
  rw [tick_eq_tickVisits, callbacks_foldl]
  rfl

/-! ## One alarm and its counter -/

variable {k : Kernel} {a : AlarmPtr} {c : CounterPtr}

def startAlarm (k : Kernel) (a : AlarmPtr) : Kernel :=
  let alarm := k.alarmData a
  { k with
    alarmData := Function.update k.alarmData a (alarm.start (k.counterData alarm.counter)) }

def pair (k : Kernel) (c : CounterPtr) (a : AlarmPtr) : Counter × Alarm :=
  (k.counterData c, k.alarmData a)

/-- The alarm uses the counter, and both are in one slot of their table. -/
structure RegisteredOnce (k : Kernel) (c : CounterPtr) (a : AlarmPtr) : Prop where
  counter : (k.alarmData a).counter = c
  counters : (k.tickVisits .counters).count c = 1
  alarms : (k.tickVisits .alarms).count a = 1

theorem tickVisits_tick (k : Kernel) (table : Table) :
    k.tick.tickVisits table = k.tickVisits table := by
  have htick := (tables_tick k).trans (Tables.tick_eq k.tables)
  cases table with
  | timers => exact congrArg (fun s => entries 32 s.timers) htick
  | counters => exact congrArg (fun s => entries 32 s.counters) htick
  | alarms => exact congrArg (fun s => entries 32 s.alarms) htick

theorem RegisteredOnce.counterData_tick (h : k.RegisteredOnce c a) :
    k.tick.counterData c = (k.counterData c).increment := by
  have hobject := object_tick k .counters c
  rw [h.counters, Function.iterate_one] at hobject
  exact TableObject.counter.inj hobject

theorem RegisteredOnce.pair_tick (h : k.RegisteredOnce c a) :
    k.tick.pair c a = Alarm.tick (k.pair c a) := by
  have hobject := object_tick k .alarms a
  rw [h.alarms, Function.iterate_one] at hobject
  have halarm : k.tick.alarmData a =
      (k.alarmData a).checked (k.tick.counterData (k.alarmData a).counter) :=
    TableObject.alarm.inj hobject
  rw [h.counter, h.counterData_tick] at halarm
  unfold pair
  rw [h.counterData_tick, halarm]
  rfl

theorem RegisteredOnce.tick (h : k.RegisteredOnce c a) : k.tick.RegisteredOnce c a := by
  have halarm : k.tick.alarmData a = (Alarm.tick (k.pair c a)).2 := congrArg Prod.snd h.pair_tick
  have hcounter : (k.tick.alarmData a).counter = (k.alarmData a).counter := by
    rw [halarm]
    exact congrArg Prod.fst (Alarm.setup_tick (k.pair c a))
  constructor
  · exact hcounter.trans h.counter
  · rw [tickVisits_tick]
    exact h.counters
  · rw [tickVisits_tick]
    exact h.alarms

theorem RegisteredOnce.calls (h : k.RegisteredOnce c a) {cbk : ℕ}
    (hcallback : (k.alarmData a).callback = some cbk)
    (htask : (k.alarmData a).taskToActivate = none) :
    k.alarmCalls.filter (·.1 = a) =
      if Alarm.fires (k.pair c a) then [(a, cbk, (k.alarmData a).callbackArg)] else [] := by
  have hcounter : k.beforeAlarms.tables.counterData c = (k.counterData c).increment := by
    rw [tables_beforeAlarms]
    have hcount : (entries 32 k.counters).count c = 1 := h.counters
    dsimp only
    rw [hcount, Function.iterate_one]
  have hcall : k.beforeAlarms.tables.call a = if Alarm.fires (k.pair c a) then
      some (cbk, (k.alarmData a).callbackArg) else none := by
    have hdata : k.beforeAlarms.tables.alarmData a = k.alarmData a := by
      rw [tables_beforeAlarms]
      rfl
    unfold Tables.call Alarm.fires pair
    dsimp only
    rw [hdata, h.counter, hcounter, htask, hcallback]
    rfl
  unfold alarmCalls
  rw [Tables.calls_of_count h.alarms, hcall]
  split_ifs <;> rfl

end Kernel

end CppRtos
