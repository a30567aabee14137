import CppRtos.Kernel.Bags
import CppRtos.Library.Visits

/-! The callbacks of timers and alarms in the ticks of the kernel: which of them a tick calls and
in which order, and the ticks in which it calls those of one timer or of one alarm. -/
namespace CppRtos

namespace Tables
variable {s : Tables} {t u : TimerPtr}

/-- The callback that the tick of a timer calls, with its argument. -/
def timerCall (s : Tables) (t : TimerPtr) : Option (ℕ × ℕ) :=
  if (s.timerData t).expires then (s.timerData t).callback.map fun cbk => (cbk, (s.timerData t).arg)
  else none

theorem timerCall_tickTimer (h : u ≠ t) : (s.tickTimer u).timerCall t = s.timerCall t := by
  have hdata : (s.tickTimer u).timerData t = s.timerData t := Function.update_of_ne h.symm _ _
  unfold timerCall
  rw [hdata]

end Tables

namespace Kernel
open SlotTable

/-! ## The calls of a tick -/

theorem callbacks_setTaskReady (k : Kernel) (t : Option TaskPtr) :
    (k.setTaskReady t).callbacks = k.callbacks := by
  cases t with
  | none => rfl
  | some t =>
    unfold setTaskReady
    dsimp only
    split_ifs <;> rfl

theorem callbacks_wakeUps (k : Kernel) : k.wakeUps.callbacks = k.callbacks := by
  unfold wakeUps
  refine List.foldlRecOn (motive := fun k' : Kernel => k'.callbacks = k.callbacks) _ _ rfl ?_
  intro k' hk' i _
  unfold wakeUp
  split_ifs
  · exact (callbacks_setTaskReady k' _).trans hk'
  · exact hk'

theorem timerCall_tables (k : Kernel) (t : TimerPtr) : k.tables.timerCall t =
    if (k.timerData t).expires then
      (k.timerData t).callback.map fun cbk => (cbk, (k.timerData t).arg)
    else none := rfl

theorem callbacks_tickTimer (k : Kernel) (t : TimerPtr) :
    (k.tickTimer t).callbacks = (k.tables.timerCall t).toList ++ k.callbacks := by
  rw [timerCall_tables]
  unfold tickTimer
  dsimp only
  split_ifs
  · cases (k.timerData t).callback <;> rfl
  · rfl

/-- The calls that a tick makes for timers, in order. -/
def timerCalls (k : Kernel) : List (TimerPtr × ℕ × ℕ) :=
  Visits.outputs Tables.tickTimer Tables.timerCall (k.tickVisits .timers) k.tables

/-- A tick first calls the callbacks of the timers, then those of the alarms, both in the order
of their slots, and no other. -/
theorem callbacks_tick_eq (k : Kernel) : k.tick.callbacks =
    ((k.timerCalls ++ k.alarmCalls).map Prod.snd).reverse ++ k.callbacks := by
  have hcounters : k.beforeAlarms.callbacks = k.wakeUps.updateTimers.callbacks := by
    unfold beforeAlarms incrementCounters
    exact forSlots_induction
      (P := fun k' : Kernel => k'.callbacks = k.wakeUps.updateTimers.callbacks) rfl fun _ _ h => h
  have hvisits : entries 32 k.wakeUps.timers = k.tickVisits .timers :=
    congrArg (fun s => entries 32 s.timers) (tables_wakeUps k)
  have htimers : k.wakeUps.updateTimers.callbacks =
      (k.timerCalls.map Prod.snd).reverse ++ k.callbacks := by
    unfold updateTimers timerCalls
    rw [forSlots_eq, hvisits, Visits.log_foldl Tables.tickTimer Tables.timerCall tables_tickTimer
      callbacks_tickTimer, tables_wakeUps, callbacks_wakeUps]
  rw [callbacks_tick, hcounters, htimers, List.map_append, List.reverse_append, List.append_assoc]

/-- The tick calls the callback of a timer that is registered once if the timer fires. -/
theorem timerCalls_filter {k : Kernel} {t : TimerPtr} {cbk : ℕ}
    (hcallback : (k.timerData t).callback = some cbk)
    (honce : (k.tickVisits .timers).count t = 1) :
    k.timerCalls.filter (·.1 = t) =
      if (k.timerData t).fires then [(t, cbk, (k.timerData t).arg)] else [] := by
  have hcall : k.tables.timerCall t =
      if (k.timerData t).fires then some (cbk, (k.timerData t).arg) else none := by
    rw [timerCall_tables]
    unfold Timer.fires
    rw [hcallback, Option.isSome_some, Bool.and_true]
    rfl
  unfold timerCalls
  rw [Visits.outputs_of_count (fun _ _ h => Tables.timerCall_tickTimer h) honce, hcall]
  split_ifs <;> rfl

/-! ## The run of a registered timer -/

/-- What the program does between ticks: calls on timers, registrations, and anything else that
leaves the timers alone. -/
inductive Managing where
  | tick
  | call (t : TimerPtr) (op : Timer.Operation)
  | add (t : TimerPtr)
  | remove (t : TimerPtr)
  | other (k : Kernel)

/-- Only the kernel calls `tick` of the timer `t`, which stays registered and has positive
periods of 32 bits. -/
def managing (t : TimerPtr) : Machine Kernel Managing where
  guard
    | .call u op, k => u = t → op ≠ .tick ∧ Timer.timing.guard op (k.timerData t)
    | .add u, _ | .remove u, _ => u ≠ t
    | .other k', k => k'.timers = k.timers ∧ k'.timerData = k.timerData
    | .tick, _ => True
  apply
    | .tick, k => k.tick
    | .call u op, k =>
      { k with timerData := Function.update k.timerData u (Timer.timing.apply op (k.timerData u)) }
    | .add u, k => (k.add .timers u).1
    | .remove u, k => k.remove .timers u
    | .other k', _ => k'

/-- What a run does to the timer `t`. -/
def operations (t : TimerPtr) : List Managing → List Timer.Operation
  | [] => []
  | .tick :: es => .tick :: operations t es
  | .call u op :: es => if u = t then op :: operations t es else operations t es
  | _ :: es => operations t es

section
variable {k : Kernel} {t u : TimerPtr}

theorem count_add (h : u ≠ t) :
    ((k.add .timers u).1.tickVisits .timers).count t = (k.tickVisits .timers).count t := by
  unfold tickVisits
  rw [slots_add, Function.update_self]
  rcases insert_cases 32 (k.slots .timers) u with ⟨-, he⟩ | ⟨-, hp⟩
  · rw [he]
  · rw [hp.count_eq, List.count_cons_of_ne h]

theorem count_remove (h : u ≠ t) :
    ((k.remove .timers u).tickVisits .timers).count t = (k.tickVisits .timers).count t := by
  unfold tickVisits
  rw [slots_remove, Function.update_self]
  by_cases hu : u ∈ entries 32 (k.slots .timers)
  · rw [(erase_perm hu).count_eq, List.count_cons_of_ne h]
  · rw [erase_of_not_mem hu]

theorem timerData_add (h : u ≠ t) : (k.add .timers u).1.timerData t = k.timerData t := by
  by_cases hfind : find 32 k.timers none = none
  · rw [addTimer_of_full hfind]
  · rw [timerData_addTimer hfind, Function.update_of_ne h.symm]

theorem timerData_remove (h : u ≠ t) : (k.remove .timers u).timerData t = k.timerData t := by
  by_cases hu : u ∈ entries 32 k.timers
  · rw [timerData_removeTimer hu, Function.update_of_ne h.symm]
  · rw [removeTimer_of_not_mem hu]

theorem registered_addTimer (hfree : find 32 k.timers none ≠ none)
    (hnew : t ∉ k.tickVisits .timers) :
    (k.addTimer (some t)).1.timerData t = (k.timerData t).allocate ∧
      ((k.addTimer (some t)).1.tickVisits .timers).count t = 1 := by
  constructor
  · have hdata : (k.addTimer (some t)).1.timerData = _ := timerData_addTimer hfree
    rw [hdata, Function.update_self]
  · change ((k.add .timers t).1.tickVisits .timers).count t = 1
    unfold tickVisits
    rw [slots_add, Function.update_self]
    rcases insert_cases 32 (k.slots .timers) t with ⟨hnone, -⟩ | ⟨-, hp⟩
    · exact absurd hnone hfree
    · have hzero : (entries 32 (k.slots .timers)).count t = 0 := List.count_eq_zero_of_not_mem hnew
      rw [hp.count_eq, List.count_cons_self, hzero]

theorem run_timer {es : List Managing} (honce : (k.tickVisits .timers).count t = 1)
    (h : (managing t).Valid k es) :
    ((managing t).exec k es).timerData t =
        Timer.timing.exec (k.timerData t) (operations t es) ∧
      (((managing t).exec k es).tickVisits .timers).count t = 1 ∧
      Timer.timing.Valid (k.timerData t) (operations t es) := by
  induction es generalizing k with
  | nil => exact ⟨rfl, honce, trivial⟩
  | cons e es ih =>
    obtain ⟨hg, hv⟩ := h
    have hkeep : ((managing t).apply e k).timerData t = k.timerData t →
        (((managing t).apply e k).tickVisits .timers).count t = (k.tickVisits .timers).count t →
        ((managing t).exec k (e :: es)).timerData t =
            Timer.timing.exec (k.timerData t) (operations t es) ∧
          (((managing t).exec k (e :: es)).tickVisits .timers).count t = 1 ∧
          Timer.timing.Valid (k.timerData t) (operations t es) := by
      intro hdata hcount
      rw [← hdata]
      exact ih (hcount.trans honce) hv
    cases e with
    | tick =>
      have hdata : k.tick.timerData t = (k.timerData t).tick id := by
        rw [timerData_tick, honce, Function.iterate_one]
      have honce' := (congrArg (List.count t) (tickVisits_tick k .timers)).trans honce
      obtain ⟨hstate, hcount, hvalid⟩ := ih honce' hv
      rw [hdata] at hstate hvalid
      exact ⟨hstate, hcount, trivial, hvalid⟩
    | call u op =>
      by_cases hu : u = t
      · subst hu
        have hdata : ((managing u).apply (.call u op) k).timerData u =
            Timer.timing.apply op (k.timerData u) := Function.update_self _ _ _
        obtain ⟨hstate, hcount, hvalid⟩ := ih (k := (managing u).apply (.call u op) k) honce hv
        rw [hdata] at hstate hvalid
        unfold operations
        rw [if_pos rfl]
        exact ⟨hstate, hcount, (hg rfl).2, hvalid⟩
      · unfold operations
        rw [if_neg hu]
        exact hkeep (Function.update_of_ne (Ne.symm hu) _ _) rfl
    | add u => exact hkeep (timerData_add hg) (count_add hg)
    | remove u => exact hkeep (timerData_remove hg) (count_remove hg)
    | other k' =>
      refine hkeep (congrFun hg.2 t) ?_
      exact congrArg (fun slots => (entries 32 slots).count t) hg.1

end

theorem callback_exec (t : Timer) (ops : List Timer.Operation) :
    (Timer.timing.exec t ops).callback = t.callback ∧ (Timer.timing.exec t ops).arg = t.arg := by
  induction ops generalizing t with
  | nil => exact ⟨rfl, rfl⟩
  | cons op ops ih =>
    have hop : (Timer.timing.apply op t).callback = t.callback ∧
        (Timer.timing.apply op t).arg = t.arg := by
      cases op with
      | setPeriod n =>
        change (t.setPeriod n).callback = t.callback ∧ (t.setPeriod n).arg = t.arg
        unfold Timer.setPeriod
        dsimp only
        split_ifs <;> exact ⟨rfl, rfl⟩
      | tick => exact ⟨(frame_tick t).1, (frame_tick t).2.1⟩
      | _ => exact ⟨rfl, rfl⟩
    obtain ⟨hcallback, harg⟩ := ih (Timer.timing.apply op t)
    exact ⟨hcallback.trans hop.1, harg.trans hop.2⟩

/-- The last load of a new timer after a run of the kernel. -/
def lastLoad (t : TimerPtr) (timer : Timer) (es : List Managing) : Timer.Load :=
  ((Timer.timing.withHistory Timer.observe).exec (timer, ⟨0, timer.periodTicks⟩)
    (operations t es)).2

/-- A new timer that finds a free slot has its callback called exactly in the ticks that are the
last of the period it was loaded with, once in each of them, whatever else is registered or
removed and whatever calls are made in between. A tick calls the timers in the order of their
slots and the alarms after them. -/
theorem timer_schedule {k : Kernel} {t : TimerPtr} {cbk n arg : ℕ} {autoReload : Bool}
    (hnew : k.timerData t = Timer.new (some cbk) n autoReload arg) (hn : Timer.Period n)
    (hfree : find 32 k.timers none ≠ none) (hout : t ∉ k.tickVisits .timers) {es : List Managing}
    (hes : (managing t).Valid (k.addTimer (some t)).1 es) :
    let k' := (managing t).exec (k.addTimer (some t)).1 es
    let load := lastLoad t (k.timerData t).allocate es
    (k'.timerCalls.filter (·.1 = t) =
      if (k'.timerData t).running ∧ load.since + 1 = load.period then [(t, cbk, arg)] else []) ∧
    k'.tick.callbacks =
      ((k'.timerCalls ++ k'.alarmCalls).map Prod.snd).reverse ++ k'.callbacks := by
  intro k' load
  obtain ⟨hdata, honce⟩ := registered_addTimer hfree hout
  obtain ⟨hstate, honce', hvalid⟩ := run_timer honce hes
  rw [hdata, hnew] at hstate hvalid
  obtain ⟨hcallback, harg⟩ :=
    callback_exec (Timer.new (some cbk) n autoReload arg).allocate (operations t es)
  have hcounts : Timer.Counts (k'.timerData t, load) := by
    have hall := Machine.invariant (M := Timer.timing.withHistory Timer.observe)
      (I := Timer.Counts) (fun e s hs hg => hs.apply hg)
      ⟨rfl, hn, fun hr => (by cases hr), fun hr => (by cases hr)⟩
      ((Machine.valid_withHistory Timer.timing Timer.observe
        ((Timer.new (some cbk) n autoReload arg).allocate, ⟨0, n⟩) (operations t es)).mpr hvalid)
    have hfst : k'.timerData t = ((Timer.timing.withHistory Timer.observe).exec
        ((Timer.new (some cbk) n autoReload arg).allocate, ⟨0, n⟩) (operations t es)).1 := by
      rw [Machine.exec_withHistory_fst]
      exact hstate
    have hsnd : load = ((Timer.timing.withHistory Timer.observe).exec
        ((Timer.new (some cbk) n autoReload arg).allocate, ⟨0, n⟩) (operations t es)).2 := by
      change lastLoad t (k.timerData t).allocate es = _
      rw [hnew]
      rfl
    rw [hfst, hsnd]
    exact hall
  refine ⟨?_, callbacks_tick_eq k'⟩
  rw [← hstate] at hcallback harg
  rw [timerCalls_filter hcallback honce', harg]
  exact if_congr hcounts.fires_iff rfl rfl

def sampleTimers : Kernel where
  currentTask := 0
  idleTask := 0
  taskData := fun _ => {}
  timers := fun i => if i = 0 then some 6 else none
  timerData := fun _ => Timer.new (some 7) 3 true 1

/-- The other timer goes before the last of three ticks, of which the first comes before the
start. -/
theorem timer_schedule_started :
    ((managing 4).exec (sampleTimers.addTimer (some 4)).1
      [.tick, .call 4 .start, .tick, .remove 6, .tick]).timerCalls.filter (·.1 = 4) =
        [(4, 7, 1)] := by
  have hother : (6 : TimerPtr) ≠ 4 := by decide
  have hvalid : (managing 4).Valid (sampleTimers.addTimer (some 4)).1
      [.tick, .call 4 .start, .tick, .remove 6, .tick] :=
    ⟨trivial, fun _ => ⟨by decide, trivial⟩, trivial, hother, trivial, trivial⟩
  have hlast := (timer_schedule (k := sampleTimers) (t := 4) rfl (by decide) (by decide)
    (by decide) hvalid).1
  rw [hlast]
  decide +kernel

/-! ## The run after the start of an alarm -/

variable {k : Kernel} {a : AlarmPtr} {c : CounterPtr}

/-- `other` is what the program does between two ticks. It leaves the alarm, the counter and
their slots alone. -/
inductive Ticking where
  | tick
  | other (k : Kernel)

def ticking (c : CounterPtr) (a : AlarmPtr) : Machine Kernel Ticking where
  guard
    | .tick, _ => True
    | .other k', k => k'.pair c a = k.pair c a ∧ k'.RegisteredOnce c a
  apply
    | .tick, k => k.tick
    | .other k', _ => k'

def tickNumber : List Ticking → ℕ
  | [] => 0
  | .tick :: es => tickNumber es + 1
  | .other _ :: es => tickNumber es

theorem run_pair {es : List Ticking} (h : k.RegisteredOnce c a) (hes : (ticking c a).Valid k es) :
    ((ticking c a).exec k es).RegisteredOnce c a ∧
      ((ticking c a).exec k es).pair c a = Alarm.tick^[tickNumber es] (k.pair c a) := by
  induction es generalizing k with
  | nil => exact ⟨h, rfl⟩
  | cons e es ih =>
    obtain ⟨hg, hv⟩ := hes
    cases e with
    | tick =>
      obtain ⟨honce, hpair⟩ := ih h.tick hv
      refine ⟨honce, hpair.trans ?_⟩
      rw [h.pair_tick, ← Function.iterate_succ_apply]
      rfl
    | other k' =>
      obtain ⟨honce, hpair⟩ := ih hg.2 hv
      rw [hg.1] at hpair
      exact ⟨honce, hpair⟩

/-- From its first start on, an alarm calls its callback once in each of the ticks `alarmTime`,
`alarmTime + cycleTime` and so on, and in no other tick: what a tick calls are the calls for
timers and then those for alarms. Without a cycle the alarm is inactive after the first call. -/
theorem alarm_schedule {cbk arg alarmTime cycleTime : ℕ}
    (hnew : k.alarmData a = Alarm.newCallback c cbk arg alarmTime cycleTime)
    (hcounters : (k.tickVisits .counters).count c = 1)
    (halarms : (k.tickVisits .alarms).count a = 1)
    (hregular : (k.counterData c).Regular)
    (htime : 1 ≤ alarmTime ∧ alarmTime < (k.counterData c).maxAllowedValue)
    (hcycle : cycleTime < (k.counterData c).maxAllowedValue) {es : List Ticking}
    (hes : (ticking c a).Valid (k.startAlarm a) es) :
    let k' := (ticking c a).exec (k.startAlarm a) es
    k'.tick.callbacks = ((k'.timerCalls ++ k'.alarmCalls).map Prod.snd).reverse ++ k'.callbacks ∧
    ((∃ j, tickNumber es + 1 = alarmTime + j * cycleTime) →
      k'.alarmCalls.filter (·.1 = a) = [(a, cbk, arg)]) ∧
    ((¬ ∃ j, tickNumber es + 1 = alarmTime + j * cycleTime) →
      k'.alarmCalls.filter (·.1 = a) = []) ∧
    (cycleTime = 0 → alarmTime ≤ tickNumber es → (k'.alarmData a).active = false) := by
  intro k'
  have hcounter : (k.alarmData a).counter = c := by rw [hnew]; rfl
  have hstart : (k.startAlarm a).pair c a = Alarm.startNow (k.pair c a) := by
    unfold startAlarm pair Alarm.startNow
    dsimp only
    rw [Function.update_self, hcounter]
  have hsetup : (Alarm.startNow (k.pair c a)).2.setup = (c, some cbk, arg, cycleTime, none) := by
    unfold pair
    rw [hnew]
    rfl
  have honce : (k.startAlarm a).RegisteredOnce c a := by
    refine ⟨?_, hcounters, halarms⟩
    exact (congrArg (fun s => s.2.counter) hstart).trans (congrArg Prod.fst hsetup)
  obtain ⟨honce', hpair⟩ := run_pair honce hes
  rw [hstart] at hpair
  have hsetup' : (k'.alarmData a).setup = (c, some cbk, arg, cycleTime, none) := by
    have halarm : k'.alarmData a = (Alarm.tick^[tickNumber es] (Alarm.startNow (k.pair c a))).2 :=
      congrArg Prod.snd hpair
    rw [halarm, Alarm.setup_iterate, hsetup]
  have hcalls := honce'.calls (congrArg (fun t => t.2.1) hsetup')
    (congrArg (fun t => t.2.2.2.2) hsetup')
  have harg : (k'.alarmData a).callbackArg = arg := congrArg (fun t => t.2.2.1) hsetup'
  have hsched : Alarm.Schedule alarmTime cycleTime (Alarm.startNow (k.pair c a)) := by
    have htimes : (k.pair c a).2.alarmTime = alarmTime ∧ (k.pair c a).2.cycleTime = cycleTime := by
      unfold pair
      rw [hnew]
      exact ⟨rfl, rfl⟩
    rw [← htimes.1] at htime
    rw [← htimes.2] at hcycle
    have hstart := Alarm.schedule_start (s := k.pair c a) hregular htime.1 htime.2 hcycle
    rwa [htimes.1, htimes.2] at hstart
  have hiff := hsched (tickNumber es)
  rw [← hpair] at hiff
  rw [hcalls, harg]
  refine ⟨callbacks_tick_eq k', ?_, ?_, ?_⟩
  · intro hj
    rw [if_pos (hiff.mpr hj)]
  · intro hj
    rw [if_neg (mt hiff.mp hj)]
  · intro hzero hle
    rw [hzero] at hsched
    have hoff := hsched.inactive htime.1 ((congrArg (fun t => t.2.2.2.1) hsetup).trans hzero) hle
    rw [← hpair] at hoff
    exact hoff

/-- Counter 5 at 8 of 10, and alarm 3 for 4 ticks, then every 3. -/
def sampleAlarms : Kernel where
  currentTask := 0
  idleTask := 0
  taskData := fun _ => {}
  counters := fun i => if i = 0 then some 5 else none
  alarms := fun i => if i = 2 then some 3 else none
  counterData := fun _ => ⟨10, 8⟩
  alarmData := fun _ => Alarm.newCallback 5 7 1 4 3

/-- The counter goes round before the alarm fires in the fourth tick. -/
theorem alarm_schedule_wrap :
    let k' := (ticking 5 3).exec (sampleAlarms.startAlarm 3) [.tick, .tick, .tick]
    k'.alarmCalls.filter (·.1 = 3) = [(3, 7, 1)] ∧ k'.tick.callbacks = [(7, 1)] := by
  have hvalid : (ticking 5 3).Valid (sampleAlarms.startAlarm 3) [.tick, .tick, .tick] :=
    ⟨trivial, trivial, trivial, trivial⟩
  have hregular : (sampleAlarms.counterData 5).Regular := ⟨by decide, by decide⟩
  obtain ⟨hcallbacks, hcalls, -⟩ := alarm_schedule (k := sampleAlarms) rfl (by decide) (by decide)
    hregular (by decide) (by decide) hvalid
  exact ⟨hcalls ⟨0, rfl⟩, hcallbacks.trans (by decide +kernel)⟩

end Kernel

end CppRtos
