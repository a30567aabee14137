import CppRtos.Kernel.ReadyTable
import CppRtos.Library.Machine
import CppRtos.Library.SlotTable

/-! The tables of timers, counters and alarms: what a tick does to the objects in them, and
when registration keeps every object in one slot. -/
namespace CppRtos

/-- An alarm after its check. -/
def Alarm.checked (a : Alarm) (counter : Counter) : Alarm :=
  if a.expired counter then a.rearm counter else a

/-- The three tables, with the objects that their pointers refer to. -/
structure Tables where
  timers : ℕ → Option TimerPtr
  counters : ℕ → Option CounterPtr
  alarms : ℕ → Option AlarmPtr
  timerData : TimerPtr → Timer
  counterData : CounterPtr → Counter
  alarmData : AlarmPtr → Alarm

namespace Tables
open SlotTable

def tickTimer (s : Tables) (t : TimerPtr) : Tables :=
  { s with timerData := Function.update s.timerData t ((s.timerData t).tick id) }

def incrementCounter (s : Tables) (c : CounterPtr) : Tables :=
  { s with counterData := Function.update s.counterData c (s.counterData c).increment }

def checkAlarm (s : Tables) (a : AlarmPtr) : Tables :=
  { s with
    alarmData := Function.update s.alarmData a
      ((s.alarmData a).checked (s.counterData (s.alarmData a).counter)) }

/-- One tick visits the entries of the three tables in turn. -/
def tick (s : Tables) : Tables :=
  let s := (entries 32 s.timers).foldl tickTimer s
  let s := (entries 32 s.counters).foldl incrementCounter s
  (entries 32 s.alarms).foldl checkAlarm s

theorem foldl_tickTimer (xs : List TimerPtr) (s : Tables) : xs.foldl tickTimer s =
    { s with timerData := fun t => (Timer.tick id)^[xs.count t] (s.timerData t) } := by
  rw [← foldl_update]
  refine List.foldl_hom (fun d => ({ s with timerData := d } : Tables)) ?_
  intro d x
  rfl

theorem foldl_incrementCounter (xs : List CounterPtr) (s : Tables) :
    xs.foldl incrementCounter s =
      { s with counterData := fun c => Counter.increment^[xs.count c] (s.counterData c) } := by
  rw [← foldl_update]
  refine List.foldl_hom (fun d => ({ s with counterData := d } : Tables)) ?_
  intro d x
  rfl

theorem foldl_checkAlarm (xs : List AlarmPtr) (s : Tables) : xs.foldl checkAlarm s =
    { s with
      alarmData := fun a =>
        (fun a => a.checked (s.counterData a.counter))^[xs.count a] (s.alarmData a) } := by
  rw [← foldl_update]
  refine List.foldl_hom (fun d => ({ s with alarmData := d } : Tables)) ?_
  intro d x
  rfl

/-- A tick advances every object as often as it is registered. -/
theorem tick_eq (s : Tables) : s.tick =
    let counterData := fun c =>
      Counter.increment^[(entries 32 s.counters).count c] (s.counterData c)
    { s with
      timerData := fun t => (Timer.tick id)^[(entries 32 s.timers).count t] (s.timerData t)
      counterData := counterData
      alarmData := fun a =>
        (fun a => a.checked (counterData a.counter))^[(entries 32 s.alarms).count a]
          (s.alarmData a) } := by
  unfold tick
  rw [foldl_tickTimer]
  dsimp only
  rw [foldl_incrementCounter]
  dsimp only
  rw [foldl_checkAlarm]

end Tables

namespace Kernel
open SlotTable

def tables (k : Kernel) : Tables where
  timers := k.timers
  counters := k.counters
  alarms := k.alarms
  timerData := k.timerData
  counterData := k.counterData
  alarmData := k.alarmData

@[simp] theorem tables_setState (k : Kernel) (t : TaskPtr) (s : TaskStateType) :
    (k.setState t s).tables = k.tables := rfl

@[simp] theorem tables_assert (k : Kernel) (b : Bool) : (k.assert b).tables = k.tables := rfl

@[simp] theorem tables_setTaskReady (k : Kernel) (t : Option TaskPtr) :
    (k.setTaskReady t).tables = k.tables := by
  cases t with
  | none => rfl
  | some t =>
    unfold setTaskReady
    dsimp only
    split_ifs <;> rfl

theorem tables_port (k : Kernel) (p : Port) : ({ k with port := p } : Kernel).tables = k.tables :=
  rfl

@[simp] theorem tables_taskYield (k : Kernel) : k.taskYield.tables = k.tables := by
  unfold taskYield yield
  dsimp only
  split_ifs
  · rw [tables_port, tables_assert]
  · rw [tables_assert]

theorem tables_wakeUp (now : ℕ) (k : Kernel) (i : ℕ) : (k.wakeUp now i).tables = k.tables := by
  unfold wakeUp
  split_ifs
  · exact tables_setTaskReady k (k.tasks i)
  · rfl

theorem tables_tickTimer (k : Kernel) (t : TimerPtr) :
    (k.tickTimer t).tables = k.tables.tickTimer t := by
  have htick : k.tables.tickTimer t = { k.tables with
      timerData := Function.update k.timerData t ((k.timerData t).tick id) } := rfl
  rw [htick]
  unfold tickTimer
  dsimp only
  generalize (k.timerData t).tick id = t'
  split_ifs
  · cases (k.timerData t).callback <;> rfl
  · rfl

theorem tables_checkAndTrigger (k : Kernel) (a : AlarmPtr) :
    (k.checkAndTrigger a).tables = k.tables.checkAlarm a := by
  have hcheck : k.tables.checkAlarm a = { k.tables with
      alarmData := Function.update k.alarmData a
        (if (k.alarmData a).expired (k.counterData (k.alarmData a).counter) then
          (k.alarmData a).rearm (k.counterData (k.alarmData a).counter)
        else k.alarmData a) } := rfl
  have hk : k.tables = { k.tables with alarmData := k.alarmData } := rfl
  rw [hcheck]
  unfold checkAndTrigger
  dsimp only
  split_ifs with hexpired
  · cases (k.alarmData a).taskToActivate with
    | none => cases (k.alarmData a).callback <;> rfl
    | some t =>
      dsimp only
      split_ifs
      · rw [tables_taskYield, tables_setState]
        rfl
      · rfl
  · have hself := Function.update_eq_self a k.alarmData
    rw [hself]
    exact hk

theorem forSlots_eq (slots : ℕ → Option ℕ) (f : Kernel → ℕ → Kernel) (k : Kernel) :
    forSlots slots f k = (entries 32 slots).foldl f k := foldl_slots f 32 slots k

theorem tables_foldl {α : Type*} {f : Kernel → α → Kernel} {g : Tables → α → Tables}
    (hf : ∀ k x, (f k x).tables = g k.tables x) (xs : List α) (k : Kernel) :
    (xs.foldl f k).tables = xs.foldl g k.tables :=
  (List.foldl_hom tables fun k x => (hf k x).symm).symm

def wakeUps (k : Kernel) : Kernel :=
  (List.range maxTasks).foldl (wakeUp k.getTickCount) k

theorem tables_wakeUps (k : Kernel) : k.wakeUps.tables = k.tables := by
  unfold wakeUps
  have hfold := tables_foldl (g := fun s _ => s) (tables_wakeUp k.getTickCount)
  rw [hfold, List.foldl_fixed]

theorem tables_updateTimers (k : Kernel) :
    k.updateTimers.tables = (entries 32 k.timers).foldl Tables.tickTimer k.tables := by
  unfold updateTimers
  rw [forSlots_eq]
  exact tables_foldl tables_tickTimer _ k

theorem tables_incrementCounters (k : Kernel) : k.incrementCounters.tables =
    (entries 32 k.counters).foldl Tables.incrementCounter k.tables := by
  unfold incrementCounters
  rw [forSlots_eq]
  exact tables_foldl (fun _ _ => rfl) _ k

theorem tables_checkAlarms (k : Kernel) :
    k.checkAlarms.tables = (entries 32 k.alarms).foldl Tables.checkAlarm k.tables := by
  unfold checkAlarms
  rw [forSlots_eq]
  exact tables_foldl tables_checkAndTrigger _ k

def beforeAlarms (k : Kernel) : Kernel := k.wakeUps.updateTimers.incrementCounters

theorem tick_eq_checkAlarms (k : Kernel) : k.tick = k.beforeAlarms.checkAlarms := rfl

section
variable {P : Kernel → Prop} {k : Kernel} (h : P k)
  (hwake : ∀ now k i, P k → P (wakeUp now k i)) (htimer : ∀ k t, P k → P (k.tickTimer t))
  (hcounter : ∀ (k : Kernel) d, P k → P { k with counterData := d })
include h hwake htimer hcounter

theorem beforeAlarms_induction : P k.beforeAlarms := by
  have hwoken : P k.wakeUps := by
    unfold wakeUps
    refine List.foldlRecOn (motive := P) _ _ h ?_
    exact fun k' hk' i _ => hwake _ k' i hk'
  have htimers : P k.wakeUps.updateTimers := by
    unfold updateTimers
    exact forSlots_induction hwoken htimer
  unfold beforeAlarms incrementCounters
  exact forSlots_induction (P := P) htimers fun k' _ hk' => hcounter k' _ hk'

theorem tick_induction (halarm : ∀ k a, P k → P (k.checkAndTrigger a)) : P k.tick := by
  have hbefore := beforeAlarms_induction h hwake htimer hcounter
  rw [tick_eq_checkAlarms]
  unfold checkAlarms
  exact forSlots_induction (P := P) hbefore halarm

end

theorem tables_beforeAlarms (k : Kernel) : k.beforeAlarms.tables =
    { k.tables with
      timerData := fun t => (Timer.tick id)^[(entries 32 k.timers).count t] (k.timerData t)
      counterData := fun c =>
        Counter.increment^[(entries 32 k.counters).count c] (k.counterData c) } := by
  have hwake := tables_wakeUps k
  have htimers := tables_updateTimers k.wakeUps
  have hcounters := tables_incrementCounters k.wakeUps.updateTimers
  have htables : ∀ k' : Kernel, k'.timers = k'.tables.timers ∧ k'.counters = k'.tables.counters :=
    fun _ => ⟨rfl, rfl⟩
  rw [(htables _).1, hwake] at htimers
  rw [(htables _).2, htimers, Tables.foldl_tickTimer] at hcounters
  unfold beforeAlarms
  rw [hcounters, Tables.foldl_incrementCounter]
  rfl

theorem alarms_beforeAlarms (k : Kernel) : k.beforeAlarms.alarms = k.alarms :=
  congrArg Tables.alarms (tables_beforeAlarms k)

theorem tables_tick (k : Kernel) : k.tick.tables = k.tables.tick := by
  have halarms := tables_checkAlarms k.beforeAlarms
  rw [alarms_beforeAlarms, tables_beforeAlarms, Tables.foldl_checkAlarm] at halarms
  rw [tick_eq_checkAlarms, halarms, Tables.tick_eq]
  rfl

/-! ## Registration -/

/-- A null pointer is stored like any other and then dereferenced. -/
def addTimer (k : Kernel) (timer : Option TimerPtr) : Kernel × Bool :=
  match find 32 k.timers none with
  | some i =>
    let k := { k with timers := Function.update k.timers i timer }
    match timer with
    | some t =>
      ({ k with timerData := Function.update k.timerData t (k.timerData t).allocate }, true)
    | none => (k.assert false, true)
  | none => (k, false)

def removeTimer (k : Kernel) (timer : Option TimerPtr) : Kernel :=
  match find 32 k.timers timer with
  | some i =>
    let k := match timer with
      | some t => { k with timerData := Function.update k.timerData t (k.timerData t).deallocate }
      | none => k.assert false
    { k with timers := Function.update k.timers i none }
  | none => k

def addCounter (k : Kernel) : Option CounterPtr → Kernel × Bool
  | some c =>
    ({ k with counters := SlotTable.insert 32 k.counters c }, (find 32 k.counters none).isSome)
  | none => (k, false)

def removeCounter (k : Kernel) : Option CounterPtr → Kernel
  | some c => { k with counters := erase 32 k.counters c }
  | none => k

def addAlarm (k : Kernel) : Option AlarmPtr → Kernel × Bool
  | some a => ({ k with alarms := SlotTable.insert 32 k.alarms a }, (find 32 k.alarms none).isSome)
  | none => (k, false)

def removeAlarm (k : Kernel) : Option AlarmPtr → Kernel
  | some a => { k with alarms := erase 32 k.alarms a }
  | none => k

inductive Table where
  | timers
  | counters
  | alarms
deriving DecidableEq, Repr

inductive TableObject where
  | timer (t : Timer)
  | counter (c : Counter)
  | alarm (a : Alarm)
deriving DecidableEq, Repr

def slots (k : Kernel) : Table → ℕ → Option ℕ
  | .timers => k.timers
  | .counters => k.counters
  | .alarms => k.alarms

def object (k : Kernel) : Table → ℕ → TableObject
  | .timers, t => .timer (k.timerData t)
  | .counters, c => .counter (k.counterData c)
  | .alarms, a => .alarm (k.alarmData a)

def add (k : Kernel) : Table → ℕ → Kernel × Bool
  | .timers, t => k.addTimer (some t)
  | .counters, c => k.addCounter (some c)
  | .alarms, a => k.addAlarm (some a)

def remove (k : Kernel) : Table → ℕ → Kernel
  | .timers, t => k.removeTimer (some t)
  | .counters, c => k.removeCounter (some c)
  | .alarms, a => k.removeAlarm (some a)

def InTable (k : Kernel) (table : Table) (x : ℕ) : Prop := ∃ i < 32, k.slots table i = some x

/-- The objects that the loop of a tick over the table visits, in order. -/
def tickVisits (k : Kernel) (table : Table) : List ℕ := entries 32 (k.slots table)

/-- What one visit in a tick makes of an object. -/
def advance (k : Kernel) : TableObject → TableObject
  | .timer t => .timer (t.tick id)
  | .counter c => .counter c.increment
  | .alarm a => .alarm (a.checked (k.tick.counterData a.counter))

theorem slots_add (k : Kernel) (table : Table) (x : ℕ) : (k.add table x).1.slots =
    Function.update k.slots table (SlotTable.insert 32 (k.slots table) x) := by
  funext table'
  by_cases heq : table' = table
  · subst heq
    rw [Function.update_self]
    cases table' with
    | timers =>
      unfold add addTimer SlotTable.insert
      dsimp only [slots]
      cases find 32 k.timers none <;> rfl
    | counters => rfl
    | alarms => rfl
  · rw [Function.update_of_ne heq]
    cases table with
    | timers =>
      unfold add addTimer
      cases find 32 k.timers none <;> cases table' <;> first | rfl | exact absurd rfl heq
    | counters => cases table' <;> first | rfl | exact absurd rfl heq
    | alarms => cases table' <;> first | rfl | exact absurd rfl heq

theorem add_snd {k : Kernel} {table : Table} {x : ℕ} (h : find 32 (k.slots table) none ≠ none) :
    (k.add table x).2 = true := by
  have hsome := Option.isSome_iff_ne_none.mpr h
  cases table with
  | timers =>
    unfold add addTimer
    obtain ⟨i, hi⟩ := Option.isSome_iff_exists.mp hsome
    have hfind : find 32 k.timers none = some i := hi
    rw [hfind]
  | counters => exact hsome
  | alarms => exact hsome

theorem slots_remove (k : Kernel) (table : Table) (x : ℕ) : (k.remove table x).slots =
    Function.update k.slots table (erase 32 (k.slots table) x) := by
  funext table'
  by_cases heq : table' = table
  · subst heq
    rw [Function.update_self]
    cases table' with
    | timers =>
      unfold remove removeTimer erase
      dsimp only [slots]
      cases find 32 k.timers (some x) <;> rfl
    | counters => rfl
    | alarms => rfl
  · rw [Function.update_of_ne heq]
    cases table with
    | timers =>
      unfold remove removeTimer
      dsimp only
      cases find 32 k.timers (some x) <;> cases table' <;> first | rfl | exact absurd rfl heq
    | counters => cases table' <;> first | rfl | exact absurd rfl heq
    | alarms => cases table' <;> first | rfl | exact absurd rfl heq

theorem timerData_tick (k : Kernel) (t : TimerPtr) :
    k.tick.timerData t = (Timer.tick id)^[(k.tickVisits .timers).count t] (k.timerData t) := by
  have htick := (tables_tick k).trans (Tables.tick_eq k.tables)
  exact congrFun (congrArg Tables.timerData htick) t

theorem object_tick (k : Kernel) (table : Table) (x : ℕ) :
    k.tick.object table x = k.advance^[(k.tickVisits table).count x] (k.object table x) := by
  have htick : k.tick.tables = _ := (tables_tick k).trans (Tables.tick_eq k.tables)
  have hcounters : k.tick.counterData = _ := congrArg Tables.counterData htick
  cases table with
  | timers =>
    have hconj : Function.Semiconj TableObject.timer (Timer.tick id) k.advance := fun _ => rfl
    exact (congrArg TableObject.timer (timerData_tick k x)).trans (hconj.iterate_right _ _)
  | counters =>
    have hdata := congrFun (congrArg Tables.counterData htick) x
    have hconj : Function.Semiconj TableObject.counter Counter.increment k.advance := fun _ => rfl
    exact (congrArg TableObject.counter hdata).trans (hconj.iterate_right _ _)
  | alarms =>
    have hdata := congrFun (congrArg Tables.alarmData htick) x
    have hconj : Function.Semiconj TableObject.alarm
        (fun a => a.checked (k.tick.counterData a.counter)) k.advance := fun _ => rfl
    rw [hcounters] at hconj
    exact (congrArg TableObject.alarm hdata).trans (hconj.iterate_right _ _)

theorem registered_iff {k : Kernel} {table : Table} {x : ℕ} :
    k.InTable table x ↔ x ∈ k.tickVisits table := mem_entries.symm

/-! ## Sequences of registrations -/

/-- `other` is anything else that the program does; it leaves the tables alone. -/
inductive Registration where
  | add (table : Table) (x : ℕ)
  | remove (table : Table) (x : ℕ)
  | other (k : Kernel)

def registering : Machine Kernel Registration where
  guard
    | .other k', k => k'.slots = k.slots
    | _, _ => True
  apply
    | .add table x, k => (k.add table x).1
    | .remove table x, k => k.remove table x
    | .other k', _ => k'

/-- The objects that have been removed and not added again. A call that finds the table full
adds nothing. -/
def removals : Registration → Kernel → Kernel → (Table → ℕ → Prop) → Table → ℕ → Prop
  | .add table x, k, _, removed => fun t y =>
    removed t y ∧ ¬ (t = table ∧ y = x ∧ (k.add table x).2 = true)
  | .remove table x, _, _, removed => fun t y => removed t y ∨ (t = table ∧ y = x)
  | .other _, _, _, removed => removed

/-- The kernel after a sequence of registrations, and the objects removed by then. -/
def registered (k : Kernel) (es : List Registration) : Kernel × (Table → ℕ → Prop) :=
  (registering.withHistory removals).exec (k, fun _ _ => False) es

/-- What is added is not in the table yet, or the table is full. -/
def AddsNew : Registration → Kernel → Prop
  | .add table x, k => ¬ k.InTable table x ∨ ∀ i < 32, k.slots table i ≠ none
  | _, _ => True

/-- Every object is in one slot at most. A tick visits and advances a registered object once,
and it leaves a removed object alone. -/
structure Orderly (s : Kernel × (Table → ℕ → Prop)) : Prop where
  single : ∀ table, Single 32 (s.1.slots table)
  visits : ∀ table x, s.1.InTable table x → (s.1.tickVisits table).count x = 1
  advances : ∀ table x, s.1.InTable table x →
    s.1.tick.object table x = s.1.advance (s.1.object table x)
  absent : ∀ table x, s.2 table x → ¬ s.1.InTable table x
  untouched : ∀ table x, s.2 table x →
    x ∉ s.1.tickVisits table ∧ s.1.tick.object table x = s.1.object table x

theorem orderly_iff {s : Kernel × (Table → ℕ → Prop)} : Orderly s ↔
    (∀ table, Single 32 (s.1.slots table)) ∧ ∀ table x, s.2 table x → ¬ s.1.InTable table x := by
  constructor
  · intro h
    exact ⟨h.single, h.absent⟩
  · rintro ⟨hsingle, habsent⟩
    have hcount : ∀ table x, s.1.InTable table x → (s.1.tickVisits table).count x = 1 := by
      intro table x hx
      exact (count_of_single (hsingle table) x).trans (if_pos (registered_iff.mp hx))
    have hzero : ∀ table x, s.2 table x → x ∉ s.1.tickVisits table := by
      intro table x hx hmem
      exact habsent table x hx (registered_iff.mpr hmem)
    constructor
    · exact hsingle
    · exact hcount
    · intro table x hx
      rw [object_tick, hcount table x hx, Function.iterate_one]
    · exact habsent
    · intro table x hx
      have hmem := hzero table x hx
      refine ⟨hmem, ?_⟩
      rw [object_tick, List.count_eq_zero_of_not_mem hmem, Function.iterate_zero_apply]

theorem single_add {k : Kernel} {table : Table} {x : ℕ} (h : ∀ table, Single 32 (k.slots table)) :
    (∀ t, Single 32 ((k.add table x).1.slots t)) ↔ AddsNew (.add table x) k := by
  have hinsert := single_insert (h table) (x := x)
  rw [find_eq_none] at hinsert
  have hnew : AddsNew (.add table x) k ↔
      x ∉ entries 32 (k.slots table) ∨ ∀ i < 32, k.slots table i ≠ none :=
    or_congr_left (not_congr registered_iff)
  rw [hnew, ← hinsert, slots_add]
  constructor
  · intro hall
    have htable := hall table
    rwa [Function.update_self] at htable
  · intro hone t
    by_cases ht : t = table
    · rw [ht, Function.update_self]
      exact hone
    · rw [Function.update_of_ne ht]
      exact h t

theorem single_remove {k : Kernel} {table : Table} {x : ℕ}
    (h : ∀ table, Single 32 (k.slots table)) : ∀ t, Single 32 ((k.remove table x).slots t) := by
  intro t
  rw [slots_remove]
  by_cases ht : t = table
  · rw [ht, Function.update_self]
    exact (single_erase (h table)).1
  · rw [Function.update_of_ne ht]
    exact h t

theorem InTable.of_add {k : Kernel} {table t : Table} {x y : ℕ}
    (h : (k.add table x).1.InTable t y) :
    (t = table ∧ y = x ∧ (k.add table x).2 = true) ∨ k.InTable t y := by
  rw [registered_iff, tickVisits, slots_add] at h
  by_cases ht : t = table
  · subst ht
    rw [Function.update_self] at h
    rcases mem_insert h with ⟨hy, hfree⟩ | hold
    · exact .inl ⟨rfl, hy, add_snd hfree⟩
    · exact .inr (registered_iff.mpr hold)
  · rw [Function.update_of_ne ht] at h
    exact .inr (registered_iff.mpr h)

theorem InTable.of_remove {k : Kernel} {table t : Table} {x y : ℕ}
    (hs : ∀ table, Single 32 (k.slots table)) (h : (k.remove table x).InTable t y) :
    ¬ (t = table ∧ y = x) ∧ k.InTable t y := by
  rw [registered_iff, tickVisits, slots_remove] at h
  by_cases ht : t = table
  · subst ht
    rw [Function.update_self] at h
    refine ⟨?_, registered_iff.mpr (mem_erase h)⟩
    rintro ⟨-, rfl⟩
    exact (single_erase (hs t)).2 h
  · rw [Function.update_of_ne ht] at h
    exact ⟨fun hty => ht hty.1, registered_iff.mpr h⟩

theorem Orderly.apply_iff {s : Kernel × (Table → ℕ → Prop)} (h : Orderly s) {e : Registration}
    (hg : registering.guard e s.1) :
    Orderly ((registering.withHistory removals).apply e s) ↔ AddsNew e s.1 := by
  obtain ⟨k, removed⟩ := s
  rw [orderly_iff] at h ⊢
  obtain ⟨hsingle, habsent⟩ := h
  cases e with
  | add table x =>
    rw [← single_add hsingle]
    refine and_iff_left ?_
    rintro t y ⟨hy, hne⟩ hreg
    exact (hreg.of_add).elim hne (habsent t y hy)
  | remove table x =>
    refine iff_of_true ⟨single_remove hsingle, ?_⟩ trivial
    rintro t y hor hreg
    obtain ⟨hne, hold⟩ := InTable.of_remove hsingle hreg
    exact hor.elim (fun hy => habsent t y hy hold) hne
  | other k' =>
    have hslots : k'.slots = k.slots := hg
    refine iff_of_true ?_ trivial
    constructor
    · intro table
      show Single 32 (k'.slots table)
      rw [hslots]
      exact hsingle table
    · intro table x hx hreg
      have hold : k.InTable table x := by
        unfold InTable at hreg ⊢
        rwa [← hslots]
      exact habsent table x hx hold

/-- The tables hold every object once exactly if nothing is added that they hold already. -/
theorem orderly_iff_adds_new {k : Kernel} (hempty : ∀ table, ∀ i < 32, k.slots table i = none)
    {es : List Registration} (hes : registering.Valid k es) :
    (∀ fs, fs <+: es → Orderly (registered k fs)) ↔
      (registering.restrict AddsNew).Valid k es := by
  have hstart : Orderly (k, fun _ _ => False) := by
    rw [orderly_iff]
    refine ⟨?_, fun _ _ hf => hf.elim⟩
    intro table i hi j hj x hx
    rw [hempty table i hi] at hx
    cases hx
  have hvalid := (Machine.valid_withHistory registering removals (k, fun _ _ => False) es).mpr hes
  have hall : (∀ fs, fs <+: es → Orderly (registered k fs)) ↔
      ((registering.withHistory removals).restrict fun e s => AddsNew e s.1).Valid
        (k, fun _ _ => False) es :=
    Machine.forall_prefix_iff (I := fun _ => True) (fun _ _ _ _ _ _ => trivial)
      (fun e s _ hs hg => hs.apply_iff hg) trivial hstart hvalid
  exact hall.trans
    (Machine.valid_withHistory (registering.restrict AddsNew) removals (k, fun _ _ => False) es)

def sampleTables : Kernel where
  currentTask := 0
  idleTask := 0
  taskData := fun _ => {}
  timerData := fun _ => (Timer.new none 10 false 0).start

theorem sampleTables_empty (table : Table) (i : ℕ) : sampleTables.slots table i = none := by
  cases table <;> rfl

/-- Added, removed and added again, a timer is in one slot. -/
theorem orderly_added_again :
    Orderly (registered sampleTables [.add .timers 7, .remove .timers 7, .add .timers 7]) := by
  have hvalid : registering.Valid sampleTables
      [.add .timers 7, .remove .timers 7, .add .timers 7] := ⟨trivial, trivial, trivial, trivial⟩
  have hnew : (registering.restrict AddsNew).Valid sampleTables
      [.add .timers 7, .remove .timers 7, .add .timers 7] := by
    refine ⟨⟨trivial, .inl ?_⟩, ⟨trivial, trivial⟩, ⟨trivial, .inl ?_⟩, trivial⟩ <;>
      rw [registered_iff] <;> decide
  exact (orderly_iff_adds_new (fun table i _ => sampleTables_empty table i) hvalid).mpr hnew _
    List.prefix_rfl

/-- A timer that is added twice is ticked twice, and it is still ticked after a removal. -/
theorem added_twice :
    let k := (registered sampleTables [.add .timers 7, .add .timers 7]).1
    (k.tick.timerData 7).remainingTicks = 8 ∧ (k.remove .timers 7).InTable .timers 7 ∧
      ¬ Orderly (registered sampleTables [.add .timers 7, .add .timers 7]) := by
  intro k
  have hcount : (k.tickVisits .timers).count 7 = 2 := by decide
  refine ⟨?_, ?_, ?_⟩
  · rw [timerData_tick, hcount]
    decide
  · rw [registered_iff]
    decide
  · intro h
    have hone := h.visits .timers 7 (registered_iff.mpr (by decide))
    exact absurd (hcount.symm.trans hone) (by decide)

end Kernel

end CppRtos
