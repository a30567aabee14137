import CppRtos.Kernel.TableCalls
import CppRtos.Kernel.Timers

/-! Groups of timers, counters and alarms, and what a kernel does that is not about a group. -/
namespace CppRtos

/-- Some timers, counters and alarms, and some addresses of callbacks. -/
structure TableGroup where
  timers : Finset TimerPtr
  counters : Finset CounterPtr
  alarms : Finset AlarmPtr
  callbacks : Finset ℕ

namespace TableGroup
open Kernel

def members (G : TableGroup) : Table → Finset ℕ
  | .timers => G.timers
  | .counters => G.counters
  | .alarms => G.alarms

/-- The alarms of the group use its counters, and nothing else uses its callbacks. -/
structure Separate (G : TableGroup) (k : Kernel) : Prop where
  counters : ∀ a ∈ G.alarms, (k.alarmData a).counter ∈ G.counters
  timers : ∀ t, ∀ c ∈ G.callbacks, (k.timerData t).callback = some c → t ∈ G.timers
  alarms : ∀ a, ∀ c ∈ G.callbacks, (k.alarmData a).callback = some c → a ∈ G.alarms

/-- The objects of the group are in the same slots and in the same states, and their callbacks
have been called with the same arguments in the same order. -/
structure Same (G : TableGroup) (k k' : Kernel) : Prop where
  slots : ∀ table i, ∀ x ∈ G.members table, k.slots table i = some x ↔ k'.slots table i = some x
  timerData : ∀ t ∈ G.timers, k.timerData t = k'.timerData t
  counterData : ∀ c ∈ G.counters, k.counterData c = k'.counterData c
  alarmData : ∀ a ∈ G.alarms, k.alarmData a = k'.alarmData a
  callbacks : k.callbacks.filter (·.1 ∈ G.callbacks) = k'.callbacks.filter (·.1 ∈ G.callbacks)

/-- Something has happened that is not about the group. No object changes its callback or its
counter. -/
structure Unnoticed (G : TableGroup) (k k' : Kernel) : Prop where
  same : G.Same k' k
  timers : ∀ t, (k'.timerData t).callback = (k.timerData t).callback
  alarms : ∀ a, (k'.alarmData a).callback = (k.alarmData a).callback
  counters : ∀ a, (k'.alarmData a).counter = (k.alarmData a).counter

/-- Two kernels that are the same to the group. -/
structure Alike (G : TableGroup) (k k' : Kernel) : Prop where
  same : G.Same k k'
  left : G.Separate k
  right : G.Separate k'

variable {G : TableGroup} {k k' l : Kernel}

theorem Same.symm (h : G.Same k k') : G.Same k' k where
  slots := fun table i x hx => (h.slots table i x hx).symm
  timerData := fun t ht => (h.timerData t ht).symm
  counterData := fun c hc => (h.counterData c hc).symm
  alarmData := fun a ha => (h.alarmData a ha).symm
  callbacks := h.callbacks.symm

theorem Same.trans (h : G.Same k k') (h' : G.Same k' l) : G.Same k l where
  slots := fun table i x hx => (h.slots table i x hx).trans (h'.slots table i x hx)
  timerData := fun t ht => (h.timerData t ht).trans (h'.timerData t ht)
  counterData := fun c hc => (h.counterData c hc).trans (h'.counterData c hc)
  alarmData := fun a ha => (h.alarmData a ha).trans (h'.alarmData a ha)
  callbacks := h.callbacks.trans h'.callbacks

theorem Alike.symm (h : G.Alike k k') : G.Alike k' k := ⟨h.same.symm, h.right, h.left⟩

theorem Separate.congr (h : G.Separate k)
    (ht : ∀ t, (k'.timerData t).callback = (k.timerData t).callback)
    (ha : ∀ a, (k'.alarmData a).callback = (k.alarmData a).callback)
    (hc : ∀ a, (k'.alarmData a).counter = (k.alarmData a).counter) : G.Separate k' := by
  constructor
  · intro a
    rw [hc a]
    exact h.counters a
  · intro t
    rw [ht t]
    exact h.timers t
  · intro a
    rw [ha a]
    exact h.alarms a

theorem Alike.unnoticed (h : G.Alike k k') (hl : G.Unnoticed k l) : G.Alike l k' :=
  ⟨hl.same.trans h.same, h.left.congr hl.timers hl.alarms hl.counters, h.right⟩

/-! ## What the group does not notice -/

theorem unnoticed_of_tables (h : l.tables = k.tables ∧ l.callbacks = k.callbacks) :
    G.Unnoticed k l := by
  obtain ⟨htables, hcallbacks⟩ := h
  have htimers : l.timerData = k.timerData := congrArg Tables.timerData htables
  have hcounters : l.counterData = k.counterData := congrArg Tables.counterData htables
  have halarms : l.alarmData = k.alarmData := congrArg Tables.alarmData htables
  have hslots (table : Table) : l.slots table = k.slots table := by
    cases table with
    | timers => exact congrArg Tables.timers htables
    | counters => exact congrArg Tables.counters htables
    | alarms => exact congrArg Tables.alarms htables
  constructor
  · constructor
    · intro table i x _
      rw [hslots]
    · exact fun t _ => congrFun htimers t
    · exact fun c _ => congrFun hcounters c
    · exact fun a _ => congrFun halarms a
    · rw [hcallbacks]
  · exact fun t => congrArg Timer.callback (congrFun htimers t)
  · exact fun a => congrArg Alarm.callback (congrFun halarms a)
  · exact fun a => congrArg Alarm.counter (congrFun halarms a)

theorem update_congr {α : Type*} {d d' : ℕ → α} {S : Finset ℕ} (h : ∀ x ∈ S, d x = d' x) {y : ℕ}
    (hy : y ∈ S) (f : α → α) : ∀ x ∈ S,
      Function.update d y (f (d y)) x = Function.update d' y (f (d' y)) x := by
  intro x hx
  rcases eq_or_ne x y with rfl | hne
  · rw [Function.update_self, Function.update_self, h x hx]
  · rw [Function.update_of_ne hne, Function.update_of_ne hne]
    exact h x hx

/-- A change that the calls on timers and alarms may make. -/
def KeepsCallback (f : Timer → Timer) : Prop := ∀ x, (f x).callback = x.callback

def KeepsWiring (f : Alarm → Alarm) : Prop :=
  ∀ x, (f x).callback = x.callback ∧ (f x).counter = x.counter

theorem unnoticed_modifyTimer {u : TimerPtr} (hu : u ∉ G.timers) {f : Timer → Timer}
    (hf : KeepsCallback f) : G.Unnoticed k (k.modifyTimer u f) where
  same :=
    { slots := fun _ _ _ _ => Iff.rfl
      timerData := fun _ ht => Function.update_of_ne (ne_of_mem_of_not_mem ht hu) _ _
      counterData := fun _ _ => rfl
      alarmData := fun _ _ => rfl
      callbacks := rfl }
  timers := keeps_update Timer.callback k.timerData (hf _)
  alarms := fun _ => rfl
  counters := fun _ => rfl

theorem unnoticed_modifyAlarm {b : AlarmPtr} (hb : b ∉ G.alarms) {f : Alarm → Alarm}
    (hf : KeepsWiring f) : G.Unnoticed k (k.modifyAlarm b f) where
  same :=
    { slots := fun _ _ _ _ => Iff.rfl
      timerData := fun _ _ => rfl
      counterData := fun _ _ => rfl
      alarmData := fun _ ha => Function.update_of_ne (ne_of_mem_of_not_mem ha hb) _ _
      callbacks := rfl }
  timers := fun _ => rfl
  alarms := keeps_update Alarm.callback k.alarmData (hf _).1
  counters := keeps_update Alarm.counter k.alarmData (hf _).2

theorem unnoticed_modifyCounter {d : CounterPtr} (hd : d ∉ G.counters) (f : Counter → Counter) :
    G.Unnoticed k (k.modifyCounter d f) where
  same :=
    { slots := fun _ _ _ _ => Iff.rfl
      timerData := fun _ _ => rfl
      counterData := fun _ hc => Function.update_of_ne (ne_of_mem_of_not_mem hc hd) _ _
      alarmData := fun _ _ => rfl
      callbacks := rfl }
  timers := fun _ => rfl
  alarms := fun _ => rfl
  counters := fun _ => rfl

theorem unnoticed_invokeCallback {c : ℕ} (hc : c ∉ G.callbacks) (arg : ℕ) :
    G.Unnoticed k (k.invokeCallback c arg) where
  same :=
    { slots := fun _ _ _ _ => Iff.rfl
      timerData := fun _ _ => rfl
      counterData := fun _ _ => rfl
      alarmData := fun _ _ => rfl
      callbacks := List.filter_cons_of_neg (by simpa using hc) }
  timers := fun _ => rfl
  alarms := fun _ => rfl
  counters := fun _ => rfl

/-- Registrations change slots, and in the data no more than the flag of a timer. -/
theorem unnoticed_slots {table : Table} {slots : ℕ → Option ℕ}
    (hslots : l.slots = Function.update k.slots table slots)
    (hother : ∀ i, ∀ x ∈ G.members table, slots i = some x ↔ k.slots table i = some x)
    (hsame : ∀ t ∈ G.timers, l.timerData t = k.timerData t)
    (htimers : ∀ t, (l.timerData t).callback = (k.timerData t).callback)
    (hcounters : l.counterData = k.counterData) (halarms : l.alarmData = k.alarmData)
    (hcallbacks : l.callbacks = k.callbacks) : G.Unnoticed k l := by
  constructor
  · constructor
    · intro table' i x hx
      rw [hslots]
      rcases eq_or_ne table' table with rfl | hne
      · rw [Function.update_self]
        exact hother i x hx
      · rw [Function.update_of_ne hne]
    · exact hsame
    · exact fun c _ => congrFun hcounters c
    · exact fun a _ => congrFun halarms a
    · rw [hcallbacks]
  · exact htimers
  · exact fun a => congrArg Alarm.callback (congrFun halarms a)
  · exact fun a => congrArg Alarm.counter (congrFun halarms a)

theorem unnoticed_add {table : Table} {x : ℕ} (hx : x ∉ G.members table) :
    G.Unnoticed k (k.add table x).1 := by
  obtain ⟨htables, hcounters, halarms⟩ := add_eq k table x
  have hother : ∀ i, ∀ y ∈ G.members table,
      SlotTable.insert 32 (k.slots table) x i = some y ↔ k.slots table i = some y :=
    fun i y hy => SlotTable.insert_eq_some_iff (ne_of_mem_of_not_mem hy hx).symm
  have hcallbacks : (k.add table x).1.callbacks = k.callbacks := by
    rw [htables]
    rfl
  refine unnoticed_slots (slots_add k table x) hother ?_ ?_ hcounters halarms hcallbacks
  · intro t ht
    cases table with
    | timers => exact timerData_add (ne_of_mem_of_not_mem ht hx).symm
    | counters | alarms => rfl
  · intro t
    cases table with
    | timers =>
      by_cases hfind : SlotTable.find 32 k.timers none = none
      · rw [addTimer_of_full hfind]
      · rw [timerData_addTimer hfind]
        exact keeps_update Timer.callback k.timerData (u := x) (x := (k.timerData x).allocate) rfl t
    | counters | alarms => rfl

theorem unnoticed_remove {table : Table} {x : ℕ} (hx : x ∉ G.members table) :
    G.Unnoticed k (k.remove table x) := by
  obtain ⟨htables, hcounters, halarms⟩ := remove_eq k table x
  have hother : ∀ i, ∀ y ∈ G.members table,
      SlotTable.erase 32 (k.slots table) x i = some y ↔ k.slots table i = some y :=
    fun i y hy => SlotTable.erase_eq_some_iff (ne_of_mem_of_not_mem hy hx).symm
  have hcallbacks : (k.remove table x).callbacks = k.callbacks := by
    rw [htables]
    rfl
  refine unnoticed_slots (slots_remove k table x) hother ?_ ?_ hcounters halarms hcallbacks
  · intro t ht
    cases table with
    | timers => exact timerData_remove (ne_of_mem_of_not_mem ht hx).symm
    | counters | alarms => rfl
  · intro t
    cases table with
    | timers =>
      by_cases hin : x ∈ SlotTable.entries 32 k.timers
      · rw [timerData_removeTimer hin]
        exact keeps_update Timer.callback k.timerData (u := x) (x := (k.timerData x).deallocate)
          rfl t
      · rw [removeTimer_of_not_mem hin]
    | counters | alarms => rfl

end TableGroup

/-- The call is not about an object of the group. -/
def TableCall.Spares (G : TableGroup) : TableCall → Prop
  | .timer t _ => t ∉ G.timers
  | .add table x | .remove table x => x ∉ G.members table
  | .setCounterValue c _ => c ∉ G.counters
  | .startAlarm a | .stopAlarm a => a ∉ G.alarms

theorem Timer.callback_run (t : Timer) (c : Command) : (c.run t).callback = t.callback := by
  cases c with
  | setPeriod n => exact (apply_ite Timer.callback _ _ _).trans (ite_self _)
  | start | stop | reset => rfl

theorem Timer.callback_countdown (t : Timer) : t.countdown.callback = t.callback := by
  obtain ⟨n, hn⟩ := t.countdown_eq
  rw [hn]

theorem Timer.callback_reload (t : Timer) : t.reload.callback = t.callback :=
  (apply_ite Timer.callback _ _ _).trans (ite_self _)

/-- The kernel with the objects of the group in its tables, and no others. -/
def Kernel.only (G : TableGroup) (k : Kernel) : Kernel :=
  { k with
    timers := fun i => (k.timers i).filter (· ∈ G.timers)
    counters := fun i => (k.counters i).filter (· ∈ G.counters)
    alarms := fun i => (k.alarms i).filter (· ∈ G.alarms) }

namespace TableGroup
open Kernel
variable {G : TableGroup} {k k' : Kernel}

theorem unnoticed_tableCall {c : TableCall} (hc : c.Spares G) : G.Unnoticed k (k.tableCall c) := by
  cases c with
  | timer t c => exact unnoticed_modifyTimer hc (Timer.callback_run · c)
  | add table x => exact unnoticed_add hc
  | remove table x => exact unnoticed_remove hc
  | setCounterValue c value => exact unnoticed_modifyCounter hc (·.setCounterValue value)
  | startAlarm a =>
    exact unnoticed_modifyAlarm hc (f := (·.start (k.counterData (k.alarmData a).counter)))
      fun _ => ⟨rfl, rfl⟩
  | stopAlarm a => exact unnoticed_modifyAlarm hc (f := Alarm.stop) fun _ => ⟨rfl, rfl⟩

theorem unnoticed_activate (k : Kernel) (task : TaskPtr) : G.Unnoticed k (k.activate task) := by
  have hactivate (T : Tables × List (ℕ × ℕ)) (k : Kernel) :
      (k.activate task).withTables T = (k.withTables T).activate task :=
    map_ite (withTables T) Iff.rfl (withTables_taskYield T (k.setState task .eReady)) rfl
  exact unnoticed_of_tables (tables_of_withTables (g := (·.activate task)) k hactivate)

theorem keepsWiring_rearm (c : Counter) : KeepsWiring (·.rearm c) := fun a =>
  ⟨congrArg (fun s => s.2.1) (a.setup_rearm c), congrArg Prod.fst (a.setup_rearm c)⟩

/-! ## What happens to the group in both kernels -/

namespace Alike
variable (h : G.Alike k k')
include h

theorem modifyTimer {t : TimerPtr} (ht : t ∈ G.timers) {f : Timer → Timer} (hf : KeepsCallback f) :
    G.Alike (k.modifyTimer t f) (k'.modifyTimer t f) where
  same :=
    { slots := h.same.slots
      timerData := update_congr h.same.timerData ht f
      counterData := h.same.counterData
      alarmData := h.same.alarmData
      callbacks := h.same.callbacks }
  left := h.left.congr (keeps_update Timer.callback k.timerData (hf _)) (fun _ => rfl) fun _ => rfl
  right :=
    h.right.congr (keeps_update Timer.callback k'.timerData (hf _)) (fun _ => rfl) fun _ => rfl

theorem modifyAlarm {a : AlarmPtr} (ha : a ∈ G.alarms) {f : Alarm → Alarm} (hf : KeepsWiring f) :
    G.Alike (k.modifyAlarm a f) (k'.modifyAlarm a f) where
  same :=
    { slots := h.same.slots
      timerData := h.same.timerData
      counterData := h.same.counterData
      alarmData := update_congr h.same.alarmData ha f
      callbacks := h.same.callbacks }
  left := h.left.congr (fun _ => rfl) (keeps_update Alarm.callback k.alarmData (hf _).1)
    (keeps_update Alarm.counter k.alarmData (hf _).2)
  right := h.right.congr (fun _ => rfl) (keeps_update Alarm.callback k'.alarmData (hf _).1)
    (keeps_update Alarm.counter k'.alarmData (hf _).2)

theorem modifyCounter {c : CounterPtr} (hc : c ∈ G.counters) (f : Counter → Counter) :
    G.Alike (k.modifyCounter c f) (k'.modifyCounter c f) where
  same :=
    { slots := h.same.slots
      timerData := h.same.timerData
      counterData := update_congr h.same.counterData hc f
      alarmData := h.same.alarmData
      callbacks := h.same.callbacks }
  left := h.left.congr (fun _ => rfl) (fun _ => rfl) fun _ => rfl
  right := h.right.congr (fun _ => rfl) (fun _ => rfl) fun _ => rfl

theorem invokeCallback (c arg : ℕ) :
    G.Alike (k.invokeCallback c arg) (k'.invokeCallback c arg) where
  same :=
    { slots := h.same.slots
      timerData := h.same.timerData
      counterData := h.same.counterData
      alarmData := h.same.alarmData
      callbacks := by
        unfold Kernel.invokeCallback
        rw [List.filter_cons, List.filter_cons, h.same.callbacks] }
  left := h.left.congr (fun _ => rfl) (fun _ => rfl) fun _ => rfl
  right := h.right.congr (fun _ => rfl) (fun _ => rfl) fun _ => rfl

end Alike

theorem alike_only (h : G.Separate k) : G.Alike k (k.only G) where
  same :=
    { slots := by
        intro table i x hx
        have hfilter (o : Option ℕ) : o = some x ↔ o.filter (· ∈ G.members table) = some x := by
          rw [Option.filter_eq_some_iff, decide_eq_true_eq, and_iff_left hx]
        cases table <;> exact hfilter _
      timerData := fun _ _ => rfl
      counterData := fun _ _ => rfl
      alarmData := fun _ _ => rfl
      callbacks := rfl }
  left := h
  right := h.congr (fun _ => rfl) (fun _ => rfl) fun _ => rfl

end TableGroup

end CppRtos
