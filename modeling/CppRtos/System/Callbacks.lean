import CppRtos.Kernel.TableCalls
import CppRtos.System.Assertions
import CppRtos.System.Independence

/-! Ticks whose callbacks call the kernel. A callback runs inside the loops of the tick, where it
may use semaphores and event groups as an interrupt handler does, and may change the tables that
these loops are reading. The system has the same runs if such a tick is a tick without callbacks,
followed by one interrupt for each of their calls. -/
namespace CppRtos

inductive CallbackCall where
  | isr (c : IsrCall)
  | table (c : TableCall)
deriving DecidableEq, Repr

/-- The calls that the callback at an address makes when it is invoked with an argument, in
order. They may depend on everything. -/
abbrev Callbacks := ℕ → ℕ → Objects → List CallbackCall

/-- The objects in the course of a tick, and the calls that callbacks have made on semaphores and
event groups since its start. -/
structure TickState where
  objects : Objects
  made : List IsrCall := []

namespace TickState

def onKernel (g : Kernel → Kernel) (w : TickState) : TickState :=
  { w with objects := w.objects.onKernel g }

def call (w : TickState) : CallbackCall → TickState
  | .isr c => ⟨w.objects.isr c, w.made ++ [c]⟩
  | .table c => w.onKernel (·.tableCall c)

def invoke (cb : Callbacks) (w : TickState) (callback arg : ℕ) : TickState :=
  (cb callback arg w.objects).foldl call (w.onKernel (·.invokeCallback callback arg))

/-- `Timer::tick`. The callback may call the timer that is ticking. -/
def tickTimer (cb : Callbacks) (w : TickState) (t : TimerPtr) : TickState :=
  let timer := w.objects.kernel.timerData t
  if timer.running then
    let w := w.onKernel (·.modifyTimer t Timer.countdown)
    if timer.countdown.remainingTicks = 0 then
      let w := timer.callback.elim w (w.invoke cb · timer.arg)
      w.onKernel (·.modifyTimer t Timer.reload)
    else w
  else w

/-- `Alarm::CheckAndTrigger`. -/
def checkAndTrigger (cb : Callbacks) (w : TickState) (a : AlarmPtr) : TickState :=
  let alarm := w.objects.kernel.alarmData a
  let counter := w.objects.kernel.counterData alarm.counter
  if alarm.expired counter then
    let w := w.onKernel (·.modifyAlarm a (·.rearm counter))
    match alarm.taskToActivate with
    | some task => w.onKernel (·.activate task)
    | none => alarm.callback.elim (w.onKernel (·.assert false)) (w.invoke cb · alarm.callbackArg)
  else w

/-- Apply `f` to the objects of a table. The loop reads a slot only when it comes to it. -/
def forSlots (slots : Kernel → ℕ → Option ℕ) (f : TickState → ℕ → TickState) (w : TickState) :
    TickState :=
  (List.range 32).foldl (fun w i => (slots w.objects.kernel i).elim w (f w)) w

/-- `Kernel::tick`. -/
def tick (cb : Callbacks) (w : TickState) : TickState :=
  let w := w.onKernel Kernel.wakeUps
  let w := w.forSlots Kernel.timers (tickTimer cb)
  let w := w.onKernel Kernel.incrementCounters
  w.forSlots Kernel.alarms (checkAndTrigger cb)

end TickState

/-- `SysTick_Handler`. -/
def Objects.sysTick (cb : Callbacks) (o : Objects) : TickState :=
  (TickState.tick cb ⟨o.onKernel Kernel.enterTick, []⟩).onKernel Kernel.leaveTick

/-! ## Callbacks that call nothing -/

namespace TickState
open Kernel

theorem forSlots_onKernel {slots : Kernel → ℕ → Option ℕ} {f : TickState → ℕ → TickState}
    {h : Kernel → ℕ → Kernel} (hf : ∀ w x, f w x = w.onKernel (h · x))
    (hs : ∀ k x, slots (h k x) = slots k) (w : TickState) :
    w.forSlots slots f = w.onKernel (Kernel.forSlots (slots w.objects.kernel) h) := by
  unfold forSlots Kernel.forSlots
  induction List.range 32 generalizing w with
  | nil => rfl
  | cons i is ih =>
    rw [List.foldl_cons, ih]
    cases hi : slots w.objects.kernel i with
    | none => simp only [Option.elim_none, onKernel, Objects.onKernel, List.foldl_cons, hi]
    | some x =>
      have hslots : slots (f w x).objects.kernel = slots w.objects.kernel := by
        rw [hf]
        exact hs _ x
      rw [Option.elim_some, hslots, hf]
      simp only [onKernel, Objects.onKernel, List.foldl_cons, hi, Option.elim_some]

def silent : Callbacks := fun _ _ _ => []

theorem onKernel_onKernel (g h : Kernel → Kernel) (w : TickState) :
    (w.onKernel g).onKernel h = w.onKernel fun k => h (g k) := rfl

theorem onKernel_const (g : Kernel → Kernel) (w : TickState) :
    w.onKernel g = w.onKernel fun _ => g w.objects.kernel := rfl

theorem tickTimer_silent (w : TickState) (t : TimerPtr) :
    w.tickTimer silent t = w.onKernel (·.tickTimer t) := by
  rw [onKernel_const, Kernel.tickTimer_eq]
  unfold tickTimer
  dsimp only
  split_ifs
  · cases (w.objects.kernel.timerData t).callback with
    | none => exact onKernel_const (fun k => (k.modifyTimer t _).modifyTimer t _) w
    | some c =>
      exact onKernel_const (fun k => ((k.modifyTimer t _).invokeCallback c _).modifyTimer t _) w
  · rfl
  · rfl

theorem checkAndTrigger_silent (w : TickState) (a : AlarmPtr) :
    w.checkAndTrigger silent a = w.onKernel (·.checkAndTrigger a) := by
  rw [onKernel_const, Kernel.checkAndTrigger_eq]
  unfold checkAndTrigger
  dsimp only
  split_ifs
  · cases (w.objects.kernel.alarmData a).taskToActivate with
    | none => cases (w.objects.kernel.alarmData a).callback <;> rfl
    | some t => rfl
  · rfl

theorem tick_silent (w : TickState) : w.tick silent = w.onKernel Kernel.tick := by
  have htimers (w : TickState) :
      w.forSlots Kernel.timers (tickTimer silent) = w.onKernel Kernel.updateTimers := by
    have hslots (k : Kernel) (t : TimerPtr) := congrArg Tables.timers (Kernel.tables_tickTimer k t)
    rw [forSlots_onKernel tickTimer_silent hslots, onKernel_const, onKernel_const updateTimers,
      updateTimers]
  have halarms (w : TickState) :
      w.forSlots Kernel.alarms (checkAndTrigger silent) = w.onKernel Kernel.checkAlarms := by
    have hslots (k : Kernel) (a : AlarmPtr) :=
      congrArg Tables.alarms (Kernel.tables_checkAndTrigger k a)
    rw [forSlots_onKernel checkAndTrigger_silent hslots, onKernel_const,
      onKernel_const checkAlarms, checkAlarms]
  unfold tick
  dsimp only
  rw [htimers, halarms, onKernel_onKernel, onKernel_onKernel, onKernel_onKernel, onKernel_const,
    onKernel_const Kernel.tick, tick_eq_checkAlarms, beforeAlarms]

end TickState

theorem Objects.sysTick_silent (o : Objects) :
    (o.sysTick TickState.silent).objects = o.onKernel Kernel.sysTickHandler := by
  unfold sysTick
  rw [TickState.tick_silent]
  rfl

/-! ## Callbacks that call semaphores, event groups and the tables -/

/-- No alarm activates a task, every alarm has a callback. -/
def Kernel.CallbackAlarms (k : Kernel) : Prop :=
  ∀ a, (k.alarmData a).taskToActivate = none ∧ (k.alarmData a).callback.isSome = true

namespace Kernel
variable {k : Kernel}

theorem CallbackAlarms.of_alarmData {k' : Kernel} (h : k.CallbackAlarms)
    (hdata : k'.alarmData = k.alarmData) : k'.CallbackAlarms := by
  unfold CallbackAlarms
  rwa [hdata]

theorem CallbackAlarms.of_tables {k' : Kernel} (h : k.CallbackAlarms)
    (ht : k'.tables = k.tables) : k'.CallbackAlarms := h.of_alarmData (congrArg Tables.alarmData ht)

theorem CallbackAlarms.modifyAlarm (h : k.CallbackAlarms) (a : AlarmPtr) {f : Alarm → Alarm}
    (ht : ∀ x, (f x).taskToActivate = x.taskToActivate) (hc : ∀ x, (f x).callback = x.callback) :
    (k.modifyAlarm a f).CallbackAlarms := by
  intro b
  have htask := keeps_update Alarm.taskToActivate k.alarmData (ht (k.alarmData a)) b
  have hcallback := keeps_update Alarm.callback k.alarmData (hc (k.alarmData a)) b
  unfold Kernel.modifyAlarm
  rw [htask, hcallback]
  exact h b

theorem CallbackAlarms.tableCall (h : k.CallbackAlarms) (c : TableCall) :
    (k.tableCall c).CallbackAlarms := by
  cases c with
  | timer t c => exact h
  | add table x => exact h.of_alarmData (add_eq k table x).2.2
  | remove table x => exact h.of_alarmData (remove_eq k table x).2.2
  | setCounterValue c value => exact h
  | startAlarm a =>
    exact h.modifyAlarm a (f := (·.start (k.counterData (k.alarmData a).counter)))
      (fun _ => rfl) (fun _ => rfl)
  | stopAlarm a => exact h.modifyAlarm a (f := Alarm.stop) (fun _ => rfl) (fun _ => rfl)

theorem CallbackAlarms.incrementCounters (h : k.CallbackAlarms) :
    k.incrementCounters.CallbackAlarms := by
  unfold Kernel.incrementCounters
  exact forSlots_induction (P := CallbackAlarms) h fun _ _ h => h

end Kernel

namespace Objects
open Kernel

theorem withTables_self (o : Objects) :
    o.onKernel (withTables (o.kernel.tables, o.kernel.callbacks)) = o := rfl

theorem tables_isr (o : Objects) (c : IsrCall) :
    (o.isr c).kernel.tables = o.kernel.tables ∧
      (o.isr c).kernel.callbacks = o.kernel.callbacks := by
  have h := withTables_isr o (o.kernel.tables, o.kernel.callbacks) c
  rw [withTables_self] at h
  rw [h]
  exact ⟨rfl, rfl⟩

theorem tables_step (o : Objects) (c : Call) :
    (o.step c).1.kernel.tables = o.kernel.tables ∧
      (o.step c).1.kernel.callbacks = o.kernel.callbacks := by
  have h := withTables_step o (o.kernel.tables, o.kernel.callbacks) c
  rw [withTables_self] at h
  rw [h]
  exact ⟨rfl, rfl⟩

theorem leaveTick_isr (o : Objects) (c : IsrCall) : ∃ b,
    (o.onKernel Kernel.leaveTick).isr c =
      ((o.isr c).onKernel Kernel.leaveTick).onKernel (Kernel.mask b) := by
  have hport := withPort_isr o
    { o.kernel.port with pendSV := true, masked := false, insideInterrupt := false } c
  have hleave : ∃ b, portAfter
      { o.kernel.port with pendSV := true, masked := false, insideInterrupt := false } c =
      { portAfter o.kernel.port c with pendSV := true, masked := b, insideInterrupt := false } := by
    cases c <;> exact ⟨_, rfl⟩
  obtain ⟨b, hb⟩ := hleave
  refine ⟨b, hport.trans ?_⟩
  rw [hb, ← port_isr]
  rfl

theorem Bares.congr {o o₂ o' : Objects} (h : Bares o o')
    (hbare : o₂.onKernel bare = o.onKernel bare) : Bares o₂ o' := by
  obtain ⟨b, rfl⟩ := h
  exact ⟨b, by rw [hbare]⟩

end Objects

namespace TickState
open Objects Kernel

/-- When the tick is left, the objects will be those of the system after a tick of its own and the
calls made so far. -/
structure Mirrors (o' : Objects) (w : TickState) : Prop where
  bares : Bares (w.objects.onKernel leaveTick) (w.made.foldl Objects.isr o')
  alarms : w.objects.kernel.CallbackAlarms

namespace Mirrors
variable {o' : Objects} {w : TickState} (h : w.Mirrors o') {cb : Callbacks}
include h

theorem onKernel {g : Kernel → Kernel} (hg : (g w.objects.kernel).bare = w.objects.kernel.bare)
    (ha : (g w.objects.kernel).CallbackAlarms) : (w.onKernel g).Mirrors o' := by
  refine ⟨h.bares.congr ?_, ha⟩
  have hleave (k : Kernel) : k.leaveTick.bare = k.bare.leaveTick := rfl
  have hbare : (g w.objects.kernel).leaveTick.bare = w.objects.kernel.leaveTick.bare := by
    rw [hleave, hg, hleave]
  exact congrArg (fun k => { w.objects with kernel := k }) hbare

theorem call (c : CallbackCall) : (w.call c).Mirrors o' := by
  cases c with
  | table c => exact h.onKernel (bare_tableCall _ c) (h.alarms.tableCall c)
  | isr c =>
    obtain ⟨b, hb⟩ := leaveTick_isr w.objects c
    have hisr := h.bares.isr c
    rw [hb] at hisr
    constructor
    · unfold TickState.call
      dsimp only
      rw [List.foldl_append]
      exact bares_mask hisr
    · exact h.alarms.of_tables (tables_isr w.objects c).1

theorem invoke (c arg : ℕ) : (w.invoke cb c arg).Mirrors o' := by
  refine List.foldlRecOn (motive := fun w : TickState => w.Mirrors o') _ _
    (h.onKernel (g := (·.invokeCallback c arg)) rfl h.alarms) ?_
  exact fun _ hw c _ => hw.call c

theorem tickTimer (t : TimerPtr) : (w.tickTimer cb t).Mirrors o' := by
  have hmodify {w : TickState} (hw : w.Mirrors o') (f : Timer → Timer) :
      (w.onKernel (·.modifyTimer t f)).Mirrors o' := hw.onKernel rfl hw.alarms
  unfold TickState.tickTimer
  dsimp only
  split_ifs
  · refine hmodify ?_ Timer.reload
    cases (w.objects.kernel.timerData t).callback with
    | none => exact hmodify h Timer.countdown
    | some c => exact (hmodify h Timer.countdown).invoke c _
  · exact hmodify h Timer.countdown
  · exact h

theorem checkAndTrigger (a : AlarmPtr) : (w.checkAndTrigger cb a).Mirrors o' := by
  obtain ⟨htask, hcallback⟩ := h.alarms a
  unfold TickState.checkAndTrigger
  dsimp only
  split_ifs
  · rw [htask]
    have hrearm := h.onKernel
      (g := (·.modifyAlarm a (·.rearm (w.objects.kernel.counterData
        (w.objects.kernel.alarmData a).counter)))) rfl
      (h.alarms.modifyAlarm a (fun x => congrArg (fun s => s.2.2.2.2) (x.setup_rearm _))
        fun x => congrArg (fun s => s.2.1) (x.setup_rearm _))
    cases hc : (w.objects.kernel.alarmData a).callback with
    | none =>
      rw [hc] at hcallback
      exact absurd hcallback Bool.false_ne_true
    | some c => exact hrearm.invoke c _
  · exact h

theorem forSlots (slots : Kernel → ℕ → Option ℕ) {f : TickState → ℕ → TickState}
    (hf : ∀ w x, Mirrors o' w → Mirrors o' (f w x)) : (w.forSlots slots f).Mirrors o' := by
  refine List.foldlRecOn (motive := fun w : TickState => w.Mirrors o') _ _ h ?_
  intro w hw i _
  cases slots w.objects.kernel i with
  | none => exact hw
  | some x => exact hf w x hw

end Mirrors

theorem mirrors_wakeUps {o o' : Objects} (h : Bares o o') (ha : o.kernel.CallbackAlarms) :
    ((⟨o.onKernel enterTick, []⟩ : TickState).onKernel wakeUps).Mirrors
      (o'.interrupt .sysTick) := by
  constructor
  · obtain ⟨b, rfl⟩ := h
    have henter : (o.kernel.bare.mask b).enterTick = o.kernel.enterTick.bare := rfl
    have hwakeUps : o.kernel.enterTick.bare.wakeUps = o.kernel.enterTick.wakeUps.bare :=
      (withTables_wakeUps _ _).symm
    have htick : (o.kernel.bare.mask b).sysTickHandler =
        (o.kernel.enterTick.wakeUps.bare).leaveTick := by
      rw [sysTickHandler_eq_leaveTick, henter, tick_bare, hwakeUps]
    refine ⟨false, ?_⟩
    exact congrArg (fun k => { o with kernel := k }) htick
  · exact ha.of_tables (tables_wakeUps o.kernel.enterTick)

theorem mirrors_tick {o o' : Objects} (h : Bares o o') (ha : o.kernel.CallbackAlarms)
    (cb : Callbacks) :
    (tick cb ⟨o.onKernel enterTick, []⟩).Mirrors (o'.interrupt .sysTick) := by
  have htimers := (mirrors_wakeUps h ha).forSlots Kernel.timers (f := tickTimer cb)
    fun _ t hw => hw.tickTimer t
  have hcounters := htimers.onKernel (g := incrementCounters) ?_ ?_
  · exact hcounters.forSlots Kernel.alarms fun _ a hw => hw.checkAndTrigger a
  · exact bare_incrementCounters _
  · exact htimers.alarms.incrementCounters

end TickState

namespace Objects
open Kernel

/-- A tick with callbacks is a tick without, followed by the calls of the callbacks. -/
theorem Bares.sysTick {o o' : Objects} (h : Bares o o') (ha : o.kernel.CallbackAlarms)
    (cb : Callbacks) :
    Bares (o.sysTick cb).objects ((o.sysTick cb).made.foldl Objects.isr (o'.interrupt .sysTick)) ∧
      (o.sysTick cb).objects.kernel.CallbackAlarms := by
  have hmirrors := TickState.mirrors_tick h ha cb
  unfold Objects.sysTick
  generalize TickState.tick cb ⟨o.onKernel enterTick, []⟩ = w at hmirrors ⊢
  exact ⟨hmirrors.bares, hmirrors.alarms.of_tables rfl⟩

end Objects

namespace system
open Objects

/-- The events of the system with callbacks. Between two steps the tables may be changed by the
running task or by an interrupt handler. -/
inductive TimedEvent where
  | other (a : Event)
  | table (c : TableCall)
  | sysTick (cb : Callbacks)

def timed : Machine State TimedEvent where
  guard
    | .other a, s => a.IsIn (· ≠ .sysTick) ∧ system.machine.guard a s
    | .table _, _ | .sysTick _, _ => True
  apply
    | .other a, s => system.machine.apply a s
    | .table c, s => { s with shared := s.shared.onKernel (·.tableCall c) }
    | .sysTick cb, s => { s with shared := (s.shared.sysTick cb).objects }

instance : ∀ e s, Decidable (timed.guard e s)
  | .other a, s => inferInstanceAs (Decidable (a.IsIn (· ≠ .sysTick) ∧ system.machine.guard a s))
  | .table _, _ | .sysTick _, _ => inferInstanceAs (Decidable True)

/-- The start with the timers, counters and alarms that the application has constructed. -/
def initWith (u : Setup) (T : Tables) : State :=
  Protocol.start ((Objects.init u).onKernel (Kernel.withTables (T, [])))

/-- What an event is in the system without the tables. -/
def untimed : TimedEvent → State → List Event
  | .other a, _ => [a]
  | .table _, _ => []
  | .sysTick cb, s => .env .sysTick :: (s.shared.sysTick cb).made.map fun c => .env (.isr c)

theorem run_isr (cs : List IsrCall) (s : State) :
    system.machine.Valid s (cs.map fun c => .env (.isr c)) ∧
      system.machine.exec s (cs.map fun c => .env (.isr c)) =
        { s with shared := cs.foldl Objects.isr s.shared } := by
  induction cs generalizing s with
  | nil => exact ⟨trivial, rfl⟩
  | cons c cs ih =>
    obtain ⟨hvalid, hexec⟩ := ih (system.machine.apply (.env (.isr c)) s)
    exact ⟨⟨trivial, hvalid⟩, hexec⟩

/-- A state of the system with callbacks, and one of the system without. -/
structure Agrees (s t : State) : Prop where
  related : Protocol.Related Bares s t
  alarms : s.shared.kernel.CallbackAlarms

theorem tables_apply {a : Event} (ha : a.IsIn (· ≠ .sysTick)) (s : State) :
    (system.machine.apply a s).shared.kernel.tables = s.shared.kernel.tables ∧
      (system.machine.apply a s).shared.kernel.callbacks = s.shared.kernel.callbacks := by
  cases a with
  | invoke t c => exact ⟨rfl, rfl⟩
  | exec t =>
    simp only [Protocol.machine, Protocol.apply]
    cases s.call t with
    | none => exact ⟨rfl, rfl⟩
    | some c => exact tables_step s.shared c
  | env e =>
    cases e with
    | sysTick => exact absurd rfl ha
    | isr c => exact tables_isr s.shared c
    | pendSV => exact Kernel.tables_of_withTables _ Kernel.withTables_pendSVHandler
    | addTask t =>
      exact Kernel.tables_of_withTables (g := (·.addTask t)) _ (Kernel.withTables_addTask · · t)

theorem Agrees.apply {s t : State} (h : Agrees s t) (e : TimedEvent) (hg : timed.guard e s) :
    system.machine.Valid t (untimed e s) ∧
      Agrees (timed.apply e s) (system.machine.exec t (untimed e s)) := by
  cases e with
  | other a =>
    refine ⟨⟨respects_bares.guard hg.1 h.related hg.2, trivial⟩, ?_, ?_⟩
    · exact respects_bares.apply hg.1 h.related
    · exact h.alarms.of_tables (tables_apply hg.1 s).1
  | table c =>
    refine ⟨trivial, ⟨h.related.shared.congr ?_, h.related.call⟩, h.alarms.tableCall c⟩
    exact congrArg (fun k => { s.shared with kernel := k }) (Kernel.bare_tableCall _ c)
  | sysTick cb =>
    have htick : system.machine.apply (.env .sysTick) t =
        { t with shared := t.shared.interrupt .sysTick } := rfl
    have hnext : timed.apply (.sysTick cb) s = { s with
        shared := (s.shared.sysTick cb).objects } := rfl
    obtain ⟨hbares, halarms⟩ := h.related.shared.sysTick h.alarms cb
    rw [untimed, Machine.exec_cons, htick, hnext]
    generalize s.shared.sysTick cb = w at hbares halarms ⊢
    generalize t.shared.interrupt .sysTick = o at hbares htick ⊢
    obtain ⟨hvalid, hexec⟩ := run_isr w.made { t with shared := o }
    rw [hexec]
    refine ⟨⟨trivial, ?_⟩, ⟨hbares, h.related.call⟩, halarms⟩
    rw [htick]
    exact hvalid

theorem bares_withTables {o : Objects} (ho : o.kernel.bare = o.kernel)
    (T : Tables × List (ℕ × ℕ)) : Bares (o.onKernel (Kernel.withTables T)) o := by
  have hkernel : (o.kernel.withTables T).bare.mask o.kernel.port.masked = o.kernel := by
    rw [Kernel.bare_withTables, ho]
    rfl
  exact ⟨o.kernel.port.masked, congrArg (fun k => { o with kernel := k }) hkernel.symm⟩

theorem agrees_init (u : Setup) {T : Tables}
    (hT : ∀ a, (T.alarmData a).taskToActivate = none ∧ (T.alarmData a).callback.isSome = true) :
    Agrees (initWith u T) (init u) := by
  unfold initWith init Protocol.start
  have hbare : (Objects.init u).kernel.bare = (Objects.init u).kernel :=
    Kernel.bare_new u.idleTask u.assigned
  generalize Objects.init u = o at hbare ⊢
  exact ⟨⟨bares_withTables hbare _, rfl⟩, hT⟩

theorem agrees_reached {u : Setup} {T : Tables} {es : List TimedEvent}
    (hT : ∀ a, (T.alarmData a).taskToActivate = none ∧ (T.alarmData a).callback.isSome = true)
    (h : timed.Valid (initWith u T) es) :
    Run u (timed.images untimed (initWith u T) es) ∧
      Agrees (timed.exec (initWith u T) es)
        (reached u (timed.images untimed (initWith u T) es)) :=
  Machine.simulates (fun e _ _ hst hg => hst.apply e hg) (agrees_init u hT) h

/-- With timers, counters and alarms, whatever their callbacks call, the system does what it does
without, if the calls of the callbacks count as interrupts that follow the tick. The tasks are at
the same points of their calls, all objects agree up to the interrupt mask, and no assertion
fails. -/
theorem callbacks_interrupt {u : Setup} {T : Tables} {es : List TimedEvent}
    (hT : ∀ a, (T.alarmData a).taskToActivate = none ∧ (T.alarmData a).callback.isSome = true)
    (h : timed.Valid (initWith u T) es) :
    Run u (timed.images untimed (initWith u T) es) ∧
      Protocol.Related Bares (timed.exec (initWith u T) es)
        (reached u (timed.images untimed (initWith u T) es)) ∧
      (timed.exec (initWith u T) es).shared.kernel.fault = false := by
  obtain ⟨hrun, hagrees⟩ := agrees_reached hT h
  refine ⟨hrun, hagrees.related, ?_⟩
  obtain ⟨b, hb⟩ := hagrees.related.shared
  have hfault := congrArg (fun o : Objects => o.kernel.fault) hb
  have hflawless := (flawless_reached hrun).numbered.fault
  rw [hfault] at hflawless
  exact hflawless

/-- Timer 7 runs out in every tick, alarm 3 after two ticks of its counter. -/
def sampleTables : Tables where
  timers := fun i => if i = 0 then some 7 else none
  counters := fun i => if i = 1 then some 5 else none
  alarms := fun i => if i = 2 then some 3 else none
  timerData := fun _ => (Timer.new (some 40) 1 true 0).start
  counterData := fun _ => { maxAllowedValue := 10 }
  alarmData := fun _ => { Alarm.newCallback 5 41 0 2 0 with active := true }

/-- The timer sets an event and takes itself out of the table, the alarm signals a semaphore. -/
def sampleCallbacks : Callbacks
  | 40, _, _ => [.isr (.setEvents 0 1), .table (.timer 7 .stop), .table (.remove .timers 7)]
  | _, _, _ => [.isr (.signal 0)]

/-- Task 1 waits for the semaphore that the alarm signals. -/
def sampleTimed : List TimedEvent :=
  [.other (.env (.addTask 1)), .sysTick sampleCallbacks, .other (.env .pendSV),
    .other (.invoke 1 (.semaphore 0 (.wait waitForever))), .other (.exec 1), .other (.exec 1),
    .other (.exec 1), .other (.env .pendSV), .table (.add .timers 8), .sysTick sampleCallbacks,
    .other (.env .pendSV), .other (.exec 1)]

theorem callbacks_interrupt_sample :
    Run twoTasks (timed.images untimed (initWith twoTasks sampleTables) sampleTimed) ∧
      (timed.exec (initWith twoTasks sampleTables) sampleTimed).shared.kernel.fault = false := by
  have hvalid : timed.Valid (initWith twoTasks sampleTables) sampleTimed := by decide +kernel
  obtain ⟨hrun, -, hfault⟩ := callbacks_interrupt (fun _ => ⟨rfl, rfl⟩) hvalid
  exact ⟨hrun, hfault⟩

end system

end CppRtos
