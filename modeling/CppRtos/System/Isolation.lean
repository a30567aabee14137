import CppRtos.Kernel.TableGroups
import CppRtos.System.Callbacks

/-! Timers, counters and alarms that no call is about. What others call, register and remove in
the loops of the ticks and between them does not reach them. -/
namespace CppRtos

def CallbackCall.Spares (G : TableGroup) : CallbackCall → Prop
  | .isr _ => True
  | .table c => c.Spares G

/-- The callbacks make no call about an object of the group. -/
def Callbacks.Spare (G : TableGroup) (cb : Callbacks) : Prop :=
  ∀ callback arg o, ∀ c ∈ cb callback arg o, c.Spares G

namespace TickState
open Kernel TableGroup
variable {G : TableGroup} {w w' : TickState} {cb cb' : Callbacks}

/-! ## The loops of the tick -/

theorem alike_calls {cs : List CallbackCall} (hcs : ∀ c ∈ cs, c.Spares G)
    (h : G.Alike w.objects.kernel w'.objects.kernel) :
    G.Alike (cs.foldl call w).objects.kernel w'.objects.kernel := by
  refine List.foldlRecOn (motive := fun w : TickState => G.Alike w.objects.kernel
    w'.objects.kernel) _ _ h ?_
  intro w hw c hc
  cases c with
  | isr c => exact hw.unnoticed (unnoticed_of_tables (Objects.tables_isr w.objects c))
  | table c => exact hw.unnoticed (unnoticed_tableCall (hcs _ hc))

theorem alike_invoke_left (hcb : Callbacks.Spare G cb)
    (h : G.Alike w.objects.kernel w'.objects.kernel) {c : ℕ} (hc : c ∉ G.callbacks) (arg : ℕ) :
    G.Alike (w.invoke cb c arg).objects.kernel w'.objects.kernel := by
  have hinvoked : G.Alike (w.onKernel (·.invokeCallback c arg)).objects.kernel w'.objects.kernel :=
    h.unnoticed (unnoticed_invokeCallback hc arg)
  exact alike_calls (hcb c arg w.objects) hinvoked

theorem alike_invoke (hcb : Callbacks.Spare G cb) (hcb' : Callbacks.Spare G cb')
    (h : G.Alike w.objects.kernel w'.objects.kernel) (c arg : ℕ) :
    G.Alike (w.invoke cb c arg).objects.kernel (w'.invoke cb' c arg).objects.kernel := by
  have hinvoked : G.Alike (w.onKernel (·.invokeCallback c arg)).objects.kernel
      (w'.onKernel (·.invokeCallback c arg)).objects.kernel := h.invokeCallback c arg
  have hleft := alike_calls (hcb c arg w.objects) hinvoked
  exact (alike_calls (hcb' c arg w'.objects) hleft.symm).symm

theorem alike_tickTimer_left (hcb : Callbacks.Spare G cb)
    (h : G.Alike w.objects.kernel w'.objects.kernel) {u : TimerPtr} (hu : u ∉ G.timers) :
    G.Alike (w.tickTimer cb u).objects.kernel w'.objects.kernel := by
  have hmodify {v : TickState} (hv : G.Alike v.objects.kernel w'.objects.kernel)
      {f : Timer → Timer} (hf : KeepsCallback f) :
      G.Alike (v.onKernel (·.modifyTimer u f)).objects.kernel w'.objects.kernel :=
    hv.unnoticed (unnoticed_modifyTimer hu hf)
  have hdown := hmodify h Timer.callback_countdown
  unfold tickTimer
  dsimp only
  split_ifs
  · refine hmodify ?_ Timer.callback_reload
    cases hc : (w.objects.kernel.timerData u).callback with
    | none => exact hdown
    | some c => exact alike_invoke_left hcb hdown (fun hin => hu (h.left.timers u c hin hc)) _
  · exact hdown
  · exact h

theorem alike_tickTimer (hcb : Callbacks.Spare G cb) (hcb' : Callbacks.Spare G cb')
    (h : G.Alike w.objects.kernel w'.objects.kernel) {t : TimerPtr} (ht : t ∈ G.timers) :
    G.Alike (w.tickTimer cb t).objects.kernel (w'.tickTimer cb' t).objects.kernel := by
  have hmodify {v v' : TickState} (hv : G.Alike v.objects.kernel v'.objects.kernel)
      {f : Timer → Timer} (hf : KeepsCallback f) :
      G.Alike (v.onKernel (·.modifyTimer t f)).objects.kernel
        (v'.onKernel (·.modifyTimer t f)).objects.kernel := hv.modifyTimer ht hf
  have hdown := hmodify h Timer.callback_countdown
  unfold tickTimer
  dsimp only
  rw [h.same.timerData t ht]
  split_ifs
  · refine hmodify ?_ Timer.callback_reload
    cases (w'.objects.kernel.timerData t).callback with
    | none => exact hdown
    | some c => exact alike_invoke hcb hcb' hdown c _
  · exact hdown
  · exact h

theorem alike_checkAndTrigger_left (hcb : Callbacks.Spare G cb)
    (h : G.Alike w.objects.kernel w'.objects.kernel) {b : AlarmPtr} (hb : b ∉ G.alarms) :
    G.Alike (w.checkAndTrigger cb b).objects.kernel w'.objects.kernel := by
  unfold checkAndTrigger
  dsimp only
  generalize w.objects.kernel.counterData (w.objects.kernel.alarmData b).counter = counter
  have hrearm : G.Alike (w.onKernel (·.modifyAlarm b (·.rearm counter))).objects.kernel
      w'.objects.kernel := h.unnoticed (unnoticed_modifyAlarm hb (keepsWiring_rearm counter))
  generalize w.onKernel (·.modifyAlarm b (·.rearm counter)) = v at hrearm ⊢
  split_ifs
  · cases (w.objects.kernel.alarmData b).taskToActivate with
    | some task => exact hrearm.unnoticed (unnoticed_activate v.objects.kernel task)
    | none =>
      cases hc : (w.objects.kernel.alarmData b).callback with
      | none => exact hrearm.unnoticed (unnoticed_of_tables ⟨rfl, rfl⟩)
      | some c => exact alike_invoke_left hcb hrearm (fun hin => hb (h.left.alarms b c hin hc)) _
  · exact h

theorem alike_checkAndTrigger (hcb : Callbacks.Spare G cb) (hcb' : Callbacks.Spare G cb')
    (h : G.Alike w.objects.kernel w'.objects.kernel) {a : AlarmPtr} (ha : a ∈ G.alarms) :
    G.Alike (w.checkAndTrigger cb a).objects.kernel (w'.checkAndTrigger cb' a).objects.kernel := by
  unfold checkAndTrigger
  dsimp only
  rw [h.same.alarmData a ha, h.same.counterData _ (h.right.counters a ha)]
  generalize w'.objects.kernel.counterData (w'.objects.kernel.alarmData a).counter = counter
  have hrearm : G.Alike (w.onKernel (·.modifyAlarm a (·.rearm counter))).objects.kernel
      (w'.onKernel (·.modifyAlarm a (·.rearm counter))).objects.kernel :=
    h.modifyAlarm ha (keepsWiring_rearm counter)
  generalize w.onKernel (·.modifyAlarm a (·.rearm counter)) = v at hrearm ⊢
  generalize w'.onKernel (·.modifyAlarm a (·.rearm counter)) = v' at hrearm ⊢
  split_ifs
  · cases (w'.objects.kernel.alarmData a).taskToActivate with
    | some task =>
      have hleft := hrearm.unnoticed (unnoticed_activate v.objects.kernel task)
      exact (hleft.symm.unnoticed (unnoticed_activate v'.objects.kernel task)).symm
    | none =>
      cases (w'.objects.kernel.alarmData a).callback with
      | none =>
        have hleft := hrearm.unnoticed (l := v.objects.kernel.assert false)
          (unnoticed_of_tables ⟨rfl, rfl⟩)
        exact (hleft.symm.unnoticed (l := v'.objects.kernel.assert false)
          (unnoticed_of_tables ⟨rfl, rfl⟩)).symm
      | some c => exact alike_invoke hcb hcb' hrearm c _
  · exact h

/-- A loop over a table. In each slot the kernels have the same object of the group, or neither
has one. -/
theorem alike_forSlots (table : Table) {slots : Kernel → ℕ → Option ℕ}
    (hslots : ∀ k, k.slots table = slots k) {f f' : TickState → ℕ → TickState}
    (hleft : ∀ {w w' : TickState} {x : ℕ}, x ∉ G.members table →
      G.Alike w.objects.kernel w'.objects.kernel →
      G.Alike (f w x).objects.kernel w'.objects.kernel)
    (hright : ∀ {w w' : TickState} {x : ℕ}, x ∉ G.members table →
      G.Alike w.objects.kernel w'.objects.kernel →
      G.Alike (f' w x).objects.kernel w'.objects.kernel)
    (hboth : ∀ {w w' : TickState} {x : ℕ}, x ∈ G.members table →
      G.Alike w.objects.kernel w'.objects.kernel →
      G.Alike (f w x).objects.kernel (f' w' x).objects.kernel)
    (h : G.Alike w.objects.kernel w'.objects.kernel) :
    G.Alike (w.forSlots slots f).objects.kernel (w'.forSlots slots f').objects.kernel := by
  unfold forSlots
  induction List.range 32 generalizing w w' with
  | nil => exact h
  | cons i is ih =>
    rw [List.foldl_cons, List.foldl_cons]
    refine ih ?_
    have hslot := h.same.slots table i
    rw [hslots, hslots] at hslot
    cases hx : slots w.objects.kernel i with
    | none =>
      cases hy : slots w'.objects.kernel i with
      | none => exact h
      | some y =>
        have hout : y ∉ G.members table := by
          intro hin
          have hsame := (hslot y hin).mpr hy
          rw [hx] at hsame
          cases hsame
        exact (hright hout h.symm).symm
    | some x =>
      by_cases hin : x ∈ G.members table
      · rw [(hslot x hin).mp hx]
        exact hboth hin h
      · have hnext := hleft hin h
        cases hy : slots w'.objects.kernel i with
        | none => exact hnext
        | some y =>
          have hout : y ∉ G.members table := by
            intro hin'
            have hsame := (hslot y hin').mpr hy
            rw [hx] at hsame
            cases hsame
            exact hin hin'
          exact (hright hout hnext.symm).symm

/-- `Counter::Increment` in the loop over the counters. -/
def incrementCounter (w : TickState) (c : CounterPtr) : TickState :=
  w.onKernel (·.modifyCounter c Counter.increment)

theorem onKernel_incrementCounters (w : TickState) :
    w.onKernel incrementCounters = w.forSlots Kernel.counters incrementCounter := by
  have hcounter : ∀ w c, incrementCounter w c =
      w.onKernel (·.modifyCounter c Counter.increment) := fun _ _ => rfl
  have hslots : ∀ (k : Kernel) c, (k.modifyCounter c Counter.increment).counters = k.counters :=
    fun _ _ => rfl
  rw [forSlots_onKernel (h := (·.modifyCounter · Counter.increment)) hcounter hslots,
    onKernel_const]
  rfl

theorem alike_incrementCounters (h : G.Alike w.objects.kernel w'.objects.kernel) :
    G.Alike (w.onKernel incrementCounters).objects.kernel
      (w'.onKernel incrementCounters).objects.kernel := by
  have hout {v v' : TickState} {c : ℕ} (hc : c ∉ G.members .counters)
      (hv : G.Alike v.objects.kernel v'.objects.kernel) :
      G.Alike (v.incrementCounter c).objects.kernel v'.objects.kernel :=
    hv.unnoticed (unnoticed_modifyCounter hc Counter.increment)
  have hin {v v' : TickState} {c : ℕ} (hc : c ∈ G.members .counters)
      (hv : G.Alike v.objects.kernel v'.objects.kernel) :
      G.Alike (v.incrementCounter c).objects.kernel (v'.incrementCounter c).objects.kernel :=
    hv.modifyCounter hc Counter.increment
  rw [onKernel_incrementCounters, onKernel_incrementCounters]
  exact alike_forSlots .counters (fun _ => rfl) hout hout hin h

theorem alike_tick (hcb : Callbacks.Spare G cb) (hcb' : Callbacks.Spare G cb')
    (h : G.Alike w.objects.kernel w'.objects.kernel) :
    G.Alike (w.tick cb).objects.kernel (w'.tick cb').objects.kernel := by
  have hwake (v : TickState) : G.Unnoticed v.objects.kernel (v.onKernel wakeUps).objects.kernel :=
    unnoticed_of_tables ⟨tables_wakeUps v.objects.kernel, callbacks_wakeUps v.objects.kernel⟩
  have hstart : G.Alike (w.onKernel wakeUps).objects.kernel (w'.onKernel wakeUps).objects.kernel :=
    ((h.unnoticed (hwake w)).symm.unnoticed (hwake w')).symm
  have htimers {v v' : TickState} (hv : G.Alike v.objects.kernel v'.objects.kernel) :
      G.Alike (v.forSlots Kernel.timers (tickTimer cb)).objects.kernel
        (v'.forSlots Kernel.timers (tickTimer cb')).objects.kernel :=
    alike_forSlots .timers (fun _ => rfl) (fun hx hw => alike_tickTimer_left hcb hw hx)
      (fun hx hw => alike_tickTimer_left hcb' hw hx)
      (fun hx hw => alike_tickTimer hcb hcb' hw hx) hv
  have halarms {v v' : TickState} (hv : G.Alike v.objects.kernel v'.objects.kernel) :
      G.Alike (v.forSlots Kernel.alarms (checkAndTrigger cb)).objects.kernel
        (v'.forSlots Kernel.alarms (checkAndTrigger cb')).objects.kernel :=
    alike_forSlots .alarms (fun _ => rfl) (fun hx hw => alike_checkAndTrigger_left hcb hw hx)
      (fun hx hw => alike_checkAndTrigger_left hcb' hw hx)
      (fun hx hw => alike_checkAndTrigger hcb hcb' hw hx) hv
  have hall := halarms (alike_incrementCounters (htimers hstart))
  unfold tick
  dsimp only
  exact hall

end TickState

/-! ## The runs of the system -/

namespace TableGroup
open Kernel
variable {G : TableGroup} {k k' : Kernel}

theorem alike_sysTick {o : Objects} {cb : Callbacks} (hcb : Callbacks.Spare G cb)
    (h : G.Alike o.kernel k') : G.Alike (o.sysTick cb).objects.kernel k'.tick := by
  have hsilent : Callbacks.Spare G TickState.silent := fun _ _ _ _ hc => absurd hc List.not_mem_nil
  have henter : G.Alike (⟨o.onKernel enterTick, []⟩ : TickState).objects.kernel
      (⟨{ o with kernel := k' }, []⟩ : TickState).objects.kernel :=
    h.unnoticed (unnoticed_of_tables ⟨rfl, rfl⟩)
  have htick := TickState.alike_tick hcb hsilent henter
  rw [TickState.tick_silent] at htick
  unfold Objects.sysTick
  generalize TickState.tick cb ⟨o.onKernel enterTick, []⟩ = w at htick ⊢
  have hleave : G.Unnoticed w.objects.kernel (w.onKernel leaveTick).objects.kernel :=
    unnoticed_of_tables ⟨rfl, rfl⟩
  exact Alike.unnoticed htick hleave

end TableGroup

namespace system
open Kernel

/-- Neither a task nor a callback makes a call about an object of the group. -/
def TimedEvent.Spares (G : TableGroup) : TimedEvent → Prop
  | .other _ => True
  | .table c => c.Spares G
  | .sysTick cb => Callbacks.Spare G cb

def TimedEvent.isTick : TimedEvent → Bool
  | .other _ | .table _ => false
  | .sysTick _ => true

def ticks (es : List TimedEvent) : ℕ := es.countP (·.isTick)

variable {G : TableGroup} {k : Kernel} {s : State} {e : TimedEvent} {es : List TimedEvent}

theorem alike_apply (h : G.Alike s.shared.kernel k) (hg : timed.guard e s) (he : e.Spares G) :
    G.Alike (timed.apply e s).shared.kernel (if e.isTick then k.tick else k) := by
  cases e with
  | other a => exact h.unnoticed (TableGroup.unnoticed_of_tables (tables_apply hg.1 s))
  | table c => exact h.unnoticed (TableGroup.unnoticed_tableCall he)
  | sysTick cb => exact TableGroup.alike_sysTick he h

theorem alike_exec (h : G.Alike s.shared.kernel k) (hv : timed.Valid s es)
    (hes : ∀ e ∈ es, e.Spares G) :
    G.Alike (timed.exec s es).shared.kernel (Kernel.tick^[ticks es] k) := by
  induction es generalizing s k with
  | nil => exact h
  | cons e es ih =>
    have hstep := alike_apply h hv.1 (hes e List.mem_cons_self)
    have hrest := ih hstep hv.2 fun e' he' => hes e' (List.mem_cons_of_mem e he')
    unfold ticks at hrest ⊢
    rw [Machine.exec_cons, List.countP_cons]
    cases htick : e.isTick with
    | false =>
      rw [htick, if_neg Bool.false_ne_true] at hrest
      rw [if_neg Bool.false_ne_true]
      exact hrest
    | true =>
      rw [htick, if_pos rfl, ← Function.iterate_succ_apply] at hrest
      rw [if_pos rfl]
      exact hrest

/-- Timers, counters and alarms that nobody makes calls about, neither tasks nor interrupts nor
callbacks in the loops of the ticks, do in every run what they would do alone in a kernel that does
nothing but tick: they keep their slots, go through the same states, and their callbacks are called
with the same arguments in the same order. -/
theorem undisturbed (hG : G.Separate s.shared.kernel) (h : timed.Valid s es)
    (hes : ∀ e ∈ es, e.Spares G) :
    G.Same (timed.exec s es).shared.kernel
      (Kernel.tick^[ticks es] (s.shared.kernel.only G)) :=
  (alike_exec (TableGroup.alike_only hG) h hes).same

def sampleAlone : Tables :=
  { sampleTables with
    timers := Function.update sampleTables.timers 4 (some 9)
    timerData :=
      Function.update sampleTables.timerData 9 (Timer.new (some 42) 2 true 0).start
    alarmData := Function.update sampleTables.alarmData 3
      { Alarm.newCallback 5 43 0 2 0 with active := true } }

def sampleGroup : TableGroup := ⟨{9}, {5}, {3}, {42, 43}⟩

theorem spares_sampleTimed (h7 : 7 ∉ G.timers) (h8 : 8 ∉ G.timers) :
    ∀ e ∈ sampleTimed, e.Spares G := by
  have hspare : Callbacks.Spare G sampleCallbacks := by
    intro callback arg o c hc
    unfold sampleCallbacks at hc
    split at hc
    · simp only [List.mem_cons, List.not_mem_nil, or_false] at hc
      obtain rfl | rfl | rfl := hc
      · trivial
      · exact h7
      · exact h7
    · rw [List.mem_singleton] at hc
      rw [hc]
      trivial
  unfold sampleTimed
  simp only [List.forall_mem_cons]
  exact ⟨trivial, hspare, trivial, trivial, trivial, trivial, trivial, trivial, h8, hspare,
    trivial, trivial, fun _ h => absurd h List.not_mem_nil⟩

/-- Timer 7 takes itself out of the table in the first of two ticks, timer 8 is added before the
second. Neither timer 9 nor alarm 3 notices. -/
theorem undisturbed_sample : sampleGroup.Same
    (timed.exec (initWith twoTasks sampleAlone) sampleTimed).shared.kernel
    (Kernel.tick^[2] ((initWith twoTasks sampleAlone).shared.kernel.only sampleGroup)) := by
  have hseparate : sampleGroup.Separate (initWith twoTasks sampleAlone).shared.kernel := by
    refine ⟨by decide +kernel, ?_, ?_⟩
    · intro t c hc ht
      by_contra hout
      have hother : (sampleAlone.timerData t).callback = some 40 := by
        have hne : t ≠ 9 := fun he => hout (Finset.mem_singleton.mpr he)
        have hdata : sampleAlone.timerData t = sampleTables.timerData t :=
          Function.update_of_ne hne _ _
        rw [hdata]
        rfl
      have hcallback : some 40 = some c := hother.symm.trans ht
      cases hcallback
      exact absurd hc (by decide)
    · intro a c hc ha
      by_contra hout
      have hother : (sampleAlone.alarmData a).callback = some 41 := by
        have hne : a ≠ 3 := fun he => hout (Finset.mem_singleton.mpr he)
        have hdata : sampleAlone.alarmData a = sampleTables.alarmData a :=
          Function.update_of_ne hne _ _
        rw [hdata]
        rfl
      have hcallback : some 41 = some c := hother.symm.trans ha
      cases hcallback
      exact absurd hc (by decide)
  have hticks : ticks sampleTimed = 2 := rfl
  rw [← hticks]
  exact undisturbed hseparate (by decide +kernel) (spares_sampleTimed (by decide) (by decide))

end system

end CppRtos
