import CppRtos.System.Isolation

/-! A timer that is started and then left alone, among others whose callbacks are at work in the
same loop. -/
namespace CppRtos

namespace Kernel
open SlotTable
variable {k : Kernel} {t : TimerPtr} {cbk : ℕ}

/-- The kernel has one timer to tick and no alarms to check. -/
structure Alone (t : TimerPtr) (cbk : ℕ) (k : Kernel) : Prop where
  timers : k.tickVisits .timers = [t]
  alarms : k.tickVisits .alarms = []
  callback : (k.timerData t).callback = some cbk

theorem Alone.timerData_tick (h : k.Alone t cbk) :
    k.tick.timerData t = (k.timerData t).tick id := by
  rw [Kernel.timerData_tick, h.timers, List.count_singleton_self, Function.iterate_one]

theorem Alone.tick (h : k.Alone t cbk) : k.tick.Alone t cbk := by
  constructor
  · exact (tickVisits_tick k .timers).trans h.timers
  · exact (tickVisits_tick k .alarms).trans h.alarms
  · rw [h.timerData_tick]
    exact (frame_tick _).1.trans h.callback

theorem Alone.calls_tick (h : k.Alone t cbk) : k.tick.callbacks.countP (·.1 = cbk) =
    k.callbacks.countP (·.1 = cbk) + if (k.timerData t).fires then 1 else 0 := by
  have htimers : k.timerCalls =
      if (k.timerData t).fires then [(t, cbk, (k.timerData t).arg)] else [] := by
    unfold timerCalls
    rw [h.timers, Visits.outputs, Visits.outputs, List.append_nil, timerCall_tables, h.callback]
    unfold Timer.fires
    rw [h.callback, Option.isSome_some, Bool.and_true]
    split_ifs <;> rfl
  have halarms : k.alarmCalls = [] := by
    unfold alarmCalls
    rw [h.alarms]
    rfl
  rw [callbacks_tick_eq, htimers, halarms, List.append_nil, List.countP_append,
    List.countP_reverse, Nat.add_comm]
  split_ifs
  · simp
  · rfl

theorem Alone.ticks (h : k.Alone t cbk) (n : ℕ) : (Kernel.tick^[n] k).Alone t cbk ∧
    (Kernel.tick^[n] k).timerData t = (Timer.tick id)^[n] (k.timerData t) ∧
    (Kernel.tick^[n] k).callbacks.countP (·.1 = cbk) =
      k.callbacks.countP (·.1 = cbk) + (k.timerData t).firings n := by
  induction n with
  | zero => exact ⟨h, rfl, rfl⟩
  | succ n ih =>
    obtain ⟨halone, hdata, hcalls⟩ := ih
    have hfirings : (k.timerData t).firings (n + 1) = (k.timerData t).firings n +
        if ((Timer.tick id)^[n] (k.timerData t)).fires then 1 else 0 := rfl
    rw [Function.iterate_succ_apply', Function.iterate_succ_apply']
    refine ⟨halone.tick, halone.timerData_tick.trans (congrArg _ hdata), ?_⟩
    rw [halone.calls_tick, hcalls, hdata, hfirings, Nat.add_assoc]

theorem separate_single (htimers : ∀ u, (k.timerData u).callback = some cbk ↔ u = t)
    (halarms : ∀ a, (k.alarmData a).callback ≠ some cbk) :
    TableGroup.Separate ⟨{t}, ∅, ∅, {cbk}⟩ k := by
  constructor
  · exact fun a ha => absurd ha (Finset.notMem_empty a)
  · intro u c hc hu
    rw [Finset.mem_singleton.mp hc, htimers] at hu
    exact Finset.mem_singleton.mpr hu
  · intro a c hc ha
    rw [Finset.mem_singleton.mp hc] at ha
    exact absurd ha (halarms a)

theorem alone_only {j : ℕ} (hj : j < 32) (hslot : ∀ i < 32, k.timers i = some t ↔ i = j)
    (hcallback : (k.timerData t).callback = some cbk) :
    (k.only ⟨{t}, ∅, ∅, {cbk}⟩).Alone t cbk := by
  refine ⟨entries_single hj ?_, ?_, hcallback⟩
  · intro i hi
    have hi' := hslot i hi
    change (k.timers i).filter _ = _
    split_ifs with he
    · rw [hi'.mpr he]
      simp
    · cases hx : k.timers i with
      | none => rfl
      | some x =>
        have hne : x ≠ t := by
          rintro rfl
          exact he (hi'.mp hx)
        simp [hne]
  · refine List.eq_nil_iff_forall_not_mem.mpr fun a ha => ?_
    obtain ⟨i, -, hi⟩ := mem_entries.mp ha
    have hfilter : (k.alarms i).filter (fun a => decide (a ∈ (∅ : Finset ℕ))) = some a := hi
    rw [Option.filter_eq_some_iff] at hfilter
    simp at hfilter

end Kernel

namespace system
open Kernel

/-- A timer that has a slot and a callback to itself and is started, by whomever and in whatever
state of the system, and then left alone has its callback called once in every period of ticks, or
once altogether, whatever the callbacks of the other timers and of the alarms do in the very loops
of these ticks. -/
theorem callback_periodic {s : State} {t : TimerPtr} {j cbk : ℕ} (hj : j < 32)
    (hslot : ∀ i < 32, s.shared.kernel.timers i = some t ↔ i = j)
    (htimers : ∀ u, (s.shared.kernel.timerData u).callback = some cbk ↔ u = t)
    (halarms : ∀ a, (s.shared.kernel.alarmData a).callback ≠ some cbk)
    (hperiod : Timer.Period (s.shared.kernel.timerData t).periodTicks) {es : List TimedEvent}
    (h : timed.Valid s (.table (.timer t .start) :: es))
    (hes : ∀ e ∈ es, e.Spares ⟨{t}, ∅, ∅, {cbk}⟩) :
    let timer := s.shared.kernel.timerData t
    let k := (timed.exec s (.table (.timer t .start) :: es)).shared.kernel
    let n := ticks es
    k.timerData t = (Timer.tick id)^[n] timer.start ∧
      k.callbacks.countP (·.1 = cbk) = s.shared.kernel.callbacks.countP (·.1 = cbk) +
        if timer.autoReload then n / timer.periodTicks else min 1 (n / timer.periodTicks) := by
  intro timer k n
  -- The run after the start, beside the ticks of a kernel that has no other timer.
  set G : TableGroup := ⟨{t}, ∅, ∅, {cbk}⟩ with hG
  set started := s.shared.kernel.modifyTimer t Timer.start with hstarted
  have hcallbacks (u : TimerPtr) :
      (started.timerData u).callback = (s.shared.kernel.timerData u).callback :=
    keeps_update Timer.callback s.shared.kernel.timerData (u := t) (x := timer.start)
      rfl u
  have hseparate : G.Separate started :=
    (separate_single htimers halarms).congr hcallbacks (fun _ => rfl) fun _ => rfl
  have halike : G.Alike (timed.apply (.table (.timer t .start)) s).shared.kernel (started.only G) :=
    TableGroup.alike_only hseparate
  have hsame : G.Same k (Kernel.tick^[n] (started.only G)) := (alike_exec halike h.2 hes).same
  have halone : (started.only G).Alone t cbk :=
    alone_only hj hslot ((hcallbacks t).trans ((htimers t).mpr rfl))
  obtain ⟨-, hdata, hcalls⟩ := halone.ticks n
  have hstart : (started.only G).timerData t = timer.start := Function.update_self _ _ _
  rw [hstart] at hdata hcalls
  have hcount : k.callbacks.countP (·.1 = cbk) =
      (Kernel.tick^[n] (started.only G)).callbacks.countP (·.1 = cbk) := by
    have hfilter := hsame.callbacks
    simp only [hG, Finset.mem_singleton] at hfilter
    rw [List.countP_eq_length_filter, List.countP_eq_length_filter, hfilter]
  have hsome : timer.callback.isSome = true := by
    rw [(htimers t).mpr rfl]
    rfl
  refine ⟨(hsame.timerData t (Finset.mem_singleton_self t)).trans hdata,
    hcount.trans (hcalls.trans (congrArg _ ?_))⟩
  cases ha : timer.autoReload with
  | true =>
    rw [if_pos rfl]
    exact (Timer.ticks_reloading hsome hperiod ha n).2
  | false =>
    rw [if_neg Bool.false_ne_true]
    exact (Timer.ticks_once hsome hperiod ha n).2

theorem callback_periodic_sample :
    (timed.exec (initWith twoTasks sampleAlone)
      (.table (.timer 9 .start) :: sampleTimed)).shared.kernel.callbacks.countP (·.1 = 42) = 1 := by
  have htimers : ∀ u, ((initWith twoTasks sampleAlone).shared.kernel.timerData u).callback =
      some 42 ↔ u = 9 := by
    intro u
    change (Function.update sampleTables.timerData 9 _ u).callback = _ ↔ _
    rcases eq_or_ne u 9 with rfl | hu
    · rw [Function.update_self]
      exact iff_of_true rfl rfl
    · rw [Function.update_of_ne hu]
      exact iff_of_false (fun hc : some 40 = some 42 => by cases hc) hu
  have halarms : ∀ a, ((initWith twoTasks sampleAlone).shared.kernel.alarmData a).callback ≠
      some 42 := by
    intro a
    change (Function.update sampleTables.alarmData 3 _ a).callback ≠ _
    rcases eq_or_ne a 3 with rfl | ha
    · rw [Function.update_self]
      exact fun hc : some 43 = some 42 => by cases hc
    · rw [Function.update_of_ne ha]
      exact fun hc : some 41 = some 42 => by cases hc
  have hall := callback_periodic (s := initWith twoTasks sampleAlone) (t := 9) (j := 4)
    (by decide) (by decide +kernel) htimers halarms (by decide +kernel) (by decide +kernel)
    (spares_sampleTimed (by decide) (by decide))
  rw [hall.2]
  decide +kernel

end system

end CppRtos
