import CppRtos.EventGroup.Waiting
import CppRtos.Mutex.Levels
import CppRtos.System.Deadlock

/-! The assertions of the whole system. Tasks, interrupt handlers and the scheduler use the
objects in any order; no assertion fails and no null pointer is dereferenced. -/
namespace CppRtos

namespace Kernel
variable {k k' k'' : Kernel}

/-- A part of an operation that fails no assertion and changes no priority. -/
structure Clean (k k' : Kernel) : Prop where
  succeeds : Succeeds k k'
  parameters : SameParameters k k'

theorem Clean.refl (k : Kernel) : Clean k k := ⟨.refl k, .refl k⟩

theorem Clean.trans (h : Clean k k') (h' : Clean k' k'') : Clean k k'' :=
  ⟨h.succeeds.trans h'.succeeds, h.parameters.trans h'.parameters⟩

theorem Clean.leveled (h : Clean k k') (hl : Mutex.Leveled k) : Mutex.Leveled k' :=
  hl.congr h.parameters

theorem clean_of_sameSchedule (h : SameSchedule k k')
    (ho : k'.isInsideInterrupt = k.isInsideInterrupt) (hf : k'.fault = k.fault) : Clean k k' :=
  ⟨succeeds_of_sameSchedule h ho hf, h.toSameParameters⟩

theorem clean_enterCritical (k : Kernel) : Clean k k.enterCritical :=
  ⟨succeeds_enterCritical k, (sameSchedule_enterCritical k).toSameParameters⟩

theorem clean_exitCritical (k : Kernel) : Clean k k.exitCritical :=
  ⟨succeeds_exitCritical k, (sameSchedule_exitCritical k).toSameParameters⟩

theorem Clean.region (h : Clean k.enterCritical k') : Clean k k'.exitCritical :=
  ((clean_enterCritical k).trans h).trans (clean_exitCritical k')

theorem clean_region (k : Kernel) : Clean k k.enterCritical.exitCritical := .region (.refl _)

theorem clean_yield (k : Kernel) : Clean k k.yield :=
  ⟨succeeds_yield k, (sameSchedule_yield k).toSameParameters⟩

/-- The assertion at the start of the calls that tasks make. -/
theorem clean_assert (h : k.isInsideInterrupt = false) :
    Clean k (k.assert (!k.isInsideInterrupt)) := by
  refine clean_of_sameSchedule (sameSchedule_assert k _) rfl ?_
  unfold assert
  rw [h]
  exact Bool.or_false k.fault

theorem clean_taskYield (h : k.isInsideInterrupt = false) : Clean k k.taskYield := by
  unfold taskYield
  dsimp only
  split_ifs
  · exact (clean_assert h).trans (clean_yield _)
  · exact clean_assert h

theorem clean_modifyTask (t : TaskPtr) {f : TaskData → TaskData}
    (hf : (f (k.taskData t)).id = (k.taskData t).id)
    (hp : (f (k.taskData t)).priority = (k.taskData t).priority)
    (hb : (f (k.taskData t)).basePriority = (k.taskData t).basePriority) :
    Clean k (k.modifyTask t f) :=
  ⟨succeeds_modifyTask k t hf, fun u => modifyTask_congr k t (g := TaskData.priority) hp u,
    fun u => modifyTask_congr k t (g := TaskData.basePriority) hb u, modifyTask_congr k t hf⟩

theorem clean_setState (t : TaskPtr) (s : TaskStateType) : Clean k (k.setState t s) :=
  clean_modifyTask t rfl rfl rfl

theorem clean_setTaskReady (h : Mutex.Leveled k) (t : Option TaskPtr) :
    Clean k (k.setTaskReady t) := by
  cases t with
  | none => exact .refl k
  | some t => exact ⟨succeeds_setTaskReady (h.slot t), sameParameters_setTaskReady k (some t)⟩

theorem clean_setReadyWord (h : Mutex.Leveled k) (t : TaskPtr) : Clean k (k.setReadyWord t) :=
  ⟨succeeds_setReadyWord (h.slot t), sameParameters_setReadyWord k t⟩

theorem clean_resetTaskReady (h : Mutex.Leveled k) (t : TaskPtr) (s : TaskStateType) :
    Clean k (k.resetTaskReady (some t) s) :=
  ⟨succeeds_resetTaskReady (h.slot t) s, sameParameters_resetTaskReady k t s⟩

theorem clean_addSleepingTask (t : TaskPtr) (ticks : ℕ) : Clean k (k.addSleepingTask t ticks) := by
  have htable : ∀ (w : BitVec 64) (times : ℕ → ℕ),
      Clean k { k with sleepingTasksBitmap := w, taskWakeUpTimes := times } :=
    fun w times => ⟨⟨rfl, rfl, fun _ => rfl, fun _ _ => .inl, rfl, rfl⟩,
      ⟨fun _ => rfl, fun _ => rfl, fun _ => rfl⟩⟩
  exact (htable _ _).trans (clean_setState t .eSleeping)

theorem clean_wakeUp (h : Mutex.Leveled k) (now i : ℕ) : Clean k (wakeUp now k i) := by
  unfold wakeUp
  split_ifs
  · refine (clean_setTaskReady h (k.tasks i)).trans ?_
    exact ⟨⟨rfl, rfl, fun _ => rfl, fun _ _ => .inl, rfl, rfl⟩,
      ⟨fun _ => rfl, fun _ => rfl, fun _ => rfl⟩⟩
  · exact .refl k

theorem clean_updateTimers (k : Kernel) : Clean k k.updateTimers := by
  refine forSlots_induction (P := Clean k) (.refl k) fun k' t h => h.trans ?_
  refine clean_of_sameSchedule (sameSchedule_tickTimer k' t) ?_ ?_
  · unfold tickTimer
    dsimp only
    split_ifs
    · cases (k'.timerData t).callback <;> rfl
    · rfl
  · unfold tickTimer
    dsimp only
    split_ifs
    · cases (k'.timerData t).callback <;> rfl
    · rfl

theorem clean_incrementCounters (k : Kernel) : Clean k k.incrementCounters :=
  forSlots_induction (P := Clean k) (.refl k) fun _ _ h =>
    h.trans (clean_of_sameSchedule (.of_taskData ⟨rfl, rfl, rfl, rfl, rfl, rfl⟩ rfl rfl rfl)
      rfl rfl)

theorem clean_tick (h : Mutex.Leveled k) (ha : ∀ i, k.alarms i = none) : Clean k k.tick := by
  have hwake : Clean k ((List.range maxTasks).foldl (wakeUp k.getTickCount) k) := by
    refine List.foldlRecOn (motive := fun k' => Clean k k') _ _ (.refl k) ?_
    exact fun k' hk' i _ => hk'.trans (clean_wakeUp (hk'.leveled h) _ i)
  have htable : SameTable k ((List.range maxTasks).foldl (wakeUp k.getTickCount) k) := by
    refine List.foldlRecOn (motive := fun k' => SameTable k k') _ _ (.refl k) ?_
    exact fun k' hk' i _ => hk'.trans (Effect.wakeUp (P := .all) _ k' i).sameTable
  have hrest := (hwake.trans (clean_updateTimers _)).trans (clean_incrementCounters _)
  unfold tick
  dsimp only
  rwa [checkAlarms, forSlots_none]
  intro i
  rw [(sameSchedule_incrementCounters _).alarms, (sameSchedule_updateTimers _).alarms,
    htable.alarms, ha]

theorem Clean.handler {p p' : Port} (h : Clean { k with port := p } k')
    (hp : p'.insideInterrupt = k.port.insideInterrupt) : Clean k { k' with port := p' } := by
  obtain ⟨⟨htasks, hcount, hid, hbits, -, hfault⟩, hpriority, hbase, hid'⟩ := h
  exact ⟨⟨htasks, hcount, hid, hbits, hp, hfault⟩, hpriority, hbase, hid'⟩

/-- `SysTick_Handler` is inside of the interrupt only while it ticks. -/
theorem clean_sysTickHandler (h : Mutex.Leveled k) (hin : k.isInsideInterrupt = false)
    (ha : ∀ i, k.alarms i = none) : Clean k k.sysTickHandler := by
  unfold sysTickHandler
  set k₁ : Kernel := { k with port :=
    ({ k.port with masked := true, insideInterrupt := true } : Port).incrementTickCount }
  have htick : Clean k₁ k₁.tick := clean_tick (k := k₁) h ha
  exact htick.handler hin.symm

theorem succeeds_pendSVHandler (hk : k.Numbered) (h : Mutex.Leveled k) :
    Succeeds k k.pendSVHandler := by
  set k₁ : Kernel := { k with port := { k.port with pendSV := false, masked := true } } with hk₁
  have hport : Succeeds k k₁ := succeeds_port k rfl
  have hselect : Succeeds k₁ k₁.selectHighestPriorityTask :=
    (hk.succeeds hport).select (h k.currentTask |>.trans_lt (by decide))
  exact (hport.trans hselect).trans (succeeds_port k₁.selectHighestPriorityTask rfl)

end Kernel

open Kernel

/-! ## The calls -/

section
variable {k : Kernel} (hin : k.isInsideInterrupt = false) (hl : Mutex.Leveled k)
include hin hl

omit hl in
theorem TaskCall.clean_step (c : TaskCall) : Clean k (TaskCall.step k c).1 := by
  cases c with
  | sleep t n => exact (clean_assert hin).trans (.region (clean_addSleepingTask t n))
  | sleepYield => exact clean_yield k
  | yield => exact clean_taskYield hin
  | yieldReturn => exact .refl k

omit hin in
theorem Semaphore.clean_signalRegion (s : Semaphore) : Clean k (signalRegion k s).1 := by
  have henter := (clean_enterCritical k).leveled hl
  unfold signalRegion
  dsimp only
  split_ifs
  · exact .region (clean_setTaskReady henter _)
  · exact clean_region k
  · exact clean_region k

omit hin in
theorem Semaphore.clean_flushLoop (n : ℕ) (s : Semaphore) : Clean k (flushLoop n k s).1 := by
  induction n generalizing k s with
  | zero => exact .refl k
  | succ n ih =>
    unfold flushLoop
    split_ifs
    · have hready := clean_setTaskReady hl s.waitingQueue.dequeue.1
      exact hready.trans (ih (hready.leveled hl) _)
    · exact .refl k

omit hin in
theorem Semaphore.clean_flushRegion (s : Semaphore) : Clean k (flushRegion k s).1 :=
  .region (clean_flushLoop ((clean_enterCritical k).leveled hl) _ s)

theorem Semaphore.clean_step (s : Semaphore) (c : Call) : Clean k (step k s c).1 := by
  cases c with
  | wait n =>
    simp only [step]
    split_ifs <;> exact clean_assert hin
  | waitRegion n e =>
    simp only [step]
    obtain ⟨-, hr⟩ | ⟨-, hr⟩ | ⟨-, hr⟩ := waitRegion_cases k s n e <;> rw [hr]
    · exact clean_region k
    · exact clean_region k
    · exact .region (clean_resetTaskReady ((clean_enterCritical k).leveled hl) _ _)
  | waitYield => exact clean_yield k
  | waitReturn => exact .refl k
  | signal => exact clean_signalRegion hl s
  | signalReady => exact clean_setState k.currentTask .eReady
  | signalWord p => exact clean_setReadyWord hl p
  | signalBitmap p => exact clean_of_sameSchedule (sameSchedule_markPriority k p) rfl rfl
  | signalYield => exact clean_yield k
  | signalReturn => exact .refl k
  | flush => exact clean_flushRegion hl s

/-- A wait queue of an event group: without null pointers, and nothing has been dequeued. -/
def EventGroup.Queued (g : EventGroup) : Prop := g.waitingTasks.Plain ∧ g.waitingTasks.head = 0

omit hin in
theorem EventGroup.clean_setLoop (n i : ℕ) {g : EventGroup} (hg : g.Queued) :
    Clean k (setLoop n i k g).1 ∧ (setLoop n i k g).2.Queued := by
  induction n generalizing i k g with
  | zero => exact ⟨.refl k, hg⟩
  | succ n ih =>
    unfold setLoop
    by_cases hi : i < g.waitingTasks.getSize
    · have hsize : i < g.waitingTasks.size := hi
      rw [if_pos hi, hg.1.getAt hg.2 hi]
      dsimp only
      generalize g.waitingTasks.pointers.get _ = t
      split_ifs
      · have hready := clean_setTaskReady hl (some t)
        have hwake : Clean k (wake k t) := hready.trans (clean_modifyTask t rfl rfl rfl)
        obtain ⟨hrest, hq⟩ := ih (hwake.leveled hl) i
          (g := { g with waitingTasks := g.waitingTasks.removeAt i })
          ⟨hg.1.plain_removeAt hg.2 hi, hg.2⟩
        exact ⟨hwake.trans hrest, hq⟩
      · exact ih hl (i + 1) hg
    · rw [if_neg hi]
      exact ⟨.refl k, hg⟩

omit hin in
theorem EventGroup.clean_setRegion {g : EventGroup} (hg : g.Queued) (f : BitVec 32) :
    Clean k (setRegion k g f).1 ∧ (setRegion k g f).2.Queued := by
  have hset : Queued { g with eventFlags := g.eventFlags ||| f } := hg
  have henter := (clean_enterCritical k).leveled hl
  obtain ⟨hloop, hq⟩ := clean_setLoop henter g.waitingTasks.getSize 0 hset
  unfold setRegion
  exact ⟨hloop.region, hq⟩

omit hin hl in
theorem EventGroup.queued_removeTask (t : TaskPtr) (n i : ℕ) {q : Fifo (Option TaskPtr) maxTasks}
    (h : q.Plain) (h0 : q.head = 0) :
    (removeTask t n i q).Plain ∧ (removeTask t n i q).head = 0 := by
  induction n generalizing i with
  | zero => exact ⟨h, h0⟩
  | succ n ih =>
    unfold removeTask
    split_ifs with hi
    · exact ⟨h.plain_removeAt h0 hi, h0⟩
    · exact ih (i + 1)
    · exact ⟨h, h0⟩

omit hin in
theorem EventGroup.clean_step {g : EventGroup} (hg : g.Queued) (c : Call) :
    Clean k (step k g c).1 ∧ (step k g c).2.1.Queued := by
  cases c with
  | waitForEvents f n =>
    simp only [step]
    obtain ⟨-, hr⟩ | ⟨-, -, hr⟩ | ⟨-, -, hr⟩ := waitRegion_cases k g f n <;> rw [hr]
    · exact ⟨clean_region k, hg⟩
    · exact ⟨clean_region k, hg⟩
    · refine ⟨.region ((clean_setState _ _).trans (clean_modifyTask _ rfl rfl rfl)), ?_⟩
      by_cases hroom : g.waitingTasks.size < maxTasks
      · refine ⟨hg.1.enqueue _ hroom, ?_⟩
        change (g.waitingTasks.enqueue _).head = 0
        rw [Fifo.enqueue, if_pos hroom]
        exact hg.2
      · unfold Queued
        change (g.waitingTasks.enqueue _).Plain ∧ (g.waitingTasks.enqueue _).head = 0
        rw [Fifo.enqueue_of_full _ _ hroom]
        exact hg
  | waitYield f e p => exact ⟨clean_yield k, hg⟩
  | waitLoop f e p =>
    have hremove := queued_removeTask p g.waitingTasks.getSize 0 hg.1 hg.2
    simp only [step, loopRegion]
    split_ifs
    · exact ⟨clean_region k, hremove⟩
    · exact ⟨clean_region k, hremove⟩
    · exact ⟨clean_region k, hg⟩
  | setEvents f =>
    simp only [step]
    exact clean_setRegion hl hg f
  | setYield => exact ⟨clean_yield k, hg⟩
  | setReturn => exact ⟨.refl k, hg⟩
  | clearEvents f => exact ⟨clean_region k, hg⟩

end

/-! ## The system -/

namespace Objects

/-- Ids and ready bits belong to registered tasks, no assertion has failed so far, and the queues
of mutexes and event groups hold no null pointers. -/
structure Flawless (o : Objects) : Prop where
  numbered : o.kernel.Numbered
  mutexes : ∀ m, (o.mutexes m).blockedTasks.Plain
  eventGroups : ∀ g, (o.eventGroups g).Queued

theorem flawless_init (u : Setup) : Flawless (init u) :=
  ⟨numbered_new u.idleTask u.assigned, fun _ => .new (by decide), fun _ => ⟨.new (by decide), rfl⟩⟩

variable {o : Objects} (h : o.Flawless)
include h

theorem Flawless.kernel {k : Kernel} (hk : Succeeds o.kernel k) :
    Flawless { o with kernel := k } :=
  ⟨h.numbered.succeeds hk, h.mutexes, h.eventGroups⟩

theorem Flawless.setEventGroup {k : Kernel} (hk : Succeeds o.kernel k) (g : ℕ) {grp : EventGroup}
    (hg : grp.Queued) : (o.setEventGroup k g grp).Flawless := by
  refine ⟨h.numbered.succeeds hk, h.mutexes, fun g' => ?_⟩
  simp only [Objects.setEventGroup, Function.update_apply]
  split_ifs
  · exact hg
  · exact h.eventGroups g'

/-- No step of a call fails an assertion. An owned mutex has an owner to dereference. -/
theorem Flawless.step (hl : Mutex.Leveled o.kernel)
    (howner : ∀ m, 0 < (o.mutexes m).count → (o.mutexes m).owner ≠ none) (c : Call) :
    (o.step c).1.Flawless := by
  have hin := h.numbered.outside
  cases c with
  | task c => exact h.kernel (TaskCall.clean_step hin c).succeeds
  | semaphore s c =>
    exact ⟨h.numbered.succeeds (Semaphore.clean_step hin hl (o.semaphores s) c).succeeds, h.mutexes,
      h.eventGroups⟩
  | mutex m c =>
    refine ⟨h.numbered.succeeds (Mutex.succeeds_step h.numbered hl (h.mutexes m) (howner m) c),
      fun m' => ?_, h.eventGroups⟩
    simp only [Objects.step, Objects.setMutex, Function.update_apply]
    split_ifs
    · exact Mutex.plain_step (h.mutexes m) c
    · exact h.mutexes m'
  | eventGroup g c =>
    obtain ⟨hk, hq⟩ := EventGroup.clean_step hl (h.eventGroups g) c
    exact h.setEventGroup hk.succeeds g hq

theorem Flawless.interrupt (hs : Sound o) (e : Interrupt) : (o.interrupt e).Flawless := by
  have hl : Mutex.Leveled o.kernel := hs.registry.level_le
  cases e with
  | pendSV => exact h.kernel (succeeds_pendSVHandler h.numbered hl)
  | sysTick =>
    exact h.kernel (clean_sysTickHandler hl h.numbered.outside hs.registry.alarms).succeeds
  | addTask t =>
    exact ⟨h.numbered.addTask ((hl t).trans_lt (by decide)), h.mutexes, h.eventGroups⟩
  | isr c =>
    cases c with
    | signal s =>
      exact ⟨h.numbered.succeeds (Semaphore.clean_signalRegion hl (o.semaphores s)).succeeds,
        h.mutexes, h.eventGroups⟩
    | flush s =>
      exact ⟨h.numbered.succeeds (Semaphore.clean_flushRegion hl (o.semaphores s)).succeeds,
        h.mutexes, h.eventGroups⟩
    | setEvents g f =>
      obtain ⟨hk, hq⟩ := EventGroup.clean_setRegion hl (h.eventGroups g) f
      exact h.setEventGroup (hk.trans (clean_yield _)).succeeds g hq
    | clearEvents g f => exact h.setEventGroup (clean_region _).succeeds g (h.eventGroups g)

end Objects

namespace system
open Objects

theorem flawless_reached {u : Setup} {es : List Event} (h : Run u es) :
    (reached u es).shared.Flawless := by
  have hreached (es : List Event) (hes : Run u es) :
      Sound (reached u es).shared ∧ Owned (reached u es) :=
    ⟨(sound_reached hes).1, owned_reached hes⟩
  refine Machine.invariant_of_reached (I := fun s : State => s.shared.Flawless)
    (J := fun s => Sound s.shared ∧ Owned s) hreached ?_ (flawless_init u) h
  rintro a s ⟨hsound, howned⟩ hf -
  cases a with
  | invoke t c => exact hf
  | env e => exact hf.interrupt hsound e
  | exec t =>
    simp only [Protocol.machine, Protocol.apply]
    cases s.call t with
    | none => exact hf
    | some c =>
      refine hf.step hsound.registry.level_le (fun m hcount => ?_) c
      rcases howned.held m with ⟨h0, -⟩ | ⟨-, v, hv⟩
      · omega
      · rw [hv]
        exact Option.some_ne_none v

/-- In no run of the system does an assertion fail or a null pointer get dereferenced: whatever
priorities the application assigns, however tasks and interrupt handlers use semaphores, mutexes
and event groups, sleep, and are switched. -/
theorem no_fault {u : Setup} {es : List Event} (h : Run u es) :
    (reached u es).shared.kernel.fault = false :=
  (flawless_reached h).numbered.fault

theorem no_fault_circle : (reached twoTasks circleRun).shared.kernel.fault = false :=
  no_fault (by decide +kernel)

end system

end CppRtos
