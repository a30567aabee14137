import CppRtos.Kernel.Agreement
import CppRtos.System.Readying

/-! The representation invariant of the scheduler: the ready table and the control blocks
say the same, through every operation that schedules. Priorities stay as registered. -/
namespace CppRtos

namespace Kernel

/-- The invariant `R` of the scheduler. -/
structure Represents (k : Kernel) : Prop where
  taskCount_le : k.taskCount ≤ 32
  occupied : ∀ i < k.taskCount, ∃ t, k.tasks i = some t ∧ (k.taskData t).id = i
  distinct : ∀ i j t, k.tasks i = some t → k.tasks j = some t → i = j
  null : ∀ i, k.taskCount ≤ i → k.tasks i = none
  ready : ∀ p < 16, ∀ i < 32, k.readyBit p i = true ↔ i < k.taskCount ∧
    ∃ t, k.tasks i = some t ∧ k.getState t = .eReady ∧ (k.getPriority t).level = p
  highest : ∀ p i, p < k.highestTaskPriority.level → k.readyBit p i = false
  current : ∃ i < k.taskCount, k.tasks i = some k.currentTask
  running : ∀ i t, k.tasks i = some t → k.getState t = .eRunning → t = k.currentTask

theorem Registry.represents {k : Kernel} (h : Registry k) (he : Stands Standing.Exact k)
    (hr : k.RunningIsCurrent) : Represents k where
  taskCount_le := h.taskCount_le
  occupied i hi := by
    obtain ⟨t, ht⟩ := h.occupied i hi
    exact ⟨t, ht, h.slot_id i t ht⟩
  distinct i j t hi hj := (h.slot_id i t hi).symm.trans (h.slot_id j t hj)
  null i hi := by
    cases ht : k.tasks i with
    | none => rfl
    | some t => exact absurd (h.slot_lt i t ht) (not_lt.mpr hi)
  ready p _ i _ := by
    have hbit : ∀ t, k.tasks i = some t →
        (k.readyBit p i = true ↔ k.getState t = .eReady ∧ p = (k.getPriority t).level) := by
      intro t ht
      have hexact := he t ⟨i, ht⟩ p
      rwa [standing, Set.mem_ofPred_eq, h.slot_id i t ht] at hexact
    constructor
    · intro hb
      obtain ⟨t, ht⟩ := h.bits p i hb
      obtain ⟨hs, hp⟩ := (hbit t ht).mp hb
      exact ⟨h.slot_lt i t ht, t, ht, hs, hp.symm⟩
    · rintro ⟨-, t, ht, hs, hp⟩
      exact (hbit t ht).mpr ⟨hs, hp.symm⟩
  highest p i hp := by
    rw [Bool.eq_false_iff]
    exact fun hb => absurd (h.highest_le_bit hb) (not_le.mpr hp)
  current := by
    obtain ⟨i, hi⟩ := h.current
    exact ⟨i, h.slot_lt i _ hi, hi⟩
  running i t ht hs := hr t ⟨i, ht⟩ hs

end Kernel

namespace Objects

/-- The operations of the scheduler, of semaphores and of event groups, and sleeping. A call
is performed point by point; the points may come in any order, and with them all calls. The
`setTaskReady` of `signal` and `flush` is one operation. -/
inductive Operation where
  | addTask (t : TaskPtr)
  | setTaskReady (t : TaskPtr)
  | resetTaskReady (t : TaskPtr)
  | tick
  | sysTick
  | selectHighestPriorityTask
  | semaphore (s : ℕ) (c : Semaphore.Call)
  | eventGroup (g : ℕ) (c : EventGroup.Call)
  | task (c : TaskCall)
deriving DecidableEq, Repr

/-- Fresh tasks are added; `setTaskReady` and `resetTaskReady` are called on registered tasks,
`sleep` and `waitForEvents` by the current task while it is running. -/
def Operation.Allowed (o : Objects) : Operation → Prop
  | .addTask t => ∀ i < maxTasks, o.kernel.tasks i ≠ some t
  | .setTaskReady t | .resetTaskReady t => ∃ i < maxTasks, o.kernel.tasks i = some t
  | .task (.sleep self _) =>
    self = o.kernel.currentTask ∧ o.kernel.getState o.kernel.currentTask = .eRunning
  | .eventGroup _ (.waitForEvents _ _) => o.kernel.getState o.kernel.currentTask = .eRunning
  | .semaphore s c => (Call.semaphore s c).unentered = false
  | _ => True

def perform (o : Objects) : Operation → Objects
  | .addTask t => { o with kernel := o.kernel.addTask t }
  | .setTaskReady t => { o with kernel := o.kernel.setTaskReady (some t) }
  | .resetTaskReady t => { o with kernel := o.kernel.resetTaskReady (some t) .eBlocked }
  | .tick => { o with kernel := o.kernel.tick }
  | .sysTick => { o with kernel := o.kernel.sysTickHandler }
  | .selectHighestPriorityTask => { o with kernel := o.kernel.selectHighestPriorityTask }
  | .semaphore _ .signalReady =>
    { o with kernel := o.kernel.setTaskReady (some o.kernel.currentTask) }
  | .semaphore s c => (o.step (.semaphore s c)).1
  | .eventGroup g c => (o.step (.eventGroup g c)).1
  | .task c => (o.step (.task c)).1

def scheduling : Machine Objects Operation where
  guard a o := a.Allowed o
  apply a o := o.perform a

instance (o : Objects) : DecidablePred (Operation.Allowed o) := fun a =>
  match a with
  | .addTask t => inferInstanceAs (Decidable (∀ i < maxTasks, o.kernel.tasks i ≠ some t))
  | .setTaskReady t | .resetTaskReady t =>
    inferInstanceAs (Decidable (∃ i < maxTasks, o.kernel.tasks i = some t))
  | .task (.sleep _ _) => inferInstanceAs (Decidable (_ ∧ _))
  | .eventGroup _ (.waitForEvents _ _) =>
    inferInstanceAs (Decidable (o.kernel.getState o.kernel.currentTask = .eRunning))
  | .semaphore s c => inferInstanceAs (Decidable ((Call.semaphore s c).unentered = false))
  | .tick | .sysTick | .selectHighestPriorityTask | .task .sleepYield
  | .task .yield | .task .yieldReturn | .eventGroup _ (.waitYield _ _ _)
  | .eventGroup _ (.waitLoop _ _ _) | .eventGroup _ (.setEvents _) | .eventGroup _ .setYield
  | .eventGroup _ .setReturn | .eventGroup _ (.clearEvents _) =>
    inferInstanceAs (Decidable True)

instance : ∀ a o, Decidable (scheduling.guard a o) := fun a o =>
  inferInstanceAs (Decidable (Operation.Allowed o a))

/-- The permit of the operations: no priorities are raised, and the state is set directly
only for a task that is not ready. -/
abbrev unboosted : Kernel.Permit := .of (fun v => v.state ≠ .eReady) (fun _ => False)

theorem Operation.Allowed.moves {o : Objects} {a : Operation} (h : a.Allowed o)
    (hr : o.kernel.Registry) (hq : o.Entries) :
    Kernel.Moves unboosted o.kernel (o.perform a).kernel ∧ (o.perform a).Entries := by
  have hkernel : ∀ {k : Kernel}, Kernel.Moves unboosted o.kernel k →
      Kernel.Moves unboosted o.kernel k ∧ Entries { o with kernel := k } :=
    fun hm => ⟨hm, hq.kernel fun u hu => hm.registered hr hu⟩
  have hrun : ∀ {s}, o.kernel.getState o.kernel.currentTask = .eRunning →
      o.kernel.getState o.kernel.currentTask = s → s ≠ .eReady := by
    rintro s hs rfl hready
    rw [hs] at hready
    cases hready
  cases a with
  | addTask t =>
    have ht : ¬ o.kernel.Registered t := by
      rintro ⟨i, hi⟩
      exact h i ((hr.slot_lt i t hi).trans_le hr.taskCount_le) hi
    exact hkernel (Kernel.moves_addTask _ hr ht)
  | setTaskReady t =>
    obtain ⟨i, -, hi⟩ := h
    exact hkernel (.effect (.run (.ready t) ⟨i, hi⟩))
  | resetTaskReady t =>
    obtain ⟨i, -, hi⟩ := h
    exact hkernel (.effect (.run (.block t) ⟨i, hi⟩))
  | tick => exact hkernel (.effect (.tick hr.alarms))
  | sysTick => exact hkernel (Kernel.moves_sysTickHandler _ hr)
  | selectHighestPriorityTask =>
    obtain ⟨-, hs⟩ | ⟨p, i, t, hs⟩ := hr.select
    · exact hkernel (.effect (.same hs))
    · exact hkernel (.switch p i t hs)
  | semaphore s c =>
    by_cases hsp : c.splits = true
    · cases c with
      | signalReady => exact hkernel (.effect (.run (.ready o.kernel.currentTask) hr.current))
      | signalWord p => cases h
      | _ => cases hsp
    · have hperform : o.perform (.semaphore s c) = (o.step (.semaphore s c)).1 := by
        cases c with
        | signalReady => exact absurd rfl hsp
        | _ => rfl
      obtain ⟨he, hs⟩ := Semaphore.step_effect (P := unboosted) hr.current (hq.semaphores s)
        (c := c) (fun hsplits => absurd hsplits hsp) fun p hc => absurd (hc ▸ rfl) hsp
      rw [hperform]
      exact ⟨.effect he, hq.setSemaphore s (fun u hu => (he.sameTable.registered u).mpr hu) hs⟩
  | eventGroup g c =>
    obtain ⟨he, hg⟩ := EventGroup.step_effect (P := unboosted) hr.current (hq.eventGroups g)
      (c := c) fun f n hc => by
        subst hc
        exact hrun h rfl
    exact ⟨.effect he, hq.setEventGroup g (fun u hu => (he.sameTable.registered u).mpr hu) hg⟩
  | task c =>
    have he := task_effect (P := unboosted) hr.current c fun self n hc => by
      subst hc
      exact ⟨h.1, hrun h.2 rfl⟩
    exact hkernel (.effect he)

/-- The representation invariant holds after every operation of every run from the
constructor on. -/
theorem represents_of_run (u : Setup) {es : List Operation}
    (h : scheduling.Valid (init u) es) : (scheduling.exec (init u) es).kernel.Represents := by
  have hinv : (scheduling.exec (init u) es).kernel.Registry ∧
      (scheduling.exec (init u) es).Entries ∧
      Kernel.Stands Standing.Exact (scheduling.exec (init u) es).kernel ∧
      (scheduling.exec (init u) es).kernel.RunningIsCurrent := by
    refine Machine.invariant (M := scheduling) (I := fun o => o.kernel.Registry ∧ o.Entries ∧
      Kernel.Stands Standing.Exact o.kernel ∧ o.kernel.RunningIsCurrent) ?_ ?_ h
    · rintro a o ⟨hr, hq, hs, hrun⟩ ha
      obtain ⟨hm, hq'⟩ := ha.moves hr hq
      exact ⟨hm.registry hr, hq', hm.stands Standing.closed_exact hr hs,
        hm.runningIsCurrent hr hrun⟩
    · have hinit := sound_init u
      exact ⟨hinit.registry, hinit.entries,
        Kernel.stands_new (Standing.closed_exact.added 15 le_rfl) _ _,
        Kernel.runningIsCurrent_new _ _⟩
  exact hinv.1.represents hinv.2.2.1 hinv.2.2.2

/-- Two tasks of different priorities: one waits for an event, the other one for a semaphore,
and both are woken. -/
theorem represents_wait :
    let u : Setup := { idleTask := 0, assigned := fun t => if t = 1 then .high else .low }
    (scheduling.exec (init u) [.addTask 1, .addTask 2, .selectHighestPriorityTask,
      .eventGroup 0 (.waitForEvents 1 5), .selectHighestPriorityTask,
      .semaphore 0 (.waitRegion 5 9), .eventGroup 0 (.setEvents 3), .selectHighestPriorityTask,
      .task (.sleep 1 1), .semaphore 0 .signal, .semaphore 0 .signalReady, .sysTick,
      .sysTick]).kernel.Represents :=
  represents_of_run _ (by decide +kernel)

end Objects

end CppRtos
