import CppRtos.System.Sound

/-! Which task a call of `selectHighestPriorityTask` leaves current, in any state that the
system reaches. -/
namespace CppRtos

namespace Kernel

/-- The task that is current after a selection may execute; when no task above the idle
level is ready and the current task waits, it is the idle task. -/
structure SelectsRunnable (k : Kernel) : Prop where
  runnable : ¬ (k.selectHighestPriorityTask.getState
    k.selectHighestPriorityTask.currentTask).Waiting
  idle : ¬ k.AppReady → (k.getState k.currentTask).Waiting →
    k.selectHighestPriorityTask.currentTask = k.idleTask

/-- With an empty table above the idle level the selection changes nothing, whatever the
state of the current task is. -/
theorem Registry.select_of_not_appReady {k : Kernel} (h : Registry k) (hn : ¬ k.AppReady) :
    SameSchedule k k.selectHighestPriorityTask := by
  obtain ⟨-, hs⟩ | ⟨p, i, t, hs⟩ := h.select
  · exact hs
  · exact absurd ⟨p, i, hs.first.level_lt, hs.first.bit⟩ hn

theorem Registry.running_of_appReady {k : Kernel} (h : Registry k) (ha : k.AppReady) :
    k.selectHighestPriorityTask.getState k.selectHighestPriorityTask.currentTask =
      .eRunning := by
  obtain ⟨hn, -⟩ | ⟨p, i, t, hs⟩ := h.select
  · exact absurd ha hn
  · rw [hs.getState, if_pos hs.currentTask]

theorem Registry.selectsRunnable_iff {k : Kernel} (h : Registry k) :
    k.SelectsRunnable ↔ k.AppReady ∨ ¬ (k.getState k.currentTask).Waiting := by
  by_cases ha : k.AppReady
  · have hrun := h.running_of_appReady ha
    refine iff_of_true ⟨?_, fun hn => absurd ha hn⟩ (.inl ha)
    rw [hrun]
    decide
  · have hsame := h.select_of_not_appReady ha
    have hstate : k.selectHighestPriorityTask.getState
        k.selectHighestPriorityTask.currentTask = k.getState k.currentTask := by
      rw [hsame.currentTask, hsame.getState]
    constructor
    · intro hr
      have hw := hr.runnable
      rw [hstate] at hw
      exact .inr hw
    · intro hc
      have hw := hc.resolve_left ha
      exact ⟨by rwa [hstate], fun _ hwait => absurd hwait hw⟩

end Kernel

namespace system

/-- In every reachable state, a selection leaves a task current that may execute, if and
only if a task above the idle level is ready or the current task does not wait. -/
theorem selects_runnable_iff {u : Setup} {es : List Event} (h : Run u es) :
    (reached u es).shared.kernel.SelectsRunnable ↔
      (reached u es).shared.kernel.AppReady ∨
        ¬ ((reached u es).shared.kernel.getState
          (reached u es).shared.kernel.currentTask).Waiting :=
  (sound_reached h).1.registry.selectsRunnable_iff

/-- The only task above the idle level goes to sleep and requests a context switch. -/
def sleepRun : List Event :=
  [.env (.addTask 1), .env .sysTick, .env .pendSV, .invoke 1 (.task (.sleep 1 5)), .exec 1,
    .exec 1]

/-- In the switch that the sleeping task has requested, it stays current. -/
theorem sleepRun_not_runnable :
    let u : Setup := { idleTask := 0, assigned := fun _ => .high }
    let k := (reached u sleepRun).shared.kernel
    Run u sleepRun ∧ k.port.pendSV = true ∧ k.selectHighestPriorityTask.currentTask = 1 ∧
      k.selectHighestPriorityTask.getState 1 = .eSleeping ∧ ¬ k.SelectsRunnable := by
  refine ⟨by decide +kernel, by decide +kernel, by decide +kernel, by decide +kernel, fun h => ?_⟩
  exact absurd (.inr (.inl (by decide +kernel))) h.runnable

/-- With a second task added before the switch, that task is selected. -/
theorem selects_runnable_second :
    let u : Setup := { idleTask := 0, assigned := fun _ => .high }
    let es : List Event := sleepRun ++ [.env (.addTask 2)]
    (reached u es).shared.kernel.SelectsRunnable ↔
      (reached u es).shared.kernel.AppReady ∨
        ¬ ((reached u es).shared.kernel.getState
          (reached u es).shared.kernel.currentTask).Waiting :=
  selects_runnable_iff (by decide +kernel)

end system

end CppRtos
