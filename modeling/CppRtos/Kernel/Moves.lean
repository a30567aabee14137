import CppRtos.Kernel.Registration
import CppRtos.Kernel.Switch

/-! One step of the system as the kernel sees it: an effect of primitives, a context
switch, or a registration. -/
namespace CppRtos.Kernel

theorem Effect.priority_of_not_boost {P : Permit} {k k' : Kernel} {t : TaskPtr}
    (hP : ∀ k, ¬ P.boost k t) (h : Effect P.Allows k k') :
    k'.getPriority t = k.getPriority t := by
  induction h with
  | same h => exact h.priority t
  | @run k a ha =>
    cases a with
    | ready u => exact (sameParameters_setTaskReady k _).priority t
    | block u => exact (sameParameters_resetTaskReady k u _).priority t
    | rouse u => exact (sameParameters_setState k u _).priority t
    | enter u => exact (sameParameters_setReadyWord k u).priority t
    | suspend u => exact (sameParameters_setState k u _).priority t
    | sleep u n => exact (sameParameters_setState _ u _).priority t
    | wake i => exact (sameParameters_setTaskReady k _).priority t
    | boost u prio =>
      have hne : t ≠ u := by
        rintro rfl
        exact hP k ha.2.1
      rw [Primitive.run, getPriority, taskData_modifyTask, if_neg hne, getPriority]
    | reset u => rw [Primitive.run, modifyTask_resetPriority ha.2]
  | trans _ _ ih ih' => exact ih'.trans ih

/-- No primitive starts a task. -/
theorem Effect.running {P : Permit} {k k' : Kernel} {t : TaskPtr} (h : Effect P.Allows k k')
    (hr : k'.getState t = .eRunning) : k.getState t = .eRunning := by
  have hset : ∀ (k : Kernel) u s, s ≠ TaskStateType.eRunning →
      (k.setState u s).getState t = .eRunning → k.getState t = .eRunning := by
    intro k u s hs hr
    rw [getState_setState] at hr
    split_ifs at hr
    · exact absurd hr hs
    · exact hr
  have hready : ∀ (k : Kernel) u, (k.setTaskReady u).getState t = .eRunning →
      k.getState t = .eRunning := by
    intro k u hr
    cases u with
    | none => exact hr
    | some u =>
      rw [getState_setTaskReady] at hr
      split_ifs at hr
      exact hr
  induction h with
  | same h => rwa [h.getState] at hr
  | @run k a ha =>
    cases a with
    | ready u => exact hready k _ hr
    | block u =>
      rw [Primitive.run, getState_resetTaskReady] at hr
      split_ifs at hr
      exact hr
    | rouse u => exact hset k u _ (by decide) hr
    | enter u => rwa [Primitive.run, getState_setReadyWord] at hr
    | suspend u => exact hset k u _ (by decide) hr
    | sleep u n => exact hset _ u _ (by decide) hr
    | wake i => exact hready k _ hr
    | boost u prio =>
      have hstate := modifyTask_congr k u (f := (·.setPriority prio)) (g := TaskData.state)
        (by rw [TaskData.setPriority_of_lt _ ha.2.2.1]) t
      exact hstate.symm.trans hr
    | reset u => rwa [Primitive.run, modifyTask_resetPriority ha.2] at hr
  | trans _ _ ih ih' => exact ih (ih' hr)

/-- At most one task is running, the current one. -/
def RunningIsCurrent (k : Kernel) : Prop :=
  ∀ t, k.Registered t → k.getState t = .eRunning → t = k.currentTask

inductive Moves (P : Permit) (k k' : Kernel) : Prop
  | effect (h : Effect P.Allows k k')
  | switch (p i : ℕ) (t : TaskPtr) (h : Switches k k' p i t)
  | adds (t : TaskPtr) (hroom : k.taskCount < maxTasks) (ht : ¬ k.Registered t)
    (h : Adds k k' t)

namespace Moves
variable {P : Permit} {k k' : Kernel}

theorem registry (hm : Moves P k k') (h : Registry k) : Registry k' := by
  cases hm with
  | effect he => exact h.effect he
  | switch p i t hs => exact h.switches hs
  | adds t hroom ht ha => exact h.adds hroom ht ha

theorem registered (hm : Moves P k k') (h : Registry k) {t : TaskPtr} (ht : k.Registered t) :
    k'.Registered t := by
  cases hm with
  | effect he => exact (he.sameTable.registered t).mpr ht
  | switch p i u hs => exact ((h.switches_evolves hs).registered t).mpr ht
  | adds u hroom hu ha => exact (h.registered_adds ha t).mpr (.inr ht)

theorem idleTask (hm : Moves P k k') : k'.idleTask = k.idleTask := by
  cases hm with
  | effect he => exact he.sameTable.idleTask
  | switch p i t hs => exact hs.idleTask
  | adds t hroom ht ha => exact ha.idleTask

theorem level_le (hm : Moves P k k') (t : TaskPtr) :
    (k'.getPriority t).level ≤ (k.getPriority t).level := by
  cases hm with
  | effect he => exact he.evolves.level_le t
  | switch p i u hs => rw [hs.parameters.priority]
  | adds u hroom hu ha => rw [ha.priority]

theorem priority_of_not_boost {t : TaskPtr} (hP : ∀ k, ¬ P.boost k t) (hm : Moves P k k') :
    k'.getPriority t = k.getPriority t := by
  cases hm with
  | effect he => exact he.priority_of_not_boost hP
  | switch p i u hs => exact hs.parameters.priority t
  | adds u hroom hu ha => exact ha.priority t

theorem currentTask (hm : Moves P k k') (h : Registry k) : k'.currentTask = k.currentTask ∨
    (k'.getPriority k'.currentTask).level < 15 := by
  cases hm with
  | effect he => exact .inl he.sameTable.currentTask
  | switch p i t hs =>
    refine .inr ?_
    rw [hs.currentTask, hs.parameters.priority]
    have hlevel := h.switches_level hs
    omega
  | adds t hroom ht ha => exact .inl ha.currentTask

theorem runningIsCurrent (hm : Moves P k k') (h : Registry k) (hr : k.RunningIsCurrent) :
    k'.RunningIsCurrent := by
  intro t ht hrun
  cases hm with
  | effect he =>
    rw [he.sameTable.currentTask]
    exact hr t ((he.sameTable.registered t).mp ht) (he.running hrun)
  | switch p i u hs =>
    rw [hs.currentTask]
    rw [hs.getState] at hrun
    split_ifs at hrun with htu hc
    · exact htu
    · have htc := hr t (((h.switches_evolves hs).registered t).mp ht) hrun
      exact absurd ⟨htc, htc ▸ hrun⟩ hc
  | adds u hroom hu ha =>
    rw [ha.getState] at hrun
    rw [ha.currentTask]
    rcases (h.registered_adds ha t).mp ht with rfl | ht
    · rw [h.unregistered t hu] at hrun
      cases hrun
    · exact hr t ht hrun

end Moves

theorem runningIsCurrent_new (idleTask : TaskPtr) (assigned : TaskPtr → TaskPriority) :
    (new idleTask assigned).RunningIsCurrent := by
  intro t _ hrun
  rw [(adds_new idleTask assigned).getState, (priorities_initial idleTask assigned t).2.2] at hrun
  cases hrun

section
variable (P : Permit) {k : Kernel} (h : Registry k)
include h

theorem moves_addTask {t : TaskPtr} (ht : ¬ k.Registered t) : Moves P k (k.addTask t) := by
  by_cases hroom : k.taskCount < maxTasks
  · exact .adds t hroom ht (adds_addTask hroom t ((h.level_le t).trans_lt (by decide)))
  · rw [Registry.addTask_of_full hroom]
    exact .effect (.refl _ k)

theorem moves_pendSVHandler : Moves P k k.pendSVHandler := by
  obtain ⟨-, hs⟩ | ⟨p, i, t, hs⟩ := h.pendSV
  · exact .effect (.same hs)
  · exact .switch p i t hs

theorem moves_sysTickHandler : Moves P k k.sysTickHandler :=
  .effect (.sysTickHandler h.alarms)

end

end CppRtos.Kernel
