import CppRtos.Kernel.Agreement
import CppRtos.Library.PriorityScheduler
import CppRtos.Library.Refinement
import CppRtos.Library.SlotTable
import CppRtos.System.NoTaskLost
import CppRtos.System.Preemption

/-! The kernel as a priority scheduler: bits, states and control blocks become sets and orders,
and every event becomes an action of the scheduler. -/
namespace CppRtos

namespace Standing

/-- A task in its place that is listed at its level only. -/
theorem Settled.exact {v : Standing} (h : Settled v) (ha : Accurate v) : Exact v :=
  fun p => ⟨fun hp => ⟨h.listed p hp, ha.level p hp⟩, fun ⟨hs, hp⟩ => hp ▸ ha.ready hs⟩

end Standing

namespace Kernel
variable {k k' : Kernel} {t u : TaskPtr}

/-- The schedule without its representation. -/
def schedule (k : Kernel) : PriorityScheduler TaskPtr ℕ where
  order := SlotTable.entries k.taskCount k.tasks
  level t := (k.getPriority t).level
  ready := {t | k.Registered t ∧ k.getState t = .eReady}
  current := k.currentTask
  running := k.getState k.currentTask = .eRunning

/-! ## The order of registration -/

theorem SameSchedule.schedule (h : SameSchedule k k') : k'.schedule = k.schedule := by
  ext
  · simp only [Kernel.schedule, h.taskCount, h.tasks]
  · simp only [Kernel.schedule, h.priority]
  · simp only [Kernel.schedule, h.registered, h.getState]
  · simp only [Kernel.schedule, h.currentTask]
  · simp only [Kernel.schedule, h.currentTask, h.getState]

/-- The permit of the primitives: no priority is raised of a ready task. -/
abbrev unready : Permit where
  split := True
  suspend _ _ := True
  boost k t := k.getState t ≠ .eReady
  suspend_congr _ _ _ _ h := h
  boost_congr _ _ t h hb := by rwa [h.getState]

end Kernel

namespace system
open Objects PriorityScheduler

/-- No context switch comes while the current task is between the first two statements of
`setTaskReady`. -/
def Uninterrupted : Event → State → Prop
  | .env .pendSV, s => ∀ c ∈ s.call s.shared.kernel.currentTask, c.unentered = false
  | _, _ => True

instance : ∀ e s, Decidable (Uninterrupted e s)
  | .env .pendSV, s => inferInstanceAs (Decidable
      (∀ c ∈ s.call s.shared.kernel.currentTask, c.unentered = false))
  | .env .sysTick, _ | .env (.isr _), _ | .env (.addTask _), _ | .invoke _ _, _ | .exec _, _ =>
    inferInstanceAs (Decidable True)

theorem Uninterrupted.completing {e : Event} {s : State} (h : Uninterrupted e s) :
    Completing e s := by
  unfold Completing
  split
  · exact fun _ => h
  · trivial

/-- What holds in a run whose tables agree at every context switch. -/
structure Agreeing (s : State) : Prop where
  governed : Governed s
  stands : StandsBut Standing.Roused Standing.Accurate s
  sole : ∀ t ∈ unentered s.call, t = s.shared.kernel.currentTask

namespace Agreeing
variable {s : State} (h : Agreeing s)
include h

theorem sound : Protocol.Holds Sound Local s :=
  ⟨h.governed.holds.1.1, fun t => (h.governed.holds.2 t).1⟩

theorem apply {e : Event} (hg : system.machine.guard e s) (hd : Dispatching e s)
    (hu : Uninterrupted e s) (hb : BoostsOnly Standing.Unlisted e s) :
    Agreeing (system.machine.apply e s) where
  governed := h.governed.apply hg hd
  stands := accurate_apply h.sound h.stands h.sole hg hu.completing hb
  sole := sole_apply h.sound h.sole hg hu.completing

/-- While the current task is elsewhere, all tasks are in their places. -/
theorem agrees (hu : ∀ c ∈ s.call s.shared.kernel.currentTask, c.unentered = false) :
    s.shared.kernel.Agrees := by
  refine h.sound.1.registry.agrees fun t ht => ?_
  have hout : t ∉ unentered s.call := by
    intro hin
    obtain ⟨c, hc, hun⟩ := id hin
    rw [hu c (h.sole t hin ▸ hc)] at hun
    cases hun
  exact (h.governed.placed.stands t ht hout).exact ((h.stands t ht).2 hout)

theorem unready {t v : TaskPtr} {c : Call} (hc : s.call t = some c) (hr : Runs t s.shared)
    (hb : BoostsOnly Standing.Unlisted (.exec t) s) (hv : s.shared.boosts c = some v) :
    s.shared.kernel.getState v ≠ .eReady := by
  intro hready
  have hun := hb c hc v hv
  cases c with
  | mutex m d =>
    obtain ⟨f, e, p, -, -, -, ho, -⟩ := Mutex.boosted_cases hv
    have hreg := h.sound.1.entries.owners m v ho
    have hout : v ∉ unentered s.call := by
      intro hin
      obtain ⟨c, hc', hun⟩ := id hin
      obtain rfl : v = t := (h.sole v hin).trans hr.1
      obtain rfl := Option.some.inj (hc.symm.trans hc')
      cases hun
    have hlisted := ((h.stands v hreg).2 hout).ready hready
    exact hun _ (Nat.lt_succ_of_le (h.sound.1.registry.level_le v)) hlisted
  | _ => cases hv

end Agreeing

end system

end CppRtos
