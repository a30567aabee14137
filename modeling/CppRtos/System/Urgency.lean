import CppRtos.Library.Spread
import CppRtos.System.Deadlock
import CppRtos.System.Inheritance

/-! Where the priority of a task comes from: its own assignment, and that of every task whose
urgency has reached it through the owners of mutexes. -/
namespace CppRtos

namespace Objects

/-- The owner of the mutex on which the step goes on to wait. -/
def contended (o : Objects) : Call → Option TaskPtr
  | .mutex m (.acquireLoop forever endTime _) =>
    if 0 < (o.mutexes m).count ∧ Mutex.timedOut o.kernel forever endTime = false then
      (o.mutexes m).owner
    else none
  | _ => none

/-- The level of each task, 0 for the highest priority. -/
def levels (o : Objects) (t : TaskPtr) : ℕ := (o.kernel.getPriority t).level

variable {o : Objects} {t : TaskPtr} {c : Call}

theorem boosts_iff (hl : InCall t c o) {u : TaskPtr} :
    o.boosts c = some u ↔ o.contended c = some u ∧ o.levels t < o.levels u := by
  cases c with
  | mutex m c =>
    cases c with
    | acquireLoop f e p =>
      obtain rfl : p = t := hl.names
      dsimp only [boosts, contended, levels, Mutex.boosted]
      split_ifs
      · rw [Option.filter_eq_some_iff, decide_eq_true_eq, TaskPriority.lt_iff]
      · simp
    | _ => exact iff_of_false nofun fun h => nomatch h.1
  | _ => exact iff_of_false nofun fun h => nomatch h.1

/-- A step spreads the level of its task to the owner that it waits for. -/
theorem levels_step (hs : Sound o) (hl : InCall t c o) (hcur : o.kernel.currentTask = t) :
    (o.step c).1.levels = match o.contended c with
      | some u => Spread.meet o.levels t u
      | none => o.levels := by
  have hstep : ∀ v, (o.step c).1.levels v = if o.boosts c = some v then o.levels t else
      o.levels v := by
    intro v
    unfold levels
    rw [step_priority hs hl hcur]
    split_ifs <;> rfl
  funext v
  rw [hstep]
  cases hc : o.contended c with
  | none =>
    rw [if_neg]
    rw [boosts_iff hl, hc]
    exact fun h => nomatch h.1
  | some u =>
    by_cases hv : v = u
    · subst hv
      change _ = Spread.meet o.levels t v v
      rw [Spread.meet, Function.update_self]
      by_cases hlt : o.levels t < o.levels v
      · rw [if_pos ((boosts_iff hl).mpr ⟨hc, hlt⟩), min_eq_right hlt.le]
      · rw [if_neg fun h => hlt ((boosts_iff hl).mp h).2, min_eq_left (not_lt.mp hlt)]
    · change _ = Spread.meet o.levels t u v
      rw [Spread.meet, Function.update_of_ne hv, if_neg]
      intro h
      exact hv (Option.some.inj (hc.symm.trans ((boosts_iff hl).mp h).1)).symm

theorem levels_interrupt (hs : Sound o) {e : Interrupt} (hg : Interrupts e o) :
    (o.interrupt e).levels = o.levels := by
  obtain ⟨hm, -, -⟩ := interrupt_moves (P := .unraised) hs hg
  funext v
  exact congrArg TaskPriority.level (hm.priority_of_not_boost fun _ => id)

end Objects

namespace system
open Objects

/-- The tasks whose urgency has reached each task. -/
abbrev Sources := TaskPtr → Set TaskPtr

def observeSources (e : Event) (s _s' : State) (r : Sources) : Sources :=
  match e with
  | .exec t =>
    match (s.call t).bind s.shared.contended with
    | some u => Spread.reach r t u
    | none => r
  | _ => r

/-- At the start each task has its own urgency only. -/
def sources (u : Setup) (es : List Event) : Sources :=
  ((system.machine.withHistory observeSources).exec (init u, fun t => {t}) es).2

/-- The levels are the best of those that have arrived. -/
def Arrived (u : Setup) (s : State × Sources) : Prop :=
  ∀ t, IsLeast ((Objects.init u).levels '' s.2 t) (s.1.shared.levels t)

theorem arrived_apply {u : Setup} {s : State × Sources}
    (hs : Protocol.Holds Sound Local s.1) (h : Arrived u s) {e : Event}
    (hg : system.machine.guard e s.1) :
    Arrived u ((system.machine.withHistory observeSources).apply e s) := by
  cases e with
  | invoke t c => exact h
  | env e =>
    intro t
    change IsLeast _ ((s.1.shared.interrupt e).levels t)
    rw [levels_interrupt hs.1 hg]
    exact h t
  | exec t =>
    obtain ⟨c, hc, hen⟩ := Protocol.call_of_guard (P := system) hg
    have hlevels := levels_step hs.1 (hs.2 t c hc) hen.1
    intro v
    simp only [Machine.withHistory, Protocol.machine, Protocol.apply, observeSources, hc,
      Option.bind_some]
    change IsLeast _ ((s.1.shared.step c).1.levels v)
    rw [hlevels]
    cases s.1.shared.contended c with
    | none => exact h v
    | some w => exact Spread.isLeast_meet h t w v

theorem sources_subset (u : Setup) (es fs : List Event) (t : TaskPtr) :
    sources u es t ⊆ sources u (es ++ fs) t := by
  unfold sources
  rw [Machine.exec_append]
  generalize (system.machine.withHistory observeSources).exec (init u, fun t => {t}) es = s
  induction fs generalizing s with
  | nil => exact subset_rfl
  | cons e fs ih =>
    refine Set.Subset.trans ?_ (ih _)
    cases e with
    | exec v =>
      change s.2 t ⊆ (match (s.1.call v).bind s.1.shared.contended with
        | some w => Spread.reach s.2 v w
        | none => s.2) t
      cases (s.1.call v).bind s.1.shared.contended with
      | none => exact subset_rfl
      | some w => exact Spread.subset_reach s.2 v w t
    | _ => exact subset_rfl

/-- In every state of every run, the priority of a task is the highest of those assigned to the
tasks whose urgency has reached it: itself, and every task that has gone on to wait for a mutex
which it owned then, with all that had reached that task. None of it is ever given back. -/
theorem priority_best {u : Setup} {es fs : List Event} (h : Run u (es ++ fs)) (t : TaskPtr) :
    IsLeast ((Objects.init u).levels '' sources u es t) ((reached u es).shared.levels t) ∧
      sources u es t ⊆ sources u (es ++ fs) t ∧
      (reached u (es ++ fs)).shared.levels t ≤ (reached u es).shared.levels t := by
  have hall : ∀ es, Run u es →
      IsLeast ((Objects.init u).levels '' sources u es t) ((reached u es).shared.levels t) := by
    intro es hes
    have hreached : ∀ gs, (system.machine.withHistory observeSources).Valid
        (init u, fun t => {t}) gs → Protocol.Holds Sound Local
          ((system.machine.withHistory observeSources).exec (init u, fun t => {t}) gs).1 := by
      intro gs hgs
      have hrun : Run u gs := (Machine.valid_withHistory _ _ _ _).mp hgs
      rw [Machine.exec_withHistory_fst]
      exact sound_reached hrun
    have hstart : Arrived u (init u, fun t => {t}) := by
      intro v
      rw [Set.image_singleton]
      exact isLeast_singleton
    have hvalid := (Machine.valid_withHistory system.machine observeSources
      (init u, fun t => {t}) es).mpr hes
    have harrived := Machine.invariant_of_reached (I := Arrived u) hreached
      (fun e s hs hi hg => arrived_apply hs hi hg) hstart hvalid t
    rwa [Machine.exec_withHistory_fst] at harrived
  have hes : Run u es := ((Machine.valid_append _ _ _ _).mp h).1
  have hsub := sources_subset u es fs t
  exact ⟨hall es hes, hsub, (hall _ h).2 (Set.image_mono hsub (hall es hes).1)⟩

/-- Task 2 waits for task 1, which then releases the mutex and keeps the higher priority. -/
theorem priority_best_released :
    let es := contentionRun 0
    let fs : List Event := [.exec 2, .env .pendSV, .invoke 1 (.mutex 0 .release), .exec 1, .exec 1,
      .exec 1]
    (reached twoTasks es).shared.levels 1 < (Objects.init twoTasks).levels 1 ∧
      (reached twoTasks (es ++ fs)).shared.levels 1 ≤ (reached twoTasks es).shared.levels 1 :=
  ⟨by decide +kernel, (priority_best (by decide +kernel) 1).2.2⟩

end system

end CppRtos
