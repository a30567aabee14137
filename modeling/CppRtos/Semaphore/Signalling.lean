import CppRtos.Kernel.Agreement
import CppRtos.Semaphore

/-! Signalling from a task, followed by the choice of the next task: the caller competes with
the tasks it has woken and with all other ready tasks. -/
namespace CppRtos

namespace Kernel

theorem insideInterrupt_port (k : Kernel) (p : Port) (nesting : ℕ) (masked underflow : Bool) :
    ({ k with port := { p with
        nestingCounter := nesting
        masked := masked
        exitUnderflow := underflow } } : Kernel).isInsideInterrupt = p.insideInterrupt := rfl

theorem isInsideInterrupt_enterCritical (k : Kernel) :
    k.enterCritical.isInsideInterrupt = k.isInsideInterrupt := by
  unfold enterCritical Port.enterCritical
  exact insideInterrupt_port k k.port _ _ _

theorem isInsideInterrupt_exitCritical (k : Kernel) :
    k.exitCritical.isInsideInterrupt = k.isInsideInterrupt := by
  unfold exitCritical Port.exitCritical
  exact insideInterrupt_port k k.port _ _ _

theorem port_foldl_setTaskReady (ts : List (Option TaskPtr)) (k : Kernel) :
    (ts.foldl (fun k t => k.setTaskReady t) k).port = k.port := by
  induction ts generalizing k with
  | nil => rfl
  | cons t ts ih => rw [List.foldl_cons, ih, port_setTaskReady]

theorem sameParameters_foldl_setTaskReady (ts : List (Option TaskPtr)) (k : Kernel) :
    SameParameters k (ts.foldl (fun k t => k.setTaskReady t) k) := by
  induction ts generalizing k with
  | nil => exact .refl k
  | cons t ts ih => exact (sameParameters_setTaskReady k t).trans (ih _)

theorem sameTable_foldl_setTaskReady (ts : List (Option TaskPtr)) (k : Kernel) :
    SameTable k (ts.foldl (fun k t => k.setTaskReady t) k) := by
  induction ts generalizing k with
  | nil => exact .refl k
  | cons t ts ih => exact (sameTable_setTaskReady k t).trans (ih _)

theorem getState_foldl_wake (ts : List (Option TaskPtr)) (k : Kernel) (u : TaskPtr) :
    (ts.foldl (fun k t => k.setTaskReady t) k).getState u =
      if some u ∈ ts then .eReady else k.getState u := by
  induction ts generalizing k with
  | nil => rfl
  | cons t ts ih =>
    rw [List.foldl_cons, ih]
    cases t with
    | none => simp [Kernel.setTaskReady]
    | some t =>
      rw [getState_setTaskReady]
      by_cases hu : some u ∈ ts
      · simp [hu]
      · by_cases hut : u = t <;> simp [hu, hut]

end Kernel

namespace Semaphore

/-- At most `n` steps of a call, up to its return. -/
def run : ℕ → Kernel → Semaphore → Call → Kernel × Semaphore × Outcome Call SemResult
  | 0, k, s, c => (k, s, .next c)
  | n + 1, k, s, c =>
    match step k s c with
    | (k, s, .next c) => run n k s c
    | (k, s, .ret r) => (k, s, .ret r)

/-- The tasks that a call of `signal` or `flush` wakes. -/
def woken (s : Semaphore) : Call → List (Option TaskPtr)
  | .signal => s.waitingQueue.toList.take 1
  | .flush => s.waitingQueue.toList
  | _ => []

/-- A call of `signal`, or one of `flush` that finds a waiter. -/
def Signals (s : Semaphore) (c : Call) : Prop :=
  c = .signal ∨ c = .flush ∧ 0 < s.waitingQueue.size

/-- The tasks among which the next one is chosen after a call. -/
def Competes (k : Kernel) (s : Semaphore) (c : Call) (t : TaskPtr) : Prop :=
  t = k.currentTask ∨ some t ∈ s.woken c ∨ k.Registered t ∧ k.getState t = .eReady

/-- The schedule after a call that wakes the tasks `ts` and then its caller. -/
structure Signalled (k k' : Kernel) (ts : List (Option TaskPtr)) : Prop where
  agrees : k.Agrees → (∀ t ∈ ts, k.RegisteredOrNull t) → k'.Agrees
  table : Kernel.SameTable k k'
  parameters : Kernel.SameParameters k k'
  getState : ∀ t, k'.getState t =
    if t = k.currentTask ∨ some t ∈ ts then .eReady else k.getState t

theorem signalled_wake (k : Kernel) (ts : List (Option TaskPtr)) : Signalled k
    (((ts.foldl (fun k t => k.setTaskReady t) k.enterCritical).exitCritical.setTaskReady
      (some k.currentTask)).yield) ts := by
  have henter := Kernel.sameSchedule_enterCritical k
  set k₁ := ts.foldl (fun k t => k.setTaskReady t) k.enterCritical
  have htab := henter.toSameTable.trans (Kernel.sameTable_foldl_setTaskReady ts k.enterCritical)
  have hpar := henter.toSameParameters.trans
    (Kernel.sameParameters_foldl_setTaskReady ts k.enterCritical)
  have hexit := Kernel.sameSchedule_exitCritical k₁
  have hself := Kernel.sameTable_setTaskReady k₁.exitCritical (some k.currentTask)
  have hselfp := Kernel.sameParameters_setTaskReady k₁.exitCritical (some k.currentTask)
  have hyield := Kernel.sameSchedule_yield (k₁.exitCritical.setTaskReady (some k.currentTask))
  have htab₂ := htab.trans hexit.toSameTable
  constructor
  · intro h hts
    have h₁ : k₁.Agrees := (h.same henter).foldl_setTaskReady ts fun t ht =>
      (henter.registeredOrNull t).mpr (hts t ht)
    have hcur : k₁.exitCritical.Registered k.currentTask :=
      (htab₂.registered k.currentTask).mpr h.current
    exact ((h₁.same hexit).setTaskReady hcur).same hyield
  · exact htab₂.trans (hself.trans hyield.toSameTable)
  · exact (hpar.trans hexit.toSameParameters).trans (hselfp.trans hyield.toSameParameters)
  · intro t
    rw [hyield.getState, Kernel.getState_setTaskReady, hexit.getState,
      Kernel.getState_foldl_wake, henter.getState]
    by_cases ht : t = k.currentTask <;> by_cases hm : some t ∈ ts <;> simp [ht, hm]

theorem signalRegion_woken (k : Kernel) {s : Semaphore} (hq : s.waitingQueue.WellFormed) :
    (signalRegion k s).1 =
      ((s.woken .signal).foldl (fun k t => k.setTaskReady t) k.enterCritical).exitCritical := by
  unfold woken
  by_cases hs : 0 < s.waitingQueue.size
  · rw [signalRegion_of_queued hs, Fifo.toList_dequeue hq hs]
    rfl
  · have hnil : s.waitingQueue.toList = [] := by
      rw [← List.length_eq_zero_iff, Fifo.length_toList]
      omega
    rw [signalRegion_of_empty (by omega), hnil]
    rfl

theorem flushRegion_woken (k : Kernel) {s : Semaphore} (hq : s.waitingQueue.WellFormed) :
    (flushRegion k s).1 =
      ((s.woken .flush).foldl (fun k t => k.setTaskReady t) k.enterCritical).exitCritical := by
  obtain ⟨q, -, -, h⟩ := flushRegion_eq k hq
  rw [h]
  rfl

theorem isInsideInterrupt_region (k : Kernel) (ts : List (Option TaskPtr)) :
    (ts.foldl (fun k t => k.setTaskReady t) k.enterCritical).exitCritical.isInsideInterrupt =
      k.isInsideInterrupt := by
  rw [Kernel.isInsideInterrupt_exitCritical]
  unfold Kernel.isInsideInterrupt
  rw [Kernel.port_foldl_setTaskReady]
  exact Kernel.isInsideInterrupt_enterCritical k

/-- Without an interruption the steps from `signalReady` on make up `setTaskReady`, which a
`yield` follows. -/
theorem run_signalReady (k : Kernel) (s : Semaphore)
    (hlevel : (k.getPriority k.currentTask).level < maxPrioryLevels) :
    run 4 k s .signalReady =
      ((k.setTaskReady (some k.currentTask)).yield, s, .next .signalReturn) := by
  have hstate : ((k.setState k.currentTask .eReady).getPriority k.currentTask).level =
      (k.getPriority k.currentTask).level :=
    congrArg Prod.fst (k.slot_setState k.currentTask .eReady)
  rw [Kernel.setTaskReady_eq, if_pos hlevel]
  simp only [run, step, hstate, if_pos hlevel]

/-- Five steps lead a call that signals behind its `yield`. -/
theorem run_signals {k : Kernel} {s : Semaphore} {c : Call} (hq : s.waitingQueue.WellFormed)
    (hi : k.isInsideInterrupt = false)
    (hlevel : (k.getPriority k.currentTask).level < maxPrioryLevels) (hc : s.Signals c) :
    (run 5 k s c).2.2 = .next .signalReturn ∧ Signalled k (run 5 k s c).1 (s.woken c) := by
  have hin := isInsideInterrupt_region k (s.woken c)
  have hregion := (Kernel.sameSchedule_enterCritical k).toSameParameters.trans
    ((Kernel.sameParameters_foldl_setTaskReady (s.woken c) _).trans
      (Kernel.sameSchedule_exitCritical _).toSameParameters)
  have hcur : (((s.woken c).foldl (fun k t => k.setTaskReady t)
      k.enterCritical).exitCritical).currentTask = k.currentTask :=
    ((Kernel.sameSchedule_enterCritical k).toSameTable.trans
      ((Kernel.sameTable_foldl_setTaskReady _ _).trans
        (Kernel.sameSchedule_exitCritical _).toSameTable)).currentTask
  have hw := signalled_wake k (s.woken c)
  rw [hi] at hin
  have hready : ∀ s', run 4 ((s.woken c).foldl (fun k t => k.setTaskReady t)
      k.enterCritical).exitCritical s' .signalReady = _ := fun s' =>
    run_signalReady _ s' (by rwa [hcur, hregion.priority])
  rcases hc with rfl | ⟨rfl, hs⟩
  · rw [← signalRegion_woken k hq] at hin hcur hw hready
    have hfirst : run 5 k s .signal =
        run 4 (signalRegion k s).1 (signalRegion k s).2 .signalReady := by
      rw [run]
      simp only [step, hin, Bool.false_eq_true, if_false]
    rw [hfirst, hready, hcur]
    exact ⟨rfl, hw⟩
  · have hany : (flushRegion k s).2.2 = true := by
      obtain ⟨q, -, -, h⟩ := flushRegion_eq k hq
      rw [h, Fifo.isEmpty, Bool.not_eq_true', beq_eq_false_iff_ne]
      omega
    rw [← flushRegion_woken k hq] at hin hcur hw hready
    have hfirst : run 5 k s .flush =
        run 4 (flushRegion k s).1 (flushRegion k s).2.1 .signalReady := by
      rw [run]
      simp only [step, hin, hany, Bool.not_false, Bool.and_true, if_true]
    rw [hfirst, hready, hcur]
    exact ⟨rfl, hw⟩

/-- After a call that signals, the scheduler takes the first of the competing tasks; the
caller goes on if it is that one, and else is ready and listed. -/
theorem signalling_keeps_order {k : Kernel} {s : Semaphore} {c : Call} (h : k.Agrees)
    (hi : k.isInsideInterrupt = false) (hl : k.AboveIdle k.currentTask)
    (hq : s.waitingQueue.WellFormed) (hw : ∀ t, some t ∈ s.waitingQueue.toList → k.Registered t)
    (hc : s.Signals c) :
    let k' := (run 5 k s c).1.selectHighestPriorityTask
    (run 5 k s c).2.2 = .next .signalReturn ∧ Competes k s c k'.currentTask ∧
      (∀ t, Competes k s c t →
        (k'.getPriority k'.currentTask).level ≤ (k'.getPriority t).level) ∧
      ((∀ t, Competes k s c t → t ≠ k.currentTask → k.getPriority t < k.getPriority k.currentTask) →
        k'.currentTask = k.currentTask) ∧
      (k'.currentTask = k.currentTask ↔ ∀ t, Competes k s c t → k.Precedes k.currentTask t) ∧
      (k'.currentTask ≠ k.currentTask → k'.getState k.currentTask = .eReady ∧
        k'.readyBit (k'.slot k.currentTask).1 (k'.slot k.currentTask).2 = true) := by
  have hlevel : (k.getPriority k.currentTask).level < maxPrioryLevels := h.level_lt _ h.current
  obtain ⟨hout, hs⟩ := run_signals hq hi hlevel hc
  set k₁ := (run 5 k s c).1
  intro k'
  have hwoken : ∀ t, some t ∈ s.woken c → k.Registered t := by
    intro t ht
    refine hw t ?_
    rcases hc with rfl | ⟨rfl, -⟩
    · exact List.mem_of_mem_take ht
    · exact ht
  have h₁ : k₁.Agrees := by
    refine hs.agrees h fun t ht u hu => hwoken u ?_
    rwa [← hu]
  have hready : ∀ t, k₁.Registered t ∧ k₁.getState t = .eReady ↔ Competes k s c t := by
    intro t
    rw [hs.table.registered, hs.getState]
    unfold Competes
    constructor
    · rintro ⟨hreg, hst⟩
      split_ifs at hst with hwake
      · exact hwake.imp_right .inl
      · exact .inr (.inr ⟨hreg, hst⟩)
    · rintro (rfl | ht | ⟨hreg, hst⟩)
      · exact ⟨h.current, if_pos (.inl rfl)⟩
      · exact ⟨hwoken t ht, if_pos (.inr ht)⟩
      · exact ⟨hreg, by rw [hst, ite_self]⟩
  obtain ⟨hcreg, hcready⟩ := (hready k.currentTask).mpr (.inl rfl)
  have habove : k₁.AboveIdle k.currentTask := by
    unfold Kernel.AboveIdle
    rw [hs.parameters.priority]
    exact hl
  obtain ⟨u, hu, hd, h'⟩ := h₁.select_next hcreg hcready habove
  have hcur : k'.currentTask = u := hd.currentTask
  have hprio : ∀ t, k'.getPriority t = k.getPriority t :=
    fun t => (hd.parameters.priority t).trans (hs.parameters.priority t)
  have hprec : ∀ t t', k₁.Precedes t t' ↔ k.Precedes t t' := by
    intro t t'
    unfold Kernel.Precedes
    rw [hs.parameters.priority, hs.parameters.priority, hs.parameters.id, hs.parameters.id]
  have hfirst : ∀ t, Competes k s c t → k.Precedes u t := by
    intro t ht
    obtain ⟨hreg, hst⟩ := (hready t).mpr ht
    exact (hprec u t).mp (hu.first t hreg hst)
  have hcomp : Competes k s c u := (hready u).mp ⟨hu.registered, hu.ready⟩
  have hstays : u = k.currentTask ↔ ∀ t, Competes k s c t → k.Precedes k.currentTask t := by
    constructor
    · rintro rfl
      exact hfirst
    · intro hall
      exact Kernel.Precedes.antisymm h.toTabled ((hs.table.registered u).mp hu.registered) h.current
        (hfirst _ (.inl rfl)) (hall u hcomp)
  rw [hcur]
  refine ⟨hout, hcomp, fun t ht => ?_, fun hall => ?_, hstays, fun hne => ?_⟩
  · rw [hprio, hprio]
    rcases hfirst t ht with hlt | ⟨heq, -⟩
    · exact hlt.le
    · exact heq.le
  · by_contra hne
    have hlt := (TaskPriority.lt_iff _ _).mp (hall u hcomp hne)
    have hle := hfirst k.currentTask (.inl rfl)
    unfold Kernel.Precedes at hle
    omega
  · have hst : k'.getState k.currentTask = .eReady := by
      have hrun₁ : k₁.getState k₁.currentTask ≠ .eRunning := by
        rw [hs.table.currentTask, hcready]
        decide
      refine (hd.states k.currentTask (Ne.symm hne) fun hr => absurd hr hrun₁).trans hcready
    have hreg' : k'.Registered k.currentTask := by
      unfold Kernel.Registered
      rw [hd.tasks]
      exact hcreg
    exact ⟨hst, h'.readyListed k.currentTask hreg' hst⟩

/-- Task 1 is running and task 2, of the same priority, waits for the semaphore. -/
def pairKernel : Kernel :=
  (Kernel.started 2).selectHighestPriorityTask.resetTaskReady (some 2) .eBlocked

def pairSemaphore : Semaphore := { new 1 0 with waitingQueue := Fifo.new.enqueue (some 2) }

theorem pairKernel_spec : pairKernel.Agrees ∧ pairKernel.Registered 2 ∧
    pairKernel.AboveIdle pairKernel.currentTask := by
  have hstart := Kernel.agrees_started (n := 2) (by decide)
  have hs := Kernel.started_spec (n := 2) (by decide)
  obtain ⟨u, hu, hd, h⟩ := hstart.select_next ((hs.registered 1).mpr (by decide)) (hs.state 1)
    (by rw [Kernel.AboveIdle, hs.priority 1 (by decide)]; decide)
  have hreg : (Kernel.started 2).selectHighestPriorityTask.Registered 2 := by
    unfold Kernel.Registered
    rw [hd.tasks]
    exact (hs.registered 2).mpr le_rfl
  have htab := Kernel.sameTable_resetTaskReady (Kernel.started 2).selectHighestPriorityTask 2
    .eBlocked
  refine ⟨h.resetTaskReady hreg (by decide), (htab.registered 2).mpr hreg, ?_⟩
  unfold pairKernel Kernel.AboveIdle
  rw [htab.currentTask, (Kernel.sameParameters_resetTaskReady _ 2 _).priority,
    hd.parameters.priority, hd.currentTask]
  exact hu.aboveIdle

theorem pairSemaphore_waits : pairSemaphore.waitingQueue.WellFormed ∧
    pairSemaphore.waitingQueue.toList = [some 2] := by
  have hnew : (Fifo.new : Fifo (Option TaskPtr) maxTasks).WellFormed := .new (by decide)
  exact ⟨hnew.enqueue _, Fifo.toList_enqueue hnew _ (by decide)⟩

theorem signalling_keeps_order_pair :
    let k' := (run 5 pairKernel pairSemaphore .signal).1.selectHighestPriorityTask
    Competes pairKernel pairSemaphore .signal k'.currentTask := by
  obtain ⟨h, hreg, hl⟩ := pairKernel_spec
  obtain ⟨hq, hlist⟩ := pairSemaphore_waits
  refine (signalling_keeps_order h (by decide +kernel) hl hq (fun t ht => ?_) (.inl rfl)).2.1
  rw [hlist, List.mem_singleton] at ht
  cases ht
  exact hreg

/-- The caller goes on although its priority is not strictly the highest: it has the lower
id. It is not ready then, and has no bit. -/
theorem signal_tie : pairKernel.Agrees ∧ pairKernel.currentTask = 1 ∧
    pairKernel.getState 1 = .eRunning ∧ pairKernel.AboveIdle pairKernel.currentTask ∧
    pairSemaphore.waitingQueue.toList = [some 2] ∧
    ¬ pairKernel.getPriority 2 < pairKernel.getPriority 1 ∧
    let k' := (run 5 pairKernel pairSemaphore .signal).1.selectHighestPriorityTask
    k'.getState 2 = .eReady ∧ k'.currentTask = 1 ∧ k'.getState 1 = .eRunning ∧
      k'.readyBit (k'.slot 1).1 (k'.slot 1).2 = false := by
  refine ⟨pairKernel_spec.1, by decide +kernel, by decide +kernel, pairKernel_spec.2.2,
    pairSemaphore_waits.2, by decide +kernel, by decide +kernel⟩

end Semaphore

end CppRtos
