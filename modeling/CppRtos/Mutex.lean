import CppRtos.Semaphore

/-! Mutexes with priority inheritance, split at critical regions and at the tests made
outside them. -/
namespace CppRtos

structure Mutex where
  count : ℤ
  owner : Option TaskPtr
  blockedTasks : Fifo (Option TaskPtr) maxTasks

namespace Mutex

def new : Mutex := ⟨0, none, Fifo.new⟩

inductive MutexResult where
  | success | errorCalledFromISR | timeout | alreadyOwned | notOwner
deriving DecidableEq, Repr

/-- Points inside `acquire` and `release`. `acquireLoop` is the head of the `while` loop
with the locals of the call, `acquireYield` stands before the `yield` at its end. -/
inductive Call where
  | acquire (ticksTimeout : ℕ)
  | acquireStart (ticksTimeout : ℕ) (ptrTaskData : TaskPtr)
  | acquireLoop (forever : Bool) (endTime : ℕ) (ptrTaskData : TaskPtr)
  | acquireYield (forever : Bool) (endTime : ℕ) (ptrTaskData : TaskPtr)
  | release
  | releaseOwner
  | releaseRegion (ptrTaskData : TaskPtr)
  | releaseYield
  | releaseReturn
deriving DecidableEq, Repr

/-- The boost of the owner in the blocking path of `acquire`. -/
def inheritPriority (k : Kernel) (m : Mutex) (ptrTaskData : TaskPtr) : Kernel :=
  match m.owner with
  | none => k.assert false
  | some owner =>
    if k.getPriority owner < k.getPriority ptrTaskData then
      k.modifyTask owner (·.setPriority (k.getPriority ptrTaskData))
    else k

/-- The body of the loop of `acquire`. The successful branch enters twice. -/
def acquireRegion (k : Kernel) (m : Mutex) (forever : Bool) (endTime : ℕ)
    (ptrTaskData : TaskPtr) : Kernel × Mutex × Outcome Call MutexResult :=
  let k := k.enterCritical
  if m.count ≤ 0 then
    let k := k.enterCritical
    let m := { m with count := m.count + 1, owner := some ptrTaskData }
    (k.exitCritical, m, .ret .success)
  else if !forever && decide (k.getTickCount > endTime) then
    (k.exitCritical, m, .ret .timeout)
  else
    let k := inheritPriority k m ptrTaskData
    if !m.blockedTasks.isFull then
      let k :=
        if k.getState ptrTaskData = .eRunning then k.resetTaskReady (some ptrTaskData) .eBlocked
        else k
      let m := { m with blockedTasks := m.blockedTasks.enqueue (some ptrTaskData) }
      (k.exitCritical, m, .next (.acquireYield forever endTime ptrTaskData))
    else (k.exitCritical, m, .next (.acquireYield forever endTime ptrTaskData))

/-- The loop of `isAnyTaskBlocking` over the cells that are left. It dereferences each of them. -/
def blockingLoop (k : Kernel) (priority : TaskPriority) : List (Option TaskPtr) → Kernel × Bool
  | [] => (k, false)
  | none :: cells => blockingLoop (k.assert false) priority cells
  | some ptrTask :: cells =>
    if k.getPriority ptrTask == priority then (k, true) else blockingLoop k priority cells

/-- `isAnyTaskBlocking` reads the queue by raw index. -/
def isAnyTaskBlocking (k : Kernel) (m : Mutex) (priority : TaskPriority) : Kernel × Bool :=
  blockingLoop k priority ((List.range m.blockedTasks.getSize).map m.blockedTasks.getAt)

/-- The critical region of `release`, entered by the owner only. -/
def releaseRegion (k : Kernel) (m : Mutex) (ptrTaskData : TaskPtr) : Kernel × Mutex :=
  let k := k.enterCritical
  let m := { m with count := m.count - 1, owner := none }
  if !m.blockedTasks.isEmpty then
    let unblocked := m.blockedTasks.dequeue
    let m := { m with blockedTasks := unblocked.2 }
    let k := k.setTaskReady unblocked.1
    match unblocked.1 with
    | none => ((k.assert false).exitCritical, m)
    | some ptrUnblockedTask =>
      let blocking := isAnyTaskBlocking k m (k.getPriority ptrUnblockedTask)
      let k := blocking.1
      let k := if !blocking.2 then k.modifyTask ptrTaskData (·.resetPriority) else k
      (k.exitCritical, m)
  else (k.exitCritical, m)

def step (k : Kernel) (m : Mutex) : Call → Kernel × Mutex × Outcome Call MutexResult
  | .acquire ticksTimeout =>
    let k := k.assert (!k.isInsideInterrupt)
    let ptrTaskData := k.currentTask
    if m.owner = some ptrTaskData then (k, m, .ret .alreadyOwned)
    else (k, m, .next (.acquireStart ticksTimeout ptrTaskData))
  | .acquireStart ticksTimeout ptrTaskData =>
    if k.isInsideInterrupt then (k, m, .ret .errorCalledFromISR)
    else (k, m, .next (.acquireLoop (ticksTimeout == waitForever)
      ((ticksTimeout + k.getTickCount) % 2 ^ 64) ptrTaskData))
  | .acquireLoop forever endTime ptrTaskData => acquireRegion k m forever endTime ptrTaskData
  | .acquireYield forever endTime ptrTaskData =>
    (k.yield, m, .next (.acquireLoop forever endTime ptrTaskData))
  | .release =>
    let k := k.assert (!k.isInsideInterrupt)
    if m.owner = none then (k, m, .ret .success)
    else if k.isInsideInterrupt then (k, m, .ret .errorCalledFromISR)
    else (k, m, .next .releaseOwner)
  | .releaseOwner =>
    let ptrTaskData := k.currentTask
    if m.owner = some ptrTaskData then (k, m, .next (.releaseRegion ptrTaskData))
    else (k, m, .ret .notOwner)
  | .releaseRegion ptrTaskData =>
    let r := releaseRegion k m ptrTaskData
    (r.1, r.2, .next .releaseYield)
  | .releaseYield => (k.yield, m, .next .releaseReturn)
  | .releaseReturn => (k, m, .ret .success)

/-! ## What the critical regions do -/

/-- The test of the time limit in the loop of `acquire`. -/
def timedOut (k : Kernel) (forever : Bool) (endTime : ℕ) : Bool :=
  !forever && decide (k.getTickCount > endTime)

/-- The kernel after the task has been given up to the scheduler. -/
def blockSelf (k : Kernel) (p : TaskPtr) : Kernel :=
  if k.getState p = .eRunning then k.resetTaskReady (some p) .eBlocked else k

/-- A round of the loop takes the free mutex, runs out of time, queues the task, or finds
the queue full. -/
theorem acquireRegion_cases (k : Kernel) (m : Mutex) (forever : Bool) (endTime : ℕ)
    (p : TaskPtr) :
    (m.count ≤ 0 ∧ acquireRegion k m forever endTime p =
      (k.enterCritical.enterCritical.exitCritical,
        { m with count := m.count + 1, owner := some p }, .ret .success)) ∨
    (0 < m.count ∧ timedOut k forever endTime = true ∧ acquireRegion k m forever endTime p =
      (k.enterCritical.exitCritical, m, .ret .timeout)) ∨
    (0 < m.count ∧ timedOut k forever endTime = false ∧ ¬ m.blockedTasks.size = maxTasks ∧
      acquireRegion k m forever endTime p =
        ((blockSelf (inheritPriority k.enterCritical m p) p).exitCritical,
          { m with blockedTasks := m.blockedTasks.enqueue (some p) },
          .next (.acquireYield forever endTime p))) ∨
    (0 < m.count ∧ timedOut k forever endTime = false ∧ m.blockedTasks.size = maxTasks ∧
      acquireRegion k m forever endTime p =
        ((inheritPriority k.enterCritical m p).exitCritical, m,
          .next (.acquireYield forever endTime p))) := by
  have htime : timedOut k forever endTime =
      (!forever && decide (k.enterCritical.getTickCount > endTime)) := rfl
  by_cases hc : m.count ≤ 0
  · exact .inl ⟨hc, by simp only [acquireRegion, if_pos hc]⟩
  · refine .inr ?_
    have hpos : 0 < m.count := by omega
    simp only [acquireRegion, if_neg hc, ← htime]
    cases ht : timedOut k forever endTime with
    | true => exact .inl ⟨hpos, rfl, by rw [if_pos rfl]⟩
    | false =>
      refine .inr ?_
      by_cases hf : m.blockedTasks.size = maxTasks
      · refine .inr ⟨hpos, rfl, hf, ?_⟩
        simp only [Fifo.isFull, hf, beq_self_eq_true, Bool.not_true, Bool.false_eq_true, if_false]
      · refine .inl ⟨hpos, rfl, hf, ?_⟩
        simp only [Fifo.isFull, beq_eq_false_iff_ne.mpr hf, Bool.not_false, Bool.false_eq_true,
          if_false, if_true]
        rfl

/-- Either the owner gets the priority of the task, or nothing that matters happens. -/
theorem inheritPriority_cases (k : Kernel) (m : Mutex) (p : TaskPtr) :
    (∃ o, m.owner = some o ∧ k.getPriority o < k.getPriority p ∧
      inheritPriority k m p = k.modifyTask o (·.setPriority (k.getPriority p))) ∨
    ((∀ o, m.owner = some o → ¬ k.getPriority o < k.getPriority p) ∧
      Kernel.SameSchedule k (inheritPriority k m p)) := by
  cases ho : m.owner with
  | none =>
    refine .inr ⟨by simp, ?_⟩
    simp only [inheritPriority, ho]
    exact Kernel.sameSchedule_assert k _
  | some o =>
    by_cases hlt : k.getPriority o < k.getPriority p
    · exact .inl ⟨o, rfl, hlt, by simp only [inheritPriority, ho, if_pos hlt]⟩
    · refine .inr ⟨fun o' ho' => Option.some.inj ho' ▸ hlt, ?_⟩
      simp only [inheritPriority, ho, if_neg hlt]
      exact .refl k

theorem getState_inheritPriority (k : Kernel) (m : Mutex) (p t : TaskPtr) :
    (inheritPriority k m p).getState t = k.getState t := by
  obtain ⟨o, -, hlt, h⟩ | ⟨-, h⟩ := inheritPriority_cases k m p
  · rw [h]
    exact Kernel.modifyTask_congr k o (g := TaskData.state)
      (by rw [TaskData.setPriority_of_lt _ hlt]) t
  · exact h.getState t

def Takes (m : Mutex) : Call → Prop
  | .acquireLoop _ _ _ => m.count ≤ 0
  | _ => False

instance (m : Mutex) : DecidablePred m.Takes := fun c =>
  match c with
  | .acquireLoop _ _ _ => inferInstanceAs (Decidable (m.count ≤ 0))
  | .acquire _ | .acquireStart _ _ | .acquireYield _ _ _ | .release | .releaseOwner
  | .releaseRegion _ | .releaseYield | .releaseReturn => inferInstanceAs (Decidable False)

/-- The owner whose priority the step raises. -/
def boosted (k : Kernel) (m : Mutex) : Call → Option TaskPtr
  | .acquireLoop forever endTime p =>
    if 0 < m.count ∧ timedOut k forever endTime = false then
      m.owner.filter fun o => decide (k.getPriority o < k.getPriority p)
    else none
  | _ => none

theorem boosted_acquireLoop {k : Kernel} {m : Mutex} {f : Bool} {e : ℕ} {p t : TaskPtr}
    (hc : 0 < m.count) (ht : timedOut k f e = false) :
    boosted k m (.acquireLoop f e p) = some t ↔
      ∃ o, m.owner = some o ∧ k.getPriority o < k.getPriority p ∧ o = t := by
  simp only [boosted, hc, ht, and_self, if_true, Option.filter_eq_some_iff, decide_eq_true_eq]
  constructor
  · rintro ⟨ho, hlt⟩
    exact ⟨t, ho, hlt, rfl⟩
  · rintro ⟨o, ho, hlt, rfl⟩
    exact ⟨ho, hlt⟩

theorem boosted_cases {k : Kernel} {m : Mutex} {c : Call} {u : TaskPtr}
    (h : boosted k m c = some u) : ∃ f e p, c = .acquireLoop f e p ∧ 0 < m.count ∧
      timedOut k f e = false ∧ m.owner = some u ∧ k.getPriority u < k.getPriority p := by
  cases c with
  | acquireLoop f e p =>
    have hc : 0 < m.count ∧ timedOut k f e = false := by
      by_contra hno
      rw [boosted, if_neg hno] at h
      cases h
    obtain ⟨o, ho, hlt, rfl⟩ := (boosted_acquireLoop hc.1 hc.2).mp h
    exact ⟨f, e, p, rfl, hc.1, hc.2, ho, hlt⟩
  | _ => cases h

theorem sameParameters_blockSelf (k : Kernel) (p : TaskPtr) :
    Kernel.SameParameters k (blockSelf k p) := by
  rw [blockSelf]
  split_ifs
  · exact Kernel.sameParameters_resetTaskReady k p _
  · exact .refl k

theorem blockingLoop_snd (k : Kernel) (prio : TaskPriority) (cells : List (Option TaskPtr)) :
    (blockingLoop k prio cells).2 = cells.any fun c => c.any fun t => k.getPriority t == prio := by
  induction cells generalizing k with
  | nil => rfl
  | cons c cells ih =>
    cases c with
    | none => exact ih (k.assert false)
    | some t =>
      rw [blockingLoop, List.any_cons, Option.any_some, ← ih]
      cases k.getPriority t == prio <;> rfl

/-- All that the loop does is to dereference the cells that it reads. -/
theorem blockingLoop_fst (k : Kernel) (prio : TaskPriority) (cells : List (Option TaskPtr)) :
    ∃ c, (blockingLoop k prio cells).1 = k.assert c ∧ (none ∉ cells → c = true) := by
  have hdone : k = k.assert true := (Kernel.assert_true k).symm
  induction cells generalizing k with
  | nil => exact ⟨true, hdone, fun _ => rfl⟩
  | cons cell cells ih =>
    cases cell with
    | none =>
      obtain ⟨c, hc, -⟩ := ih (k.assert false) (Kernel.assert_true _).symm
      refine ⟨false, hc.trans ?_, fun hn => absurd List.mem_cons_self hn⟩
      simp [Kernel.assert]
    | some t =>
      rw [blockingLoop]
      split_ifs
      · exact ⟨true, hdone, fun _ => rfl⟩
      · obtain ⟨c, hc, hnull⟩ := ih k hdone
        exact ⟨c, hc, fun hn => hnull fun hm => hn (List.mem_cons_of_mem _ hm)⟩

/-- The cells that `isAnyTaskBlocking` reads have been written. -/
theorem isAnyTaskBlocking_fst (k : Kernel) (m : Mutex) (prio : TaskPriority) :
    ∃ c, (isAnyTaskBlocking k m prio).1 = k.assert c ∧ (m.blockedTasks.Plain → c = true) := by
  obtain ⟨c, hc, hnull⟩ := blockingLoop_fst k prio
    ((List.range m.blockedTasks.getSize).map m.blockedTasks.getAt)
  refine ⟨c, hc, fun h => hnull ?_⟩
  rw [List.mem_map]
  rintro ⟨i, hi, hcell⟩
  exact h.getAt_ne_none (List.mem_range.mp hi) hcell

theorem isAnyTaskBlocking_snd (k : Kernel) (m : Mutex) (prio : TaskPriority) :
    (isAnyTaskBlocking k m prio).2 = (List.range m.blockedTasks.getSize).any fun i =>
      (m.blockedTasks.getAt i).any fun t => k.getPriority t == prio :=
  (blockingLoop_snd k prio _).trans List.any_map

theorem exitCritical_assert (k : Kernel) (p : TaskPtr) (b c : Bool) :
    (if b = true then (k.assert c).modifyTask p (·.resetPriority) else k.assert c).exitCritical =
      (Kernel.exitCritical
        (if b = true then k.modifyTask p (·.resetPriority) else k)).assert c := by
  have hassert : ∀ k' : Kernel, (k'.assert c).exitCritical = k'.exitCritical.assert c := by
    intro k'
    unfold Kernel.exitCritical Kernel.assert
    rfl
  split_ifs
  · exact hassert (k.modifyTask p (·.resetPriority))
  · exact hassert k

/-- `release` frees the mutex and, if a task is queued, wakes the first one. It finds no null
pointer in a queue that has none. -/
theorem releaseRegion_cases (k : Kernel) (m : Mutex) (p : TaskPtr) :
    (m.blockedTasks.size = 0 ∧ releaseRegion k m p =
      (k.enterCritical.exitCritical, { m with count := m.count - 1, owner := none })) ∨
    (0 < m.blockedTasks.size ∧ m.blockedTasks.dequeue.1 = none ∧ releaseRegion k m p =
      ((k.enterCritical.assert false).exitCritical,
        { m with count := m.count - 1, owner := none, blockedTasks := m.blockedTasks.dequeue.2 })) ∨
    (0 < m.blockedTasks.size ∧ ∃ t, m.blockedTasks.dequeue.1 = some t ∧ ∃ b c,
      (m.blockedTasks.Plain → c = true) ∧ releaseRegion k m p =
        ((Kernel.exitCritical (if b = true then
          (k.enterCritical.setTaskReady (some t)).modifyTask p (·.resetPriority)
        else k.enterCritical.setTaskReady (some t))).assert c,
        { m with
          count := m.count - 1
          owner := none
          blockedTasks := m.blockedTasks.dequeue.2 })) := by
  by_cases hz : m.blockedTasks.size = 0
  · exact .inl ⟨hz, by simp [releaseRegion, Fifo.isEmpty, hz]⟩
  · refine .inr ?_
    have he : (!m.blockedTasks.isEmpty) = true := by simp [Fifo.isEmpty, hz]
    simp only [releaseRegion, if_pos he]
    cases hd : m.blockedTasks.dequeue.1 with
    | none => exact .inl ⟨by omega, rfl, rfl⟩
    | some t =>
      set ready := k.enterCritical.setTaskReady (some t)
      set freed : Mutex := ⟨m.count - 1, none, m.blockedTasks.dequeue.2⟩
      obtain ⟨c, hc, hwritten⟩ := isAnyTaskBlocking_fst ready freed (ready.getPriority t)
      refine .inr ⟨by omega, t, rfl, !(isAnyTaskBlocking ready freed (ready.getPriority t)).2, c,
        fun hplain => hwritten ?_, ?_⟩
      · obtain ⟨-, -, -, hrest⟩ := hplain.dequeue (by omega)
        exact hrest
      · dsimp only
        rw [hc]
        exact congrArg (·, freed) (exitCritical_assert ready p _ c)

theorem step_mutex (k : Kernel) (m : Mutex) {c : Call}
    (ha : ∀ f e p, c ≠ .acquireLoop f e p) (hr : ∀ p, c ≠ .releaseRegion p) :
    (step k m c).2.1 = m := by
  cases c with
  | acquireLoop f e p => exact absurd rfl (ha f e p)
  | releaseRegion p => exact absurd rfl (hr p)
  | acquire n => simp only [step]; split_ifs <;> rfl
  | acquireStart n p => simp only [step]; split_ifs <;> rfl
  | acquireYield f e p => rfl
  | release => simp only [step]; split_ifs <;> rfl
  | releaseOwner => simp only [step]; split_ifs <;> rfl
  | releaseYield => rfl
  | releaseReturn => rfl

/-- Outside of them a step changes nothing that scheduling depends on. -/
theorem step_kernel (k : Kernel) (m : Mutex) {c : Call}
    (ha : ∀ f e p, c ≠ .acquireLoop f e p) (hr : ∀ p, c ≠ .releaseRegion p) :
    Kernel.SameSchedule k (step k m c).1 := by
  cases c with
  | acquireLoop f e p => exact absurd rfl (ha f e p)
  | releaseRegion p => exact absurd rfl (hr p)
  | acquire n => simp only [step]; split_ifs <;> exact Kernel.sameSchedule_assert k _
  | acquireStart n p => simp only [step]; split_ifs <;> exact .refl k
  | acquireYield f e p => exact Kernel.sameSchedule_yield k
  | release => simp only [step]; split_ifs <;> exact Kernel.sameSchedule_assert k _
  | releaseOwner => simp only [step]; split_ifs <;> exact .refl k
  | releaseYield => exact Kernel.sameSchedule_yield k
  | releaseReturn => exact .refl k

end Mutex

end CppRtos
