import CppRtos.Kernel.ReadyTable

/-! The data effects of the operations on tasks. Every call of an object changes the
schedule through a few primitives; what these preserve, all calls preserve. -/
namespace CppRtos.Kernel

/-- The primitives: the two operations on the ready table, the first two statements of
`setTaskReady` by themselves, the states set directly, the body of the wake-up loop, and the
two changes of priority. -/
inductive Primitive where
  | ready (t : TaskPtr)
  | rouse (t : TaskPtr)
  | enter (t : TaskPtr)
  | block (t : TaskPtr)
  | suspend (t : TaskPtr)
  | sleep (t : TaskPtr) (ticks : ℕ)
  | wake (i : ℕ)
  | boost (t : TaskPtr) (prio : TaskPriority)
  | reset (t : TaskPtr)

def Primitive.run (k : Kernel) : Primitive → Kernel
  | .ready t => k.setTaskReady (some t)
  | .rouse t => k.setState t .eReady
  | .enter t => k.setReadyWord t
  | .block t => k.resetTaskReady (some t) .eBlocked
  | .suspend t => k.setState t .eBlocked
  | .sleep t ticks => k.addSleepingTask t ticks
  | .wake i =>
    { k.setTaskReady (k.tasks i) with
      sleepingTasksBitmap :=
        Words.clearBit (k.setTaskReady (k.tasks i)).sleepingTasksBitmap i }
  | .boost t prio => k.modifyTask t (·.setPriority prio)
  | .reset t => k.modifyTask t (·.resetPriority)

/-- A sequence of permitted primitives, and changes outside of the schedule. -/
inductive Effect (permit : Kernel → Primitive → Prop) : Kernel → Kernel → Prop
  | same {k k' : Kernel} (h : SameSchedule k k') : Effect permit k k'
  | run {k : Kernel} (a : Primitive) (h : permit k a) : Effect permit k (a.run k)
  | trans {k k' k'' : Kernel} (h : Effect permit k k') (h' : Effect permit k' k'') :
    Effect permit k k''

section
variable {permit : Kernel → Primitive → Prop} {k k' : Kernel}

theorem Effect.preserves {I : Kernel → Prop} (hsame : ∀ k k', SameSchedule k k' → I k → I k')
    (hrun : ∀ k a, I k → permit k a → I (a.run k)) (h : Effect permit k k') (hI : I k) : I k' := by
  induction h with
  | same h => exact hsame _ _ h hI
  | run a h => exact hrun _ a hI h
  | trans _ _ ih ih' => exact ih' (ih hI)

theorem Effect.refl (permit : Kernel → Primitive → Prop) (k : Kernel) : Effect permit k k :=
  .same (.refl k)

/-- An effect on the way from one critical section to its end. -/
theorem Effect.region (h : Effect permit k.enterCritical k') : Effect permit k k'.exitCritical :=
  (Effect.same (sameSchedule_enterCritical k)).trans
    (h.trans (.same (sameSchedule_exitCritical k')))

theorem Primitive.sameTable (k : Kernel) (a : Primitive) : SameTable k (a.run k) := by
  cases a with
  | ready t => exact sameTable_setTaskReady k (some t)
  | enter t => exact sameTable_setReadyWord k t
  | block t => exact sameTable_resetTaskReady k t _
  | wake i =>
    have h := sameTable_setTaskReady k (k.tasks i)
    exact ⟨h.tasks, h.currentTask, h.highestTaskPriority, h.taskCount, h.idleTask, h.alarms⟩
  | _ => exact ⟨rfl, rfl, rfl, rfl, rfl, rfl⟩

theorem Effect.sameTable (h : Effect permit k k') : SameTable k k' := by
  induction h with
  | same h => exact h.toSameTable
  | run a _ => exact a.sameTable _
  | trans _ _ ih ih' => exact ih.trans ih'

end

/-! ## Permits -/

/-- Further conditions on the tasks whose state is set directly and on those whose priority
is raised; `split` permits the statements of `setTaskReady` by themselves. -/
structure Permit where
  split : Prop
  suspend : Kernel → TaskPtr → Prop
  boost : Kernel → TaskPtr → Prop
  suspend_congr : ∀ k k' t, SameSchedule k k' → suspend k t → suspend k' t
  boost_congr : ∀ k k' t, SameSchedule k k' → boost k t → boost k' t

/-- Primitives work on registered tasks, priorities are raised to one that is registered,
and a reset finds nothing to reset. -/
def Permit.Allows (P : Permit) (k : Kernel) : Primitive → Prop
  | .ready t | .block t => k.Registered t
  | .rouse t | .enter t => k.Registered t ∧ P.split
  | .suspend t | .sleep t _ => k.Registered t ∧ P.suspend k t
  | .wake _ => True
  | .boost t prio => k.Registered t ∧ P.boost k t ∧ k.getPriority t < prio ∧
      k.highestTaskPriority.level ≤ prio.level
  | .reset t => k.Registered t ∧ k.getBasePriority t = k.getPriority t

def Permit.all : Permit := ⟨True, fun _ _ => True, fun _ _ => True, fun _ _ _ _ _ => trivial,
  fun _ _ _ _ _ => trivial⟩

def Permit.unraised : Permit := ⟨True, fun _ _ => True, fun _ _ => False,
  fun _ _ _ _ _ => trivial, fun _ _ _ _ h => h⟩

def RegisteredOrNull (k : Kernel) (t : Option TaskPtr) : Prop := ∀ u, t = some u → k.Registered u

theorem RegisteredOrNull.some {k : Kernel} {t : TaskPtr} (h : k.Registered t) :
    k.RegisteredOrNull (some t) := fun _ he => Option.some.inj he ▸ h

theorem SameTable.registeredOrNull {k k' : Kernel} (h : SameTable k k') (t : Option TaskPtr) :
    k'.RegisteredOrNull t ↔ k.RegisteredOrNull t := by
  unfold RegisteredOrNull
  simp only [h.registered]

theorem Effect.setTaskReady {P : Permit} {k : Kernel} {t : Option TaskPtr}
    (h : k.RegisteredOrNull t) : Effect P.Allows k (k.setTaskReady t) := by
  cases t with
  | none => exact .refl _ k
  | some t => exact .run (.ready t) (h t rfl)

/-! ## Port and tick -/

theorem Effect.yield {P : Permit} (k : Kernel) : Effect P.Allows k k.yield :=
  .same (sameSchedule_yield k)

theorem Effect.wakeUp {P : Permit} (now : ℕ) (k : Kernel) (i : ℕ) :
    Effect P.Allows k (wakeUp now k i) := by
  unfold Kernel.wakeUp
  split_ifs
  · exact .run (.wake i) trivial
  · exact .refl _ k

/-- A tick, as long as no alarm is registered. -/
theorem Effect.tick {P : Permit} {k : Kernel} (h : ∀ i, k.alarms i = none) :
    Effect P.Allows k k.tick := by
  have hwake : Effect P.Allows k
      ((List.range maxTasks).foldl (Kernel.wakeUp k.getTickCount) k) := by
    refine List.foldlRecOn (motive := fun k' => Effect P.Allows k k') _ _ (.refl _ k) ?_
    exact fun k' hk' i _ => hk'.trans (.wakeUp _ k' i)
  have hrest : Effect P.Allows k ((List.range maxTasks).foldl (Kernel.wakeUp k.getTickCount)
      k).updateTimers.incrementCounters :=
    (hwake.trans (.same (sameSchedule_updateTimers _))).trans
      (.same (sameSchedule_incrementCounters _))
  have halarms : ∀ i, ((List.range maxTasks).foldl (Kernel.wakeUp k.getTickCount)
      k).updateTimers.incrementCounters.alarms i = none := by
    rw [hrest.sameTable.alarms]
    exact h
  unfold Kernel.tick
  dsimp only
  rwa [checkAlarms, forSlots_none halarms]

theorem Effect.sysTickHandler {P : Permit} {k : Kernel} (h : ∀ i, k.alarms i = none) :
    Effect P.Allows k k.sysTickHandler := by
  unfold Kernel.sysTickHandler
  set k₁ : Kernel := { k with port :=
    ({ k.port with masked := true, insideInterrupt := true } : Port).incrementTickCount }
  have hin : SameSchedule k k₁ := sameSchedule_port k _
  have htick : Effect P.Allows k₁ k₁.tick := .tick h
  exact (Effect.same hin).trans (htick.trans (.same (sameSchedule_port k₁.tick _)))

end CppRtos.Kernel
