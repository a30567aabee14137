import CppRtos.Kernel.Alarms

/-! Alarms that activate a task. The check runs in the tick interrupt, where the yield that it
makes for the task fails its assertion, and it does not enter the task in the ready table. -/
namespace CppRtos.Kernel
open SlotTable

/-- A part of a tick: no task starts to run, and a failed assertion stays on record. -/
structure Within (k k' : Kernel) : Prop where
  port : k'.port = k.port
  getState : ∀ t, k'.getState t = k.getState t ∨ k'.getState t = .eReady
  fault : k.fault = true → k'.fault = true

theorem Within.refl (k : Kernel) : Within k k := ⟨rfl, fun _ => .inl rfl, id⟩

theorem Within.trans {k k' k'' : Kernel} (h : Within k k') (h' : Within k' k'') :
    Within k k'' := by
  refine ⟨h'.port.trans h.port, ?_, fun hf => h'.fault (h.fault hf)⟩
  intro t
  rcases h'.getState t with ht | ht
  · rw [ht]
    exact h.getState t
  · exact .inr ht

theorem Within.not_running {k k' : Kernel} (h : Within k k') {t : TaskPtr}
    (ht : k.getState t ≠ .eRunning) : k'.getState t ≠ .eRunning := by
  rcases h.getState t with hs | hs
  · rw [hs]
    exact ht
  · rw [hs]
    decide

theorem within_setState_eReady (k : Kernel) (t : TaskPtr) : Within k (k.setState t .eReady) := by
  refine ⟨rfl, ?_, id⟩
  intro u
  rw [getState_setState]
  split_ifs
  · exact .inr rfl
  · exact .inl rfl

theorem within_setTaskReady (k : Kernel) (t : Option TaskPtr) : Within k (k.setTaskReady t) := by
  cases t with
  | none => exact .refl k
  | some t =>
    have hready := within_setState_eReady k t
    constructor
    · exact port_setTaskReady k (some t)
    · intro u
      rw [getState_setTaskReady]
      split_ifs
      · exact .inr rfl
      · exact .inl rfl
    · intro hf
      unfold setTaskReady
      dsimp only
      split_ifs <;> simp [assert, setReadyBit, setState, modifyTask, hf]

theorem within_wakeUp (now : ℕ) (k : Kernel) (i : ℕ) : Within k (k.wakeUp now i) := by
  unfold wakeUp
  split_ifs
  · have hready := within_setTaskReady k (k.tasks i)
    exact ⟨hready.port, hready.getState, hready.fault⟩
  · exact .refl k

theorem within_tickTimer (k : Kernel) (t : TimerPtr) : Within k (k.tickTimer t) := by
  unfold tickTimer
  dsimp only
  split_ifs
  · cases (k.timerData t).callback with
    | none => exact ⟨rfl, fun _ => .inl rfl, id⟩
    | some c => exact ⟨rfl, fun _ => .inl rfl, id⟩
  · exact ⟨rfl, fun _ => .inl rfl, id⟩

theorem within_beforeAlarms (k : Kernel) : Within k k.beforeAlarms := by
  apply beforeAlarms_induction (.refl k)
  · exact fun now k' i hk' => hk'.trans (within_wakeUp now k' i)
  · exact fun k' t hk' => hk'.trans (within_tickTimer k' t)
  · exact fun k' d hk' => hk'.trans ⟨rfl, fun _ => .inl rfl, id⟩

/-! ## The check of an alarm in an interrupt -/

theorem taskYield_inside {k : Kernel} (h : k.isInsideInterrupt = true) :
    k.taskYield = { k with fault := true } := by
  unfold taskYield assert
  dsimp only
  have hinside : ({ k with fault := k.fault || !!k.isInsideInterrupt } : Kernel).isInsideInterrupt =
      true := h
  rw [hinside, h, Bool.not_true, if_neg Bool.false_ne_true, Bool.not_false, Bool.or_true]

theorem within_checkAndTrigger {k : Kernel} (h : k.isInsideInterrupt = true) (a : AlarmPtr) :
    Within k (k.checkAndTrigger a) := by
  have hdata : ∀ d, Within k { k with alarmData := d } := fun _ => ⟨rfl, fun _ => .inl rfl, id⟩
  unfold checkAndTrigger
  dsimp only
  split_ifs
  · generalize Function.update k.alarmData a _ = d
    cases (k.alarmData a).taskToActivate with
    | none =>
      cases (k.alarmData a).callback with
      | none =>
        refine (hdata d).trans ⟨rfl, fun _ => .inl rfl, ?_⟩
        intro hf
        simp [assert]
      | some c => exact (hdata d).trans ⟨rfl, fun _ => .inl rfl, id⟩
    | some t =>
      dsimp only
      split_ifs
      · have hready := (hdata d).trans (within_setState_eReady _ t)
        have hinside : (({ k with alarmData := d } : Kernel).setState t .eReady).isInsideInterrupt =
            true := h
        rw [taskYield_inside hinside]
        exact ⟨hready.port, hready.getState, fun _ => rfl⟩
      · exact hdata d
  · exact .refl k

/-- An expired alarm fails the assertion of `Task::yield` for a task that is not running. -/
theorem fault_checkAndTrigger {k : Kernel} {a : AlarmPtr} {t : TaskPtr}
    (h : k.isInsideInterrupt = true) (htask : (k.alarmData a).taskToActivate = some t)
    (hexpired : (k.alarmData a).expired (k.counterData (k.alarmData a).counter) = true)
    (ht : k.getState t ≠ .eRunning) : (k.checkAndTrigger a).fault = true := by
  have hdata : ∀ d, ({ k with alarmData := d } : Kernel).getState t ≠ .eRunning := fun _ => ht
  unfold checkAndTrigger
  dsimp only
  rw [if_pos hexpired, htask]
  generalize Function.update k.alarmData a _ = d
  have hinside : (({ k with alarmData := d } : Kernel).setState t .eReady).isInsideInterrupt =
      true := h
  dsimp only
  rw [if_pos (hdata d), taskYield_inside hinside]

theorem readyTasks_checkAndTrigger (k : Kernel) (a : AlarmPtr) :
    (k.checkAndTrigger a).readyTasks = k.readyTasks := by
  unfold checkAndTrigger
  dsimp only
  split_ifs
  · cases (k.alarmData a).taskToActivate with
    | none => cases (k.alarmData a).callback <;> rfl
    | some t =>
      dsimp only
      split_ifs
      · rw [(sameSchedule_taskYield _).readyTasks]
        rfl
      · rfl
  · rfl

theorem fault_foldl {as : List AlarmPtr} {k : Kernel} {a : AlarmPtr} {t : TaskPtr}
    (h : k.isInsideInterrupt = true) (ha : a ∈ as)
    (htask : (k.alarmData a).taskToActivate = some t)
    (hexpired : (k.alarmData a).expired (k.counterData (k.alarmData a).counter) = true)
    (ht : k.getState t ≠ .eRunning) : (as.foldl checkAndTrigger k).fault = true := by
  have hinside : ∀ {k' : Kernel} {b : AlarmPtr}, k'.isInsideInterrupt = true →
      (k'.checkAndTrigger b).isInsideInterrupt = true := by
    intro k' b hk'
    have hport := (within_checkAndTrigger hk' b).port
    unfold isInsideInterrupt at hk' ⊢
    rwa [hport]
  have hkeep : ∀ (bs : List AlarmPtr) {k' : Kernel}, k'.isInsideInterrupt = true →
      k'.fault = true → (bs.foldl checkAndTrigger k').fault = true := by
    intro bs
    induction bs with
    | nil => exact fun _ hf => hf
    | cons b bs ih =>
      intro k' hk' hf
      exact ih (hinside hk') ((within_checkAndTrigger hk' b).fault hf)
  induction as generalizing k with
  | nil => cases ha
  | cons b as ih =>
    by_cases hab : a = b
    · subst hab
      exact hkeep as (hinside h) (fault_checkAndTrigger h htask hexpired ht)
    · have htables := tables_checkAndTrigger k b
      have halarm : (k.checkAndTrigger b).alarmData a = k.alarmData a :=
        (congrArg (fun s => s.alarmData a) htables).trans (Function.update_of_ne hab _ _)
      have hcounter : (k.checkAndTrigger b).counterData = k.counterData :=
        congrArg Tables.counterData htables
      refine ih (hinside h) ((List.mem_cons.mp ha).resolve_left hab) ?_ ?_ ?_
      · rw [halarm]
        exact htask
      · rw [halarm, hcounter]
        exact hexpired
      · exact (within_checkAndTrigger h b).not_running ht

/-! ## The tick interrupt -/

def enterTick (k : Kernel) : Kernel :=
  { k with
    port := ({ k.port with masked := true, insideInterrupt := true } : Port).incrementTickCount }

theorem sysTickHandler_eq (k : Kernel) :
    ∃ p, k.sysTickHandler = { k.enterTick.tick with port := p } := ⟨_, rfl⟩

theorem inside_enterTick (k : Kernel) : k.enterTick.isInsideInterrupt = true := by
  unfold enterTick isInsideInterrupt Port.incrementTickCount
  dsimp only

/-- The alarm is active and it expires in the next tick. -/
def Expires (k : Kernel) (a : AlarmPtr) : Prop :=
  (k.alarmData a).expired (k.sysTickHandler.counterData (k.alarmData a).counter) = true

/-- The next tick fails no assertion and makes the task ready for the scheduler. -/
def Activates (k : Kernel) (t : TaskPtr) : Prop :=
  let k' := k.sysTickHandler
  k'.fault = false ∧ k'.getState t = .eReady ∧
    k'.readyBit (k'.getPriority t).level (k'.taskData t).id = true

theorem readyTasks_tick (k : Kernel) : k.tick.readyTasks = k.wakeUps.readyTasks := by
  have halarms : ∀ (as : List AlarmPtr) (k : Kernel),
      (as.foldl checkAndTrigger k).readyTasks = k.readyTasks := by
    intro as
    induction as with
    | nil => exact fun _ => rfl
    | cons a as ih => exact fun k => (ih _).trans (readyTasks_checkAndTrigger k a)
  rw [tick_eq_tickVisits, halarms]
  exact (sameSchedule_incrementCounters _).readyTasks.trans
    (sameSchedule_updateTimers k.wakeUps).readyTasks

theorem counterData_tick (k : Kernel) : k.tick.counterData = k.beforeAlarms.counterData := by
  have htick := tables_checkAlarms k.beforeAlarms
  rw [Tables.foldl_checkAlarm] at htick
  exact congrArg Tables.counterData htick

theorem Expires.fault {k : Kernel} {a : AlarmPtr} {t : TaskPtr} (hexpires : k.Expires a)
    (ha : k.InTable .alarms a) (htask : (k.alarmData a).taskToActivate = some t)
    (ht : k.getState t ≠ .eRunning) : k.enterTick.tick.fault = true := by
  obtain ⟨p, hp⟩ := sysTickHandler_eq k
  have hwithin := within_beforeAlarms k.enterTick
  have hinside : k.enterTick.beforeAlarms.isInsideInterrupt = true := by
    have hport := congrArg Port.insideInterrupt hwithin.port
    exact hport.trans (inside_enterTick k)
  have halarm : k.enterTick.beforeAlarms.alarmData a = k.alarmData a := by
    have htables := (tables_beforeAlarms k.enterTick).trans rfl
    exact congrArg (fun s => s.alarmData a) htables
  have hcounters : k.sysTickHandler.counterData = k.enterTick.beforeAlarms.counterData := by
    rw [hp]
    exact counterData_tick k.enterTick
  have hmem : a ∈ k.enterTick.tickVisits .alarms := registered_iff.mp ha
  rw [tick_eq_tickVisits]
  unfold Expires at hexpires
  rw [hcounters] at hexpires
  refine fault_foldl hinside hmem ?_ ?_ (hwithin.not_running ht)
  · rw [halarm]
    exact htask
  · rw [halarm]
    exact hexpires

/-- In the tick in which the alarm of a task that is not running expires, an assertion fails,
and the ready table is the one that the sleeping tasks leave. -/
theorem not_activates {k : Kernel} {a : AlarmPtr} {t : TaskPtr} (ha : k.InTable .alarms a)
    (htask : (k.alarmData a).taskToActivate = some t) (hexpires : k.Expires a)
    (ht : k.getState t ≠ .eRunning) :
    ¬ k.Activates t ∧ k.sysTickHandler.fault = true ∧
      k.sysTickHandler.readyTasks = k.enterTick.wakeUps.readyTasks := by
  obtain ⟨p, hp⟩ := sysTickHandler_eq k
  have hfault : k.sysTickHandler.fault = true := by
    rw [hp]
    exact hexpires.fault ha htask ht
  refine ⟨?_, hfault, ?_⟩
  · rintro ⟨hno, -⟩
    rw [hfault] at hno
    cases hno
  · rw [hp]
    exact readyTasks_tick k.enterTick

/-- Task 4 is blocked; alarm 3 activates it at the next tick of counter 5. -/
def sampleTaskAlarm : Kernel where
  currentTask := 0
  idleTask := 0
  tasks := fun i => if i = 0 then some 0 else if i = 1 then some 4 else none
  taskCount := 2
  taskData := fun t =>
    if t = 4 then { id := 1, state := .eBlocked, priority := .high, basePriority := .high }
    else { state := .eRunning }
  counters := fun i => if i = 0 then some 5 else none
  alarms := fun i => if i = 0 then some 3 else none
  counterData := fun _ => ⟨10, 8⟩
  alarmData := fun _ => (Alarm.newTask 5 1 0 (some 4)).start ⟨10, 8⟩

theorem sampleTaskAlarm_expires : sampleTaskAlarm.Expires 3 := by
  unfold Expires
  decide +kernel

theorem not_activates_sample : ¬ sampleTaskAlarm.Activates 4 :=
  (not_activates (a := 3) (registered_iff.mpr (by decide)) rfl sampleTaskAlarm_expires
    (by decide)).1

/-- The task stays out of the ready table, although its state is `eReady`. -/
theorem task_alarm_fails :
    sampleTaskAlarm.InTable .alarms 3 ∧ (sampleTaskAlarm.alarmData 3).taskToActivate = some 4 ∧
      sampleTaskAlarm.Registered 4 ∧ sampleTaskAlarm.Expires 3 ∧
      sampleTaskAlarm.getState 4 = .eBlocked ∧ sampleTaskAlarm.fault = false ∧
      sampleTaskAlarm.sysTickHandler.fault = true ∧
      sampleTaskAlarm.sysTickHandler.getState 4 = .eReady ∧
      sampleTaskAlarm.sysTickHandler.readyBit 2 1 = false := by
  have halarm : sampleTaskAlarm.InTable .alarms 3 := registered_iff.mpr (by decide)
  have htask : sampleTaskAlarm.Registered 4 := ⟨1, rfl⟩
  refine ⟨halarm, rfl, htask, sampleTaskAlarm_expires, by decide, rfl, ?_, ?_, ?_⟩
  · decide +kernel
  · decide +kernel
  · decide +kernel

end CppRtos.Kernel
