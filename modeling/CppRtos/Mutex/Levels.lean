import CppRtos.Kernel.Assertions
import CppRtos.Kernel.Summary
import CppRtos.Mutex.Exclusion

/-! Priorities as indices of the ready table. `setPriority` never stores `PRIORITY_RESERVED` as
the priority of a task, but as its base priority it does, and `release` goes back to the base. -/
namespace CppRtos.Mutex

/-! ## Runs -/

/-- What happens between the steps of `acquire` and `release`. -/
inductive Intervention where
  | setPriority (task : TaskPtr) (prio : TaskPriority)
  | addTask (task : TaskPtr)
  | setTaskReady (ptrTask : Option TaskPtr)
  | resetTaskReady (ptrTask : Option TaskPtr) (newState : TaskStateType)
  | selectHighestPriorityTask
deriving DecidableEq, Repr

def Intervention.run : Intervention → Kernel → Kernel
  | setPriority t prio, k => k.modifyTask t (·.setPriority prio)
  | addTask t, k => k.addTask t
  | setTaskReady t, k => k.setTaskReady t
  | resetTaskReady t s, k => k.resetTaskReady t s
  | selectHighestPriorityTask, k => k.selectHighestPriorityTask

/-- Tasks that call `acquire` and `release` under the scheduler of the kernel. -/
def scheduledProtocol : Protocol TaskPtr Shared (ℕ × Call) MutexResult Intervention where
  entry t c s := s.kernel.currentTask = t ∧ c.2.isEntry = true
  enabled t _ s := s.kernel.currentTask = t
  step := (protocol fun _ k => k).step
  interferes _ _ := True
  interfere a s := { s with kernel := a.run s.kernel }

abbrev Scheduled := Protocol.Action TaskPtr (ℕ × Call) Intervention

def boot (idleTask : TaskPtr) (assigned : TaskPtr → TaskPriority) : State :=
  start (.new idleTask assigned)

/-- The test of `release` after which it resets the priority of its task. -/
def resets (k : Kernel) (m : Mutex) : Bool :=
  !m.blockedTasks.isEmpty && m.blockedTasks.dequeue.1.any fun u =>
    !(isAnyTaskBlocking k { m with blockedTasks := m.blockedTasks.dequeue.2 }
      (k.getPriority u)).2

/-- The step does not reset the priority of a task whose base priority is reserved. -/
def StepResets (k : Kernel) (m : Mutex) : Call → Prop
  | .releaseRegion p => resets k m = true → k.getBasePriority p ≠ .reserved
  | _ => True

def ResetsAssigned : Scheduled → State → Prop
  | .exec t, s => ∀ c ∈ s.call t, StepResets s.shared.kernel (s.shared.mutexes c.1) c.2
  | .invoke _ _, _ | .env _, _ => True

instance (k : Kernel) (m : Mutex) : DecidablePred (StepResets k m)
  | .releaseRegion p => inferInstanceAs (Decidable
      (resets k m = true → k.getBasePriority p ≠ .reserved))
  | .acquire _ | .acquireStart _ _ | .acquireLoop _ _ _ | .acquireYield _ _ _ | .release
  | .releaseOwner | .releaseYield | .releaseReturn => inferInstanceAs (Decidable True)

instance : ∀ a s, Decidable (ResetsAssigned a s)
  | .exec t, s => inferInstanceAs (Decidable
      (∀ c ∈ s.call t, StepResets s.shared.kernel (s.shared.mutexes c.1) c.2))
  | .invoke _ _, _ | .env _, _ => inferInstanceAs (Decidable True)

instance : ∀ t c s, Decidable (scheduledProtocol.entry t c s) := fun t c s =>
  inferInstanceAs (Decidable (s.kernel.currentTask = t ∧ c.2.isEntry = true))

instance : ∀ t c s, Decidable (scheduledProtocol.enabled t c s) := fun t _ s =>
  inferInstanceAs (Decidable (s.kernel.currentTask = t))

instance : ∀ a s, Decidable (scheduledProtocol.interferes a s) := fun _ _ =>
  inferInstanceAs (Decidable True)

/-- Every priority indexes the ready table: no assertion has failed so far, and tasks that
become ready or are added are entered. -/
structure Indexing (k : Kernel) : Prop where
  level_le : ∀ t, (k.getPriority t).level ≤ TaskPriority.idle.level
  fault : k.fault = false
  ready : ∀ t, (k.setTaskReady (some t)).readyBit (k.getPriority t).level (k.taskData t).id = true
  added : ∀ t, k.taskCount < maxTasks →
    (k.addTask t).readyBit (k.getPriority t).level k.taskCount = true

/-! ## One step -/

variable {k : Kernel} {m : Mutex}

def Leveled (k : Kernel) : Prop := ∀ t, (k.getPriority t).level ≤ 15

theorem Leveled.slot (h : Leveled k) (t : TaskPtr) : (k.slot t).1 < maxPrioryLevels :=
  (h t).trans_lt (by decide)

theorem Leveled.congr (h : Leveled k) {k' : Kernel} (hp : Kernel.SameParameters k k') :
    Leveled k' := by
  intro t
  rw [hp.priority]
  exact h t

theorem level_setPriority (d : TaskData) (prio : TaskPriority) :
    (d.setPriority prio).priority.level ≤ 15 := by
  rcases prio.level_le_idle_or_reserved with hprio | rfl
  · rw [d.setPriority_of_level_le hprio]
    exact hprio
  · exact le_rfl

theorem Leveled.setPriority (h : Leveled k) (t : TaskPtr) (prio : TaskPriority) :
    Leveled (k.modifyTask t (·.setPriority prio)) := by
  intro u
  unfold Kernel.getPriority
  rw [Kernel.taskData_modifyTask]
  split_ifs with hu
  · exact level_setPriority (k.taskData t) prio
  · exact h u

theorem indexing_iff (h : k.Numbered) : Indexing k ↔ Leveled k := by
  constructor
  · exact fun hindexing => hindexing.level_le
  · intro hlevel
    constructor
    · exact hlevel
    · exact h.fault
    · intro t
      have hid : (k.taskData t).id < 32 := (h.id_lt t).trans_le h.count_le
      rw [Kernel.readyBit_setTaskReady, Bool.or_eq_true, decide_eq_true_eq]
      exact .inr ⟨hlevel.slot t, hid, rfl⟩
    · intro t hroom
      rw [(Kernel.adds_addTask hroom t (hlevel.slot t)).bits, Bool.or_eq_true, decide_eq_true_eq]
      exact .inr rfl

theorem isAnyTaskBlocking_congr {k' : Kernel} (h : Kernel.SameParameters k k') {m' : Mutex}
    (hq : m'.blockedTasks = m.blockedTasks) (prio : TaskPriority) :
    (isAnyTaskBlocking k' m' prio).2 = (isAnyTaskBlocking k m prio).2 := by
  rw [isAnyTaskBlocking_snd, isAnyTaskBlocking_snd]
  simp only [h.priority, hq]

theorem getPriority_releaseRegion (k : Kernel) (m : Mutex) (p t : TaskPtr) :
    (releaseRegion k m p).1.getPriority t =
      if t = p ∧ resets k m = true then k.getBasePriority p else k.getPriority t := by
  have hexit : ∀ k' : Kernel, k'.exitCritical.getPriority t = k'.getPriority t :=
    fun k' => (Kernel.sameSchedule_exitCritical k').priority t
  have henter := (Kernel.sameSchedule_enterCritical k).toSameParameters
  have hempty := hexit k.enterCritical
  rw [henter.priority] at hempty
  cases he : m.blockedTasks.isEmpty with
  | true => simp [releaseRegion, resets, he, hempty]
  | false =>
    cases hd : m.blockedTasks.dequeue.1 with
    | none =>
      have hnull := hexit (k.enterCritical.assert false)
      rw [(Kernel.sameSchedule_assert _ _).priority, henter.priority] at hnull
      simp [releaseRegion, resets, he, hd, Kernel.setTaskReady, hnull]
    | some u =>
      set ready := k.enterCritical.setTaskReady (some u) with hr
      have hready : Kernel.SameParameters k ready :=
        henter.trans (Kernel.sameParameters_setTaskReady k.enterCritical (some u))
      have htest : (isAnyTaskBlocking ready ⟨m.count - 1, none, m.blockedTasks.dequeue.2⟩
            (k.getPriority u)).2 =
          (isAnyTaskBlocking k { m with blockedTasks := m.blockedTasks.dequeue.2 }
            (k.getPriority u)).2 :=
        isAnyTaskBlocking_congr hready rfl (k.getPriority u)
      obtain ⟨c, hc, -⟩ := isAnyTaskBlocking_fst ready
        ⟨m.count - 1, none, m.blockedTasks.dequeue.2⟩ (k.getPriority u)
      have hread := hready.trans (Kernel.sameSchedule_assert ready c).toSameParameters
      simp only [releaseRegion, resets, he, hd, Bool.not_false, Bool.true_and, if_true,
        Option.any_some, ← hr, hready.priority, htest, hc]
      rw [hexit]
      split_ifs with hblocking hreset hreset
      · unfold Kernel.getPriority
        rw [Kernel.taskData_modifyTask, if_pos hreset.1]
        exact hread.basePriority p
      · unfold Kernel.getPriority
        rw [Kernel.taskData_modifyTask, if_neg fun ht => hreset ⟨ht, hblocking⟩]
        exact hread.priority t
      · exact absurd hreset.2 hblocking
      · exact hread.priority t

theorem leveled_inheritPriority (h : Leveled k) (m : Mutex) (p : TaskPtr) :
    Leveled (inheritPriority k m p) := by
  obtain ⟨o, -, -, hi⟩ | ⟨-, hi⟩ := inheritPriority_cases k m p
  · rw [hi]
    exact h.setPriority o _
  · exact h.congr hi.toSameParameters

/-- The priorities stay in range exactly if `release` does not go back to a reserved base. -/
theorem leveled_step (h : Leveled k) (c : Call) :
    Leveled (step k m c).1 ↔ StepResets k m c := by
  cases c with
  | acquireLoop f e p =>
    refine iff_of_true ?_ trivial
    have henter : Leveled k.enterCritical :=
      h.congr (Kernel.sameSchedule_enterCritical k).toSameParameters
    have hexit : ∀ {k' : Kernel}, Leveled k' → Leveled k'.exitCritical := fun h' =>
      h'.congr (Kernel.sameSchedule_exitCritical _).toSameParameters
    have hinherit := leveled_inheritPriority henter m p
    simp only [step]
    obtain ⟨-, hr⟩ | ⟨-, -, hr⟩ | ⟨-, -, -, hr⟩ | ⟨-, -, -, hr⟩ := acquireRegion_cases k m f e p
    · rw [hr]
      exact hexit (henter.congr (Kernel.sameSchedule_enterCritical _).toSameParameters)
    · rw [hr]
      exact hexit henter
    · rw [hr]
      exact hexit (hinherit.congr (sameParameters_blockSelf _ p))
    · rw [hr]
      exact hexit hinherit
  | releaseRegion p =>
    have hpriority := getPriority_releaseRegion k m p
    constructor
    · intro hlevel hresets hbase
      have hp := hlevel p
      change ((releaseRegion k m p).1.getPriority p).level ≤ 15 at hp
      rw [hpriority, if_pos ⟨rfl, hresets⟩, hbase, TaskPriority.level_reserved] at hp
      omega
    · intro hresets t
      show ((releaseRegion k m p).1.getPriority t).level ≤ 15
      rw [hpriority]
      split_ifs with ht
      · exact (k.getBasePriority p).level_le_idle_or_reserved.resolve_right (hresets ht.2)
      · exact h t
  | _ =>
    refine iff_of_true ?_ trivial
    exact h.congr (step_kernel k m (by simp) (by simp)).toSameParameters

theorem plain_step (h : m.blockedTasks.Plain) (c : Call) :
    (step k m c).2.1.blockedTasks.Plain := by
  cases c with
  | acquireLoop f e p =>
    simp only [step]
    obtain ⟨-, hr⟩ | ⟨-, -, hr⟩ | ⟨-, -, hfull, hr⟩ | ⟨-, -, -, hr⟩ :=
      acquireRegion_cases k m f e p <;> rw [hr]
    · exact h
    · exact h
    · exact h.enqueue p (lt_of_le_of_ne h.size_le hfull)
    · exact h
  | releaseRegion p =>
    simp only [step]
    obtain ⟨-, hr⟩ | ⟨hs, -, hr⟩ | ⟨hs, u, -, b, c, -, hr⟩ := releaseRegion_cases k m p <;> rw [hr]
    · exact h
    · obtain ⟨-, -, -, hrest⟩ := h.dequeue hs
      exact hrest
    · obtain ⟨-, -, -, hrest⟩ := h.dequeue hs
      exact hrest
  | _ =>
    rw [step_mutex k m (by simp) (by simp)]
    exact h

theorem succeeds_inheritPriority {o : TaskPtr} (ho : m.owner = some o) (k : Kernel) (p : TaskPtr) :
    Kernel.Succeeds k (inheritPriority k m p) := by
  unfold inheritPriority
  rw [ho]
  dsimp only
  split_ifs
  · exact Kernel.succeeds_setPriority k o _
  · exact .refl k

theorem succeeds_step (hk : k.Numbered) (hlevel : Leveled k) (hm : m.blockedTasks.Plain)
    (howner : 0 < m.count → m.owner ≠ none) (c : Call) : Kernel.Succeeds k (step k m c).1 := by
  have henter := Kernel.succeeds_enterCritical k
  have hassert : Kernel.Succeeds k (k.assert (!k.isInsideInterrupt)) := by
    refine Kernel.succeeds_of_sameSchedule (Kernel.sameSchedule_assert k _) rfl ?_
    unfold Kernel.assert
    rw [hk.outside]
    exact Bool.or_false k.fault
  cases c with
  | acquire n =>
    simp only [step]
    split_ifs <;> exact hassert
  | acquireStart n p =>
    simp only [step]
    split_ifs <;> exact .refl k
  | acquireLoop f e p =>
    simp only [step]
    obtain ⟨-, hr⟩ | ⟨-, -, hr⟩ | ⟨hc, -, -, hr⟩ | ⟨hc, -, -, hr⟩ := acquireRegion_cases k m f e p
    · rw [hr]
      exact (henter.trans (Kernel.succeeds_enterCritical _)).trans (Kernel.succeeds_exitCritical _)
    · rw [hr]
      exact henter.trans (Kernel.succeeds_exitCritical _)
    · obtain ⟨o, ho⟩ := Option.ne_none_iff_exists'.mp (howner hc)
      have hin := leveled_inheritPriority
        (hlevel.congr (Kernel.sameSchedule_enterCritical k).toSameParameters) m p
      have hblock : Kernel.Succeeds (inheritPriority k.enterCritical m p)
          (blockSelf (inheritPriority k.enterCritical m p) p) := by
        unfold blockSelf
        split_ifs
        · exact Kernel.succeeds_resetTaskReady (hin.slot p) .eBlocked
        · exact .refl _
      rw [hr]
      exact ((henter.trans (succeeds_inheritPriority ho _ p)).trans hblock).trans
        (Kernel.succeeds_exitCritical _)
    · obtain ⟨o, ho⟩ := Option.ne_none_iff_exists'.mp (howner hc)
      rw [hr]
      exact (henter.trans (succeeds_inheritPriority ho _ p)).trans (Kernel.succeeds_exitCritical _)
  | acquireYield f e p => exact Kernel.succeeds_yield k
  | release =>
    simp only [step]
    split_ifs <;> exact hassert
  | releaseOwner =>
    simp only [step]
    split_ifs <;> exact .refl k
  | releaseRegion p =>
    simp only [step]
    obtain ⟨-, hr⟩ | ⟨hs, hnull, -⟩ | ⟨-, u, -, b, c, hwritten, hr⟩ := releaseRegion_cases k m p
    · rw [hr]
      exact henter.trans (Kernel.succeeds_exitCritical _)
    · obtain ⟨u, hu, -⟩ := hm.dequeue hs
      rw [hnull] at hu
      cases hu
    · have hslot : (k.enterCritical.slot u).1 < maxPrioryLevels := hlevel.slot u
      have hready := henter.trans (Kernel.succeeds_setTaskReady hslot)
      rw [hr, hwritten hm, Kernel.assert_true]
      refine Kernel.Succeeds.trans ?_ (Kernel.succeeds_exitCritical _)
      split_ifs
      · exact hready.trans (Kernel.succeeds_modifyTask _ p rfl)
      · exact hready
  | releaseYield => exact Kernel.succeeds_yield k
  | releaseReturn => exact .refl k

/-! ## Runs of tasks and scheduler -/

/-- What every run keeps as long as the priorities are in range. -/
structure Regular (s : State) : Prop where
  numbered : s.shared.kernel.Numbered
  consistent : Protocol.Holds Consistent Local s
  plain : ∀ m, (s.shared.mutexes m).blockedTasks.Plain

/-- Every event is one of the protocol with an arbitrary scheduler. -/
def Scheduled.offered (s : State) : Scheduled → Event
  | .invoke t c => .invoke t c
  | .exec t => .exec t
  | .env a => .env (a.run s.shared.kernel)

theorem guard_offered {a : Scheduled} {s : State} (h : scheduledProtocol.machine.guard a s) :
    (protocol fun _ k => k).machine.guard (a.offered s) s := by
  cases a with
  | invoke t c => exact h
  | exec t => exact h
  | env a => exact trivial

theorem apply_offered (a : Scheduled) (s : State) : scheduledProtocol.machine.apply a s =
    (protocol fun _ k => k).machine.apply (a.offered s) s := by
  cases a <;> rfl

/-- The scheduler and `setPriority` keep the priorities in range. -/
theorem Intervention.leveled_run (hk : k.Numbered) (h : Leveled k) (a : Intervention) :
    (a.run k).Numbered ∧ Leveled (a.run k) := by
  cases a with
  | setPriority t prio =>
    exact ⟨hk.succeeds (Kernel.succeeds_setPriority k t prio), h.setPriority t prio⟩
  | addTask t =>
    refine ⟨hk.addTask (h.slot t), fun u => ?_⟩
    show ((k.addTask t).getPriority u).level ≤ 15
    by_cases hroom : k.taskCount < maxTasks
    · rw [(Kernel.adds_addTask hroom t (h.slot t)).priority]
      exact h u
    · rw [Kernel.Registry.addTask_of_full hroom]
      exact h u
  | setTaskReady t =>
    refine ⟨?_, h.congr (Kernel.sameParameters_setTaskReady k t)⟩
    cases t with
    | none => exact hk
    | some t => exact hk.succeeds (Kernel.succeeds_setTaskReady (h.slot t))
  | resetTaskReady t s =>
    cases t with
    | none => exact ⟨hk, h⟩
    | some t =>
      exact ⟨hk.succeeds (Kernel.succeeds_resetTaskReady (h.slot t) s),
        h.congr (Kernel.sameParameters_resetTaskReady k t s)⟩
  | selectHighestPriorityTask =>
    refine ⟨hk.succeeds (hk.select (h.slot _)), h.congr ?_⟩
    exact (Kernel.summarises_select k).parameters

/-- The priorities stay in range exactly in the steps that reset to an assigned priority. -/
theorem Regular.apply {s : State} (h : Regular s) (hlevel : Leveled s.shared.kernel) {a : Scheduled}
    (hg : scheduledProtocol.machine.guard a s) :
    Regular (scheduledProtocol.machine.apply a s) ∧
      (Leveled (scheduledProtocol.machine.apply a s).shared.kernel ↔ ResetsAssigned a s) := by
  have hconsistent : Protocol.Holds Consistent Local (scheduledProtocol.machine.apply a s) := by
    rw [apply_offered]
    exact consistent_apply h.consistent (guard_offered hg)
  cases a with
  | invoke t c => exact ⟨⟨h.numbered, hconsistent, h.plain⟩, iff_of_true hlevel trivial⟩
  | env a =>
    obtain ⟨hnumbered, hleveled⟩ := a.leveled_run h.numbered hlevel
    exact ⟨⟨hnumbered, hconsistent, h.plain⟩, iff_of_true hleveled trivial⟩
  | exec t =>
    obtain ⟨c, hc, -⟩ := Protocol.call_of_guard hg
    have hsound := h.consistent.1
    have howner : 0 < (s.shared.mutexes c.1).count → (s.shared.mutexes c.1).owner ≠ none := by
      intro hcount
      obtain ⟨-, u, hu⟩ := hsound.owner_of_count hcount
      rw [hu]
      exact Option.some_ne_none u
    have hsucceeds := succeeds_step h.numbered hlevel (h.plain c.1) howner c.2
    have happly : (scheduledProtocol.machine.apply (.exec t) s).shared =
        (scheduledProtocol.step t c s.shared).1 := by
      simp only [Protocol.machine, Protocol.apply, hc]
    constructor
    · constructor
      · rw [happly]
        exact h.numbered.succeeds hsucceeds
      · exact hconsistent
      · intro n
        rw [happly]
        show (Function.update s.shared.mutexes c.1 _ n).blockedTasks.Plain
        rw [Function.update_apply]
        split_ifs with hn
        · exact plain_step (h.plain c.1) c.2
        · exact h.plain n
    · rw [happly]
      have hreset : ResetsAssigned (.exec t) s ↔
          StepResets s.shared.kernel (s.shared.mutexes c.1) c.2 := by
        simp [ResetsAssigned, hc]
      rw [hreset]
      exact leveled_step hlevel c.2

theorem regular_boot (idleTask : TaskPtr) (assigned : TaskPtr → TaskPriority) :
    Regular (boot idleTask assigned) ∧ Leveled (boot idleTask assigned).shared.kernel := by
  have ha := Kernel.adds_new idleTask assigned
  refine ⟨⟨Kernel.numbered_new idleTask assigned, consistent_start _, fun _ => ?_⟩, fun t => ?_⟩
  · exact Fifo.Plain.new (by decide)
  · show ((Kernel.new idleTask assigned).getPriority t).level ≤ 15
    rw [ha.priority]
    exact (Kernel.priorities_initial idleTask assigned t).1

/-- The priorities index the ready table in all states of a run, and no assertion fails, exactly
if no release resets the priority of a task whose base priority is `PRIORITY_RESERVED`. -/
theorem priorities_index_iff (idleTask : TaskPtr) (assigned : TaskPtr → TaskPriority)
    {es : List Scheduled} (hes : scheduledProtocol.machine.Valid (boot idleTask assigned) es) :
    (∀ fs, fs <+: es →
      Indexing (scheduledProtocol.machine.exec (boot idleTask assigned) fs).shared.kernel) ↔
    (scheduledProtocol.machine.restrict ResetsAssigned).Valid (boot idleTask assigned) es := by
  obtain ⟨hregular, hlevel⟩ := regular_boot idleTask assigned
  have hindexing := (indexing_iff hregular.numbered).mpr hlevel
  refine Machine.forall_prefix_iff (I := Regular) (P := fun s => Indexing s.shared.kernel) ?_ ?_
    hregular hindexing hes
  · intro a s hs hindexing hg _
    exact (hs.apply hindexing.level_le hg).1
  · intro a s hs hindexing hg
    obtain ⟨hnext, hiff⟩ := hs.apply hindexing.level_le hg
    rw [indexing_iff hnext.numbered]
    exact hiff

/-- Task 1 of priority `low` takes a mutex on which task 2 of priority `high` blocks, and releases
it; `changes` happen before the release. -/
def contendedRun (changes : List Scheduled) : List Scheduled :=
  [.env (.addTask 1), .env .selectHighestPriorityTask, .invoke 1 (0, .acquire waitForever),
    .exec 1, .exec 1, .exec 1, .env (.addTask 2), .env .selectHighestPriorityTask,
    .invoke 2 (0, .acquire waitForever), .exec 2, .exec 2, .exec 2, .exec 2,
    .env .selectHighestPriorityTask] ++ changes ++
    [.invoke 1 (0, .release), .exec 1, .exec 1, .exec 1, .env .selectHighestPriorityTask]

def contendedPriorities (t : TaskPtr) : TaskPriority := if t = 2 then .high else .low

theorem priorities_index_contended : Indexing (scheduledProtocol.machine.exec
    (boot 0 contendedPriorities)
      (contendedRun [.env (.setPriority 1 .veryLow)])).shared.kernel := by
  have hvalid : scheduledProtocol.machine.Valid (boot 0 contendedPriorities)
      (contendedRun [.env (.setPriority 1 .veryLow)]) := by
    decide +kernel
  have hresets : (scheduledProtocol.machine.restrict ResetsAssigned).Valid
      (boot 0 contendedPriorities) (contendedRun [.env (.setPriority 1 .veryLow)]) := by
    decide +kernel
  exact (priorities_index_iff 0 contendedPriorities hvalid).mpr hresets _ List.prefix_rfl

/-- With `PRIORITY_RESERVED` instead the release stores it as the priority of task 1; the next
choice of a task fails the assertion and does not enter task 1, which is ready. -/
theorem reserved_restored :
    let s := scheduledProtocol.machine.exec (boot 0 contendedPriorities)
      (contendedRun [.env (.setPriority 1 .reserved)])
    scheduledProtocol.machine.Valid (boot 0 contendedPriorities)
        (contendedRun [.env (.setPriority 1 .reserved)]) ∧
      ¬ Indexing s.shared.kernel ∧ (s.shared.kernel.getPriority 1).level = 255 ∧
      s.shared.kernel.fault = true ∧ s.shared.kernel.getState 1 = .eReady ∧
      ∀ p < maxPrioryLevels, s.shared.kernel.readyBit p 1 = false := by
  intro s
  have hfault : s.shared.kernel.fault = true := by decide +kernel
  refine ⟨by decide +kernel, fun hindexing => ?_, by decide +kernel, hfault, by decide +kernel,
    by decide +kernel⟩
  exact absurd (hindexing.fault.symm.trans hfault) Bool.false_ne_true

end CppRtos.Mutex
