import CppRtos.System.Accounting

/-! No task is lost in a run whose context switches find a task that may execute and take the
processor from no task inside the unprotected `setTaskReady` of a semaphore. -/
namespace CppRtos

namespace Kernel

theorem pendSV_addTask (k : Kernel) (t : TaskPtr) :
    (k.addTask t).port.pendSV = k.port.pendSV := by
  have hframe : ∀ (p : Port) (top : ℕ), (p.initialiseStack top).1.pendSV = p.pendSV := by
    intro p top
    simp only [Port.initialiseStack, Port.push, List.foldl_cons, List.foldl_nil]
  unfold addTask
  dsimp only
  split_ifs
  all_goals first | rw [pendSV_exitCritical] | rfl
  all_goals
    simp only [setReadyBit, assert, modifyTask, hframe]
    exact pendSV_enterCritical _

end Kernel

namespace Objects
variable {o : Objects} {t : TaskPtr} {c : Call} {L : Set TaskPtr}

theorem queues_setSemaphore (o : Objects) (k : Kernel) (s : ℕ) (sem : Semaphore) :
    (o.setSemaphore k s sem).queues =
      Function.update o.queues (.semaphore s) sem.waitingQueue := by
  funext q
  cases q with
  | semaphore s' =>
    by_cases hs : s' = s <;> simp [queues, setSemaphore, hs]
  | _ => simp [queues, setSemaphore]

theorem queues_setMutex (o : Objects) (k : Kernel) (m : ℕ) (mtx : Mutex) :
    (o.setMutex k m mtx).queues = Function.update o.queues (.mutex m) mtx.blockedTasks := by
  funext q
  cases q with
  | mutex m' => by_cases hm : m' = m <;> simp [queues, setMutex, hm]
  | _ => simp [queues, setMutex]

theorem queues_setEventGroup (o : Objects) (k : Kernel) (g : ℕ) (grp : EventGroup) :
    (o.setEventGroup k g grp).queues =
      Function.update o.queues (.eventGroup g) grp.waitingTasks := by
  funext q
  cases q with
  | eventGroup g' =>
    by_cases hg : g' = g <;> simp [queues, setEventGroup, hg]
  | _ => simp [queues, setEventGroup]

theorem task_placed {c : TaskCall} (h : Placed o.kernel o.queues L) (ht : o.kernel.Registered t)
    (hn : (Call.task c).Names t)
    (hrun : (Call.task c).beforeYield = false → o.kernel.getState t = .eRunning) :
    Placed (TaskCall.step o.kernel c).1 o.queues L ∧
      Proceeds t (TaskCall.step o.kernel c).1
        ((TaskCall.step o.kernel c).2.call?.map Call.task) := by
  cases c with
  | sleep self n =>
    obtain rfl : self = t := hn
    have hin := (Kernel.sameSchedule_assert o.kernel (!o.kernel.isInsideInterrupt)).trans
      (Kernel.sameSchedule_enterCritical _)
    refine ⟨?_, .of_next rfl⟩
    simp only [TaskCall.step, TaskCall.sleepRegion]
    exact ((h.same hin).sleep ((hin.registered self).mpr ht)
      ((hin.getState self).trans (hrun rfl)) n).exitCritical
  | sleepYield => exact ⟨h.same (Kernel.sameSchedule_yield _), .inl (Kernel.pendSV_yield _)⟩
  | yield =>
    have hs := Kernel.sameSchedule_taskYield o.kernel
    exact ⟨h.same hs, .of_running ((hs.getState t).trans (hrun rfl))⟩
  | yieldReturn => exact ⟨h, .of_running (hrun rfl)⟩

/-- A step of a call keeps every task in its place, and the calling task running until it
is about to yield. -/
theorem step_placed (hs : Sound o) (hl : InCall t c o) (hr : Runs t o)
    (h : Placed o.kernel o.queues L) (hL : c.unentered = true → t ∈ L)
    (hp : Proceeds t o.kernel (some c)) :
    Placed (o.step c).1.kernel (o.step c).1.queues (c.unenteredAfter t L) ∧
      Proceeds t (o.step c).1.kernel (o.step c).2.call? := by
  have hrun : c.beforeYield = false → o.kernel.getState t = .eRunning := by
    intro hb
    rcases hp with hpend | ⟨c', hc', hb'⟩ | hrun
    · rw [hr.2] at hpend
      cases hpend
    · obtain rfl := Option.some.inj hc'
      rw [hb] at hb'
      cases hb'
    · exact hrun
  cases c with
  | task c =>
    simp only [step, Outcome.call?_map]
    exact task_placed h hl.registered hl.names hrun
  | semaphore s c =>
    simp only [step, Outcome.call?_map, queues_setSemaphore]
    exact Semaphore.step_placed h rfl hr.1 hl.names hL hrun
  | mutex m c =>
    simp only [step, Outcome.call?_map, queues_setMutex]
    exact Mutex.step_placed h rfl hr.1 hl.level
      (fun u hu => ⟨hs.entries.owners m u hu, hs.owners m u hu⟩) hl.names hrun
  | eventGroup g c =>
    simp only [step, Outcome.call?_map, queues_setEventGroup]
    exact EventGroup.step_placed h rfl hr.1 hl.names hrun

/-- The current task proceeds. The idle task calls nothing. -/
def Poised (t : TaskPtr) (c : Option Call) (o : Objects) : Prop :=
  o.kernel.currentTask = t → t ≠ o.kernel.idleTask → Proceeds t o.kernel c

theorem Poised.steady {o' : Objects} {c : Option Call} (h : Poised t c o)
    (hcur : o'.kernel.currentTask = o.kernel.currentTask)
    (hidle : o'.kernel.idleTask = o.kernel.idleTask) (hs : Steady o.kernel o'.kernel) :
    Poised t c o' := by
  intro ht hne
  rw [hcur] at ht
  rw [hidle] at hne
  rcases h ht hne with hpend | hnext | hrun
  · exact .inl (hs.pendSV.trans hpend)
  · exact .inr (.inl hnext)
  · exact .of_running (hs.running t hrun)

theorem isr_placed (hs : Sound o) (h : Placed o.kernel o.queues L) (c : IsrCall) :
    Placed (o.isr c).kernel (o.isr c).queues L ∧
      ∀ t c', Poised t c' o → Poised t c' (o.isr c) := by
  obtain ⟨he, -, -⟩ := isr_effect (P := .all) hs.entries c
  have hcur := he.sameTable.currentTask
  have hidle := he.sameTable.idleTask
  cases c with
  | signal s =>
    obtain ⟨hP, hS⟩ := Semaphore.signalRegion_placed (i := s) h rfl
    simp only [isr, queues_setSemaphore]
    exact ⟨hP, fun t c' hp => hp.steady hcur hidle hS⟩
  | flush s =>
    obtain ⟨hP, hS⟩ := Semaphore.flushRegion_placed (i := s) h rfl
    simp only [isr, queues_setSemaphore]
    exact ⟨hP, fun t c' hp => hp.steady hcur hidle hS⟩
  | setEvents g f =>
    obtain ⟨hP, hS⟩ := EventGroup.setRegion_placed (i := g) h rfl f
    simp only [isr, queues_setEventGroup]
    exact ⟨hP.same (Kernel.sameSchedule_yield _),
      fun t c' _ _ _ => .inl (Kernel.pendSV_yield _)⟩
  | clearEvents g f =>
    obtain ⟨hP, hS⟩ := EventGroup.clearRegion_placed (i := g) h rfl f
    simp only [isr, queues_setEventGroup]
    exact ⟨hP, fun t c' hp => hp.steady hcur hidle hS⟩

/-- A task above the idle level is ready, or the current task does not wait. -/
def Dispatches (o : Objects) : Prop :=
  o.kernel.AppReady ∨ ¬ (o.kernel.getState o.kernel.currentTask).Waiting

/-- A context switch leaves a running task current, or one that is about to yield. -/
theorem pendSV_placed (hs : Sound o) (h : Placed o.kernel o.queues L) (hd : o.Dispatches)
    (t : TaskPtr) (c : Option Call) (hL : t ∈ L → ∃ c' ∈ c, c'.unentered = true) :
    Placed o.kernel.pendSVHandler o.queues L ∧
      Poised t c { o with kernel := o.kernel.pendSVHandler } := by
  obtain ⟨hn, hsame⟩ | ⟨p, i, u, hsw⟩ := hs.registry.pendSV
  · refine ⟨h.same hsame, fun ht hne => ?_⟩
    by_cases hin : t ∈ L
    · obtain ⟨c', hc', hun⟩ := hL hin
      exact .inr (.inl ⟨c', hc', Call.beforeYield_of_unentered hun⟩)
    · refine .of_running ?_
      have hcur : o.kernel.currentTask = t := hsame.currentTask.symm.trans ht
      have hlevel : o.kernel.AboveIdle t := by
        rw [← hcur]
        exact hs.current.resolve_left fun he =>
          hne ((hcur.symm.trans he).trans hsame.idleTask.symm)
      have hset := h.stands t (hcur ▸ hs.registry.current) hin
      have hwait : ¬ (o.kernel.getState t).Waiting := hcur ▸ hd.resolve_left hn
      have hready : o.kernel.getState t ≠ .eReady := by
        intro hready
        obtain ⟨p, hp⟩ := hset.ready hready
        rcases hset.above p hp with hlt | ⟨-, he⟩
        · exact hn ⟨p, _, hlt, hp⟩
        · exact absurd he (ne_of_lt hlevel)
      have hsus : o.kernel.getState t ≠ .eSuspended := hset.unsuspended
      refine (hsame.getState t).trans ?_
      unfold TaskStateType.Waiting at hwait
      cases hst : o.kernel.getState t <;> simp_all
  · refine ⟨h.switches hsw, fun ht _ => .of_running ?_⟩
    have htu : t = u := ht.symm.trans hsw.currentTask
    exact (hsw.getState t).trans (if_pos htu)

theorem interrupt_placed (hs : Sound o) (h : Placed o.kernel o.queues L) {e : Interrupt}
    (hg : Interrupts e o) (hd : e = .pendSV → o.Dispatches) :
    Placed (o.interrupt e).kernel (o.interrupt e).queues L ∧
      ∀ t c, (t ∈ L → ∃ c' ∈ c, c'.unentered = true) → Poised t c o →
        Poised t c (o.interrupt e) := by
  cases e with
  | pendSV =>
    refine ⟨?_, fun t c hL _ => (pendSV_placed hs h (hd rfl) t c hL).2⟩
    obtain ⟨-, hsame⟩ | ⟨p, i, u, hsw⟩ := hs.registry.pendSV
    · exact h.same hsame
    · exact h.switches hsw
  | sysTick =>
    refine ⟨h.sysTickHandler, fun t c _ _ _ _ => .inl ?_⟩
    simp only [interrupt, Kernel.sysTickHandler]
  | isr c =>
    obtain ⟨hP, hpoised⟩ := isr_placed hs h c
    exact ⟨hP, fun t c' _ => hpoised t c'⟩
  | addTask t =>
    have ht : ¬ o.kernel.Registered t := by
      rintro ⟨i, hi⟩
      exact hg i ((hs.registry.slot_lt i t hi).trans_le hs.registry.taskCount_le) hi
    by_cases hroom : o.kernel.taskCount < maxTasks
    · have ha := Kernel.adds_addTask hroom t ((hs.registry.level_le t).trans_lt (by decide))
      have hS : Steady o.kernel (o.kernel.addTask t) :=
        ⟨Kernel.pendSV_addTask _ _, fun u hu => (ha.getState u).trans hu⟩
      exact ⟨h.adds hroom ht ha, fun u c _ hp => hp.steady ha.currentTask ha.idleTask hS⟩
    · have hfull := Kernel.Registry.addTask_of_full hroom t
      simp only [interrupt, hfull]
      exact ⟨h, fun u c _ hp => hp⟩

/-- Where a registered task may be found. -/
def Accounted (o : Objects) (t : TaskPtr) : Prop :=
  t = o.kernel.currentTask ∨
    (o.kernel.getState t = .eReady ∧
      ∃ p < maxPrioryLevels, o.kernel.readyBit p (o.kernel.taskData t).id = true) ∨
    (o.kernel.getState t = .eSleeping ∧
      o.kernel.sleepingTasksBitmap.getLsbD (o.kernel.taskData t).id = true) ∨
    (o.kernel.getState t = .eBlocked ∧ ∃ q, t ∈ (o.queues q).pointers)

theorem accounted_unentered (h : Placed o.kernel o.queues L) (hL : t ∈ L) :
    o.Accounted t ↔ t = o.kernel.currentTask := by
  obtain ⟨-, hun⟩ := h.unentered t hL
  have hstate : o.kernel.getState t = .eReady := hun.state
  refine ⟨?_, .inl⟩
  rintro (hcur | ⟨-, p, -, hp⟩ | ⟨hs, -⟩ | ⟨hs, -⟩)
  · exact hcur
  · exact absurd hp (hun.unlisted p)
  · rw [hstate] at hs
    cases hs
  · rw [hstate] at hs
    cases hs

theorem placed_init (u : Setup) : Placed (init u).kernel (init u).queues ∅ where
  registry := Kernel.registry_new u.idleTask u.assigned
  stands t ht _ := Kernel.stands_new (Standing.settled_fresh le_rfl) u.idleTask u.assigned t ht
  unentered _ ht := ht.elim
  plain q := by cases q <;> exact .new (by decide)
  head _ := rfl
  nodup q := by cases q <;> exact List.nodup_nil
  disjoint q q' t ht := by cases q <;> cases ht
  registered q t ht := by cases q <;> cases ht
  blocked t _ := by
    have hready : (init u).kernel.getState t = .eReady := by
      have ha := Kernel.adds_new u.idleTask u.assigned
      exact (ha.getState t).trans (Kernel.priorities_initial u.idleTask u.assigned t).2.2
    rw [hready]
    refine iff_of_false (by decide) ?_
    rintro ⟨q, hq⟩
    cases q <;> cases hq

end Objects

namespace system
open Objects

/-- Every context switch of the run finds a task that may execute. -/
def Dispatching : Event → State → Prop
  | .env .pendSV, s => s.shared.Dispatches
  | _, _ => True

instance : ∀ e s, Decidable (Dispatching e s)
  | .env .pendSV, s => inferInstanceAs (Decidable (s.shared.kernel.AppReady ∨
      ¬ (s.shared.kernel.getState s.shared.kernel.currentTask).Waiting))
  | .env .sysTick, _ | .env (.isr _), _ | .env (.addTask _), _ | .invoke _ _, _ | .exec _, _ =>
    inferInstanceAs (Decidable True)

/-- The invariants of a run whose switches find a task that may execute. -/
structure Governed (s : State) : Prop where
  holds : Protocol.Holds (fun o => Sound o ∧ o.kernel.RunningIsCurrent)
    (fun t c o => Local t c o ∧ Poised t c o) s
  placed : Placed s.shared.kernel s.shared.queues (unentered s.call)

theorem governed_init (u : Setup) : Governed (init u) := by
  refine ⟨⟨⟨sound_init u, Kernel.runningIsCurrent_new _ _⟩, fun t => ?_⟩, ?_⟩
  · refine ⟨fun c hc => (nomatch hc), fun hcur hne => absurd ?_ hne⟩
    have ha := Kernel.adds_new u.idleTask u.assigned
    exact hcur.symm.trans (ha.currentTask.trans ha.idleTask.symm)
  · have hnone : unentered (init u).call = ∅ :=
      Set.eq_empty_iff_forall_notMem.mpr fun t ⟨c, hc, _⟩ => nomatch hc
    rw [hnone]
    exact placed_init u

theorem Governed.proceeds {s : State} {t : TaskPtr} {c : Call} (h : Governed s)
    (hc : s.call t = some c) (hr : Runs t s.shared) :
    InCall t c s.shared ∧ Proceeds t s.shared.kernel (some c) := by
  have hin := (h.holds.2 t).1 c hc
  have hpoised := (h.holds.2 t).2
  rw [hc] at hpoised
  exact ⟨hin, hpoised hr.1 hin.ne_idle⟩

theorem Governed.apply {s : State} {e : Event} (h : Governed s) (hg : system.machine.guard e s)
    (hd : Dispatching e s) : Governed (system.machine.apply e s) := by
  have hplaced := h.placed
  constructor
  · refine Protocol.holds_apply (C := fun e' s' => Dispatching e' s' ∧ s' = s) ?_ ?_ ?_ ?_ h.holds
      hg ⟨hd, rfl⟩
    · intro t c o hI hA hen
      refine ⟨fun c' hc' => ?_, fun ht hne => ?_⟩
      · obtain rfl := Option.some.inj hc'
        exact hI.1.invoke hen.1 hen.2.1 hen.2.2
      · rcases hA.2 ht hne with hpend | ⟨c', hc', -⟩ | hrun
        · exact .inl hpend
        · cases hc'
        · exact .of_running hrun
    · rintro t c s' hc ⟨-, rfl⟩ hs hen
      obtain ⟨hin, hp⟩ := h.proceeds hc hen
      obtain ⟨hS, hL, hm⟩ := hs.1.1.step hin hen.1
      obtain ⟨-, hnext⟩ := step_placed hs.1.1 hin hen hplaced (fun hun => ⟨c, hc, hun⟩) hp
      exact ⟨⟨hS, hm.runningIsCurrent hs.1.1.registry hs.1.2⟩, hL, fun _ _ => hnext⟩
    · rintro t c s' v hc - hs hen hv
      have hin := (hs.2 t).1 c hc
      obtain ⟨-, -, hm⟩ := hs.1.1.step hin hen.1
      obtain ⟨he, -, -⟩ := step_effect (P := .all) hs.1.1 hin hen.1 (fun _ => trivial)
        (fun _ => trivial) fun _ _ => trivial
      refine ⟨(hs.2 v).1.moves hs.1.1 hm, fun hcur => ?_⟩
      exact absurd ((hcur.symm.trans he.sameTable.currentTask).trans hen.1) hv
    · rintro e s' ⟨hC, rfl⟩ hs hg
      obtain ⟨hm, -, -⟩ := interrupt_moves (P := .all) hs.1.1 hg
      have hd : e = .pendSV → s'.shared.Dispatches := by
        rintro rfl
        exact hC
      obtain ⟨-, hpoised⟩ := interrupt_placed hs.1.1 hplaced hg hd
      exact ⟨⟨hs.1.1.interrupt hg, hm.runningIsCurrent hs.1.1.registry hs.1.2⟩,
        fun v => ⟨(hs.2 v).1.moves hs.1.1 hm, hpoised v _ id (hs.2 v).2⟩⟩
  · cases e with
    | invoke t c =>
      change Placed _ _ (unentered (Function.update s.call t (some c)))
      rw [unentered_invoke hg.1 hg.2.2.2]
      exact hplaced
    | exec t =>
      obtain ⟨c, hc, hr⟩ := Protocol.call_of_guard hg
      obtain ⟨hin, hp⟩ := h.proceeds hc hr
      obtain ⟨hP, -⟩ := step_placed h.holds.1.1 hin hr hplaced (fun hun => ⟨c, hc, hun⟩) hp
      rw [Protocol.apply_exec hc]
      change Placed _ _ (unentered (Function.update s.call t (s.shared.step c).2.call?))
      rw [unentered_step hc]
      exact hP
    | env e =>
      have hd : e = .pendSV → s.shared.Dispatches := by
        rintro rfl
        exact hd
      exact (interrupt_placed h.holds.1.1 hplaced hg hd).1

theorem governed_reached {u : Setup} {es : List Event}
    (h : (system.machine.restrict Dispatching).Valid (init u) es) : Governed (reached u es) :=
  Machine.invariant (M := system.machine.restrict Dispatching)
    (fun _ _ hs hg => hs.apply hg.1 hg.2) (governed_init u) h

def timeoutSetup : Setup := { idleTask := 0, assigned := fun t => if t = 2 then .high else .low }

/-- A tick comes between the first two statements of the `setTaskReady` of `signal`. -/
def signalRun : List Event :=
  [.env (.addTask 1), .env (.addTask 2), .env .sysTick, .env .pendSV,
    .invoke 2 (.semaphore 0 .signal), .exec 2, .exec 2, .env .sysTick, .env .pendSV]

/-- Every switch of that run finds a task, and the one that signals is lost. -/
theorem signalRun_lost :
    (system.machine.restrict Dispatching).Valid (init timeoutSetup) signalRun ∧
      (reached timeoutSetup signalRun).shared.kernel.Registered 2 ∧
      ¬ (reached timeoutSetup signalRun).shared.Accounted 2 := by
  have hrun : (system.machine.restrict Dispatching).Valid (init timeoutSetup) signalRun := by
    decide +kernel
  have hcall : (reached timeoutSetup signalRun).call 2 =
      some (.semaphore 0 (.signalWord 2)) := by
    decide +kernel
  refine ⟨hrun, ⟨2, by decide +kernel⟩, ?_⟩
  rw [accounted_unentered (governed_reached hrun).placed ⟨_, hcall, rfl⟩]
  decide +kernel

end system

end CppRtos
