import CppRtos.Mutex.Protocol

/-! Priorities over runs of `acquire` and `release`. A boost overwrites the base priority
together with the priority, so `release` has nothing left to restore from. -/
namespace CppRtos.Mutex

/-! ## One step -/

/-- Both priorities of the task are kept, or the priority is reset to the base. -/
def KeepsBase (k k' : Kernel) (t : TaskPtr) : Prop :=
  k'.getBasePriority t = k.getBasePriority t ∧
    (k'.getPriority t = k.getPriority t ∨ k'.getPriority t = k.getBasePriority t)

/-- Both priorities of the task become one that is higher than its present one. -/
def Raises (k k' : Kernel) (t : TaskPtr) : Prop :=
  k.getPriority t < k'.getPriority t ∧ k'.getBasePriority t = k'.getPriority t

theorem keepsBase_of_sameParameters {k k' : Kernel} (h : Kernel.SameParameters k k')
    (t : TaskPtr) : KeepsBase k k' t := ⟨h.basePriority t, .inl (h.priority t)⟩

theorem keepsBase_resetPriority (k : Kernel) (p t : TaskPtr) :
    KeepsBase k (k.modifyTask p (·.resetPriority)) t := by
  simp only [KeepsBase, Kernel.getPriority, Kernel.getBasePriority, Kernel.taskData_modifyTask]
  split_ifs with h
  · subst h
    exact ⟨rfl, .inr rfl⟩
  · exact ⟨rfl, .inl rfl⟩

theorem KeepsBase.trans_sameParameters {k k' k'' : Kernel} {t : TaskPtr} (h : KeepsBase k k' t)
    (h' : Kernel.SameParameters k' k'') : KeepsBase k k'' t := by
  rw [KeepsBase, h'.priority, h'.basePriority]
  exact h

theorem KeepsBase.of_sameParameters_trans {k k' k'' : Kernel} {t : TaskPtr}
    (h : Kernel.SameParameters k k') (h' : KeepsBase k' k'' t) : KeepsBase k k'' t := by
  rwa [KeepsBase, h.priority, h.basePriority] at h'

theorem inheritPriority_priorities (k : Kernel) (m : Mutex) (p t : TaskPtr) :
    ((∃ o, m.owner = some o ∧ k.getPriority o < k.getPriority p ∧ o = t) ∧
      Raises k (inheritPriority k m p) t) ∨
    ((∀ o, m.owner = some o → k.getPriority o < k.getPriority p → o ≠ t) ∧
      KeepsBase k (inheritPriority k m p) t) := by
  obtain ⟨o, ho, hlt, h⟩ | ⟨hno, h⟩ := inheritPriority_cases k m p
  · have hd := k.taskData_modifyTask o t (·.setPriority (k.getPriority p))
    rw [← h, TaskData.setPriority_of_lt _ hlt] at hd
    by_cases hot : o = t
    · subst hot
      rw [if_pos rfl] at hd
      refine .inl ⟨⟨o, ho, hlt, rfl⟩, ?_⟩
      simp only [Raises, Kernel.getPriority, Kernel.getBasePriority, hd]
      exact ⟨hlt, trivial⟩
    · rw [if_neg (Ne.symm hot)] at hd
      refine .inr ⟨fun o' ho' _ => Option.some.inj (ho'.symm.trans ho) ▸ hot, ?_⟩
      simp only [KeepsBase, Kernel.getPriority, Kernel.getBasePriority, hd, true_or, and_self]
  · exact .inr ⟨fun o ho hlt => absurd hlt (hno o ho),
      keepsBase_of_sameParameters h.toSameParameters t⟩

theorem step_priorities (k : Kernel) (m : Mutex) (c : Call) (t : TaskPtr) :
    (boosted k m c = some t ∧ Raises k (step k m c).1 t) ∨
    (boosted k m c ≠ some t ∧ KeepsBase k (step k m c).1 t) := by
  cases c with
  | acquireLoop f e p =>
    have hin : ∀ k', Kernel.SameParameters (inheritPriority k.enterCritical m p) k' →
        0 < m.count → timedOut k f e = false →
        (boosted k m (.acquireLoop f e p) = some t ∧ Raises k k' t) ∨
        (boosted k m (.acquireLoop f e p) ≠ some t ∧ KeepsBase k k' t) := by
      intro k' hk' hc ht
      rw [ne_eq, boosted_acquireLoop hc ht, Raises, hk'.priority, hk'.basePriority]
      obtain ⟨ho, hr⟩ | ⟨ho, hr⟩ := inheritPriority_priorities k.enterCritical m p t
      · exact .inl ⟨ho, hr⟩
      · exact .inr ⟨fun ⟨o, h1, h2, h3⟩ => ho o h1 h2 h3, hr.trans_sameParameters hk'⟩
    have hport : ∀ q, KeepsBase k { k with port := q } t := fun q =>
      keepsBase_of_sameParameters (Kernel.sameSchedule_port k q).toSameParameters t
    simp only [step]
    obtain ⟨hc, h⟩ | ⟨-, ht, h⟩ | ⟨hc, ht, -, h⟩ | ⟨hc, ht, -, h⟩ := acquireRegion_cases k m f e p
    · rw [h]
      exact .inr ⟨by simp [boosted, not_lt.mpr hc], hport _⟩
    · rw [h]
      exact .inr ⟨by simp [boosted, ht], hport _⟩
    · rw [h]
      exact hin _ ((sameParameters_blockSelf _ p).trans
        (Kernel.sameSchedule_exitCritical _).toSameParameters) hc ht
    · rw [h]
      exact hin _ (Kernel.sameSchedule_exitCritical _).toSameParameters hc ht
  | releaseRegion p =>
    refine .inr ⟨by simp [boosted], ?_⟩
    have henter := (Kernel.sameSchedule_enterCritical k).toSameParameters
    simp only [step]
    obtain ⟨-, h⟩ | ⟨-, -, h⟩ | ⟨-, u, -, b, c, -, h⟩ := releaseRegion_cases k m p
    · rw [h]
      exact keepsBase_of_sameParameters (henter.trans
        (Kernel.sameSchedule_exitCritical _).toSameParameters) t
    · rw [h]
      exact keepsBase_of_sameParameters ((henter.trans
        (Kernel.sameSchedule_assert _ _).toSameParameters).trans
        (Kernel.sameSchedule_exitCritical _).toSameParameters) t
    · rw [h]
      have hready := henter.trans (Kernel.sameParameters_setTaskReady k.enterCritical (some u))
      refine KeepsBase.trans_sameParameters ?_ ((Kernel.sameSchedule_exitCritical _).trans
        (Kernel.sameSchedule_assert _ c)).toSameParameters
      split_ifs
      · exact KeepsBase.of_sameParameters_trans hready (keepsBase_resetPriority _ p t)
      · exact keepsBase_of_sameParameters hready t
  | _ =>
    exact .inr ⟨by simp [boosted], keepsBase_of_sameParameters
      (step_kernel k m (by simp) (by simp)).toSameParameters t⟩

/-! ## Runs -/

/-- A kernel with the priorities of the given control blocks. -/
def withPriorities (k : Kernel) (d : TaskPtr → TaskData) : Kernel :=
  { k with taskData := fun t =>
      { k.taskData t with priority := (d t).priority, basePriority := (d t).basePriority } }

/-- The protocol in which only `acquire` and `release` change priorities. -/
def priorityProtocol : Protocol TaskPtr Shared (ℕ × Call) MutexResult Kernel :=
  protocol fun k k' => withPriorities k' k.taskData

def startWith (assigned : TaskPtr → TaskPriority) (k : Kernel) : State :=
  start (withPriorities k fun t => TaskData.fresh (assigned t))

instance (a : Event) (s : State) : Decidable (priorityProtocol.machine.guard a s) :=
  inferInstanceAs (Decidable ((protocol _).machine.guard a s))

/-- The event is a blocking path of `acquire` that raises the priority of the owner `t`. -/
def Boosts (t : TaskPtr) : Event → State → Prop
  | .exec u, s => ∃ c, s.call u = some c ∧
      boosted s.shared.kernel (s.shared.mutexes c.1) c.2 = some t
  | _, _ => False

/-- No event of the run raises the priority of `t`. -/
def Unboosted (t : TaskPtr) (s : State) (es : List Event) : Prop :=
  (priorityProtocol.machine.restrict fun a s => ¬ Boosts t a s).Valid s es

def OwnsNothing (s : State) (t : TaskPtr) : Prop := ∀ m, (s.shared.mutexes m).owner ≠ some t

/-- Both priorities of the task are the one the application assigned. -/
def Restored (assigned : TaskPtr → TaskPriority) (s : State) (t : TaskPtr) : Prop :=
  s.shared.kernel.getPriority t = assigned t ∧ s.shared.kernel.getBasePriority t = assigned t

def Level (s : State) (t : TaskPtr) : Prop :=
  s.shared.kernel.getBasePriority t = s.shared.kernel.getPriority t

theorem event_priorities {a : Event} {s : State} {t : TaskPtr} (h : Level s t) :
    (Boosts t a s ∧ s.shared.kernel.getPriority t <
        (priorityProtocol.machine.apply a s).shared.kernel.getPriority t ∨
      ¬ Boosts t a s ∧ (priorityProtocol.machine.apply a s).shared.kernel.getPriority t =
        s.shared.kernel.getPriority t) ∧
    Level (priorityProtocol.machine.apply a s) t := by
  cases a with
  | invoke u c => exact ⟨.inr ⟨id, rfl⟩, h⟩
  | env k' => exact ⟨.inr ⟨id, rfl⟩, h⟩
  | exec u =>
    cases hc : s.call u with
    | none =>
      have hs : priorityProtocol.machine.apply (.exec u) s = s := by
        simp only [Protocol.machine, Protocol.apply, hc]
      rw [hs]
      exact ⟨.inr ⟨by simp [Boosts, hc], rfl⟩, h⟩
    | some c =>
      have hk : (priorityProtocol.machine.apply (.exec u) s).shared.kernel =
          (step s.shared.kernel (s.shared.mutexes c.1) c.2).1 := by
        simp only [Protocol.machine, Protocol.apply, hc]
        rfl
      have hb : Boosts t (.exec u) s ↔
          boosted s.shared.kernel (s.shared.mutexes c.1) c.2 = some t := by
        simp [Boosts, hc]
      rw [Level, hb, hk]
      obtain ⟨ho, hr⟩ | ⟨ho, hkeep⟩ :=
        step_priorities s.shared.kernel (s.shared.mutexes c.1) c.2 t
      · exact ⟨.inl ⟨ho, hr.1⟩, hr.2⟩
      · have hp : (step s.shared.kernel (s.shared.mutexes c.1) c.2).1.getPriority t =
            s.shared.kernel.getPriority t := hkeep.2.elim id fun hp => hp.trans h
        exact ⟨.inr ⟨ho, hp⟩, hkeep.1.trans (h.trans hp.symm)⟩

theorem run_priorities {es : List Event} {s : State} {t : TaskPtr} (h : Level s t)
    (hv : priorityProtocol.machine.Valid s es) :
    (Unboosted t s es ∧ (priorityProtocol.machine.exec s es).shared.kernel.getPriority t =
        s.shared.kernel.getPriority t ∨
      ¬ Unboosted t s es ∧ s.shared.kernel.getPriority t <
        (priorityProtocol.machine.exec s es).shared.kernel.getPriority t) ∧
    Level (priorityProtocol.machine.exec s es) t := by
  induction es generalizing s with
  | nil => exact ⟨.inl ⟨trivial, rfl⟩, h⟩
  | cons a es ih =>
    obtain ⟨hstep, hl⟩ := event_priorities (a := a) h
    obtain ⟨hrun, hend⟩ := ih hl hv.2
    have hcons : Unboosted t s (a :: es) ↔ ¬ Boosts t a s ∧
        Unboosted t (priorityProtocol.machine.apply a s) es :=
      ⟨fun h => ⟨h.1.2, h.2⟩, fun h => ⟨⟨hv.1, h.1⟩, h.2⟩⟩
    refine ⟨?_, hend⟩
    rw [hcons, Machine.exec_cons]
    simp only [TaskPriority.lt_iff] at hstep hrun ⊢
    obtain ⟨hb, hlt⟩ | ⟨hb, he⟩ := hstep <;> obtain ⟨hu, he'⟩ | ⟨hu, hlt'⟩ := hrun
    · exact .inr ⟨fun h => h.1 hb, by rwa [he']⟩
    · exact .inr ⟨fun h => h.1 hb, hlt'.trans hlt⟩
    · exact .inl ⟨⟨hb, hu⟩, he'.trans he⟩
    · exact .inr ⟨fun h => hu h.2, by rwa [← he]⟩

/-- A task with one of the 16 levels has its assigned priorities exactly as long as no
blocked task of higher priority has raised them. -/
theorem restored_iff {assigned : TaskPtr → TaskPriority} {k : Kernel} {es : List Event}
    (hv : priorityProtocol.machine.Valid (startWith assigned k) es) {t : TaskPtr}
    (ht : assigned t ≠ .reserved) :
    Restored assigned (priorityProtocol.machine.exec (startWith assigned k) es) t ↔
      Unboosted t (startWith assigned k) es := by
  have hle : (assigned t).level ≤ 15 := (assigned t).level_le_idle_or_reserved.resolve_right ht
  have hfresh : TaskData.fresh (assigned t) =
      { priority := assigned t, basePriority := assigned t } :=
    TaskData.setPriority_of_level_le _ hle
  have hp : (startWith assigned k).shared.kernel.getPriority t = assigned t :=
    congrArg TaskData.priority hfresh
  have hb : (startWith assigned k).shared.kernel.getBasePriority t = assigned t :=
    congrArg TaskData.basePriority hfresh
  obtain ⟨⟨hu, he⟩ | ⟨hu, hlt⟩, hl⟩ := run_priorities (t := t) (hb.trans hp.symm) hv
  · exact ⟨fun _ => hu, fun _ => ⟨he.trans hp, hl.trans (he.trans hp)⟩⟩
  · refine ⟨fun hr => absurd hlt ?_, fun h => absurd h hu⟩
    rw [hr.1, hp, TaskPriority.lt_iff]
    exact lt_irrefl _

/-- In every state of a run the tasks that own nothing have their assigned priorities, if
and only if every assigned priority is one of the 16 levels and no task that has been
boosted is ever without a mutex afterwards. -/
theorem priority_restored_iff (assigned : TaskPtr → TaskPriority) (k : Kernel)
    (es : List Event) (hv : priorityProtocol.machine.Valid (startWith assigned k) es) :
    (∀ fs, fs <+: es → ∀ t,
      OwnsNothing (priorityProtocol.machine.exec (startWith assigned k) fs) t →
      Restored assigned (priorityProtocol.machine.exec (startWith assigned k) fs) t) ↔
    (∀ t, assigned t ≠ .reserved) ∧ ∀ fs, fs <+: es → ∀ t,
      OwnsNothing (priorityProtocol.machine.exec (startWith assigned k) fs) t →
      Unboosted t (startWith assigned k) fs := by
  have hvalid : ∀ fs, fs <+: es → priorityProtocol.machine.Valid (startWith assigned k) fs :=
    fun fs hfs => Machine.valid_prefix hv hfs
  constructor
  · intro h
    have hlevel : ∀ t, assigned t ≠ .reserved := by
      intro t ht
      have hr := (h [] List.nil_prefix t (by simp [OwnsNothing, startWith, start,
        Protocol.start, Mutex.new])).1
      rw [ht] at hr
      change (TaskData.fresh (assigned t)).priority = .reserved at hr
      rw [ht] at hr
      exact absurd hr (by decide)
    exact ⟨hlevel, fun fs hfs t ho => (restored_iff (hvalid fs hfs) (hlevel t)).mp (h fs hfs t ho)⟩
  · rintro ⟨hlevel, h⟩ fs hfs t ho
    exact (restored_iff (hvalid fs hfs) (hlevel t)).mpr (h fs hfs t ho)

def kernelOf (t : TaskPtr) : Kernel :=
  { currentTask := t, idleTask := 0, taskData := fun _ => { state := .eRunning } }

/-- Task 1 of priority `low` takes a mutex and releases it after task 2 of priority `high`
has blocked on it. -/
def inversionRun : List Event :=
  [.env (kernelOf 1), .invoke 1 (0, .acquire waitForever), .exec 1, .exec 1, .exec 1,
    .env (kernelOf 2), .invoke 2 (0, .acquire waitForever), .exec 2, .exec 2, .exec 2,
    .env (kernelOf 1), .invoke 1 (0, .release), .exec 1, .exec 1, .exec 1]

/-- After that run task 1 owns nothing, and its priority is still `high`. -/
theorem inversionRun_not_restored :
    let assigned (t : TaskPtr) : TaskPriority := if t = 2 then .high else .low
    let s := priorityProtocol.machine.exec (startWith assigned (kernelOf 0)) inversionRun
    priorityProtocol.machine.Valid (startWith assigned (kernelOf 0)) inversionRun ∧
      OwnsNothing s 1 ∧ ¬ Restored assigned s 1 := by
  refine ⟨by decide +kernel, ?_, fun h => absurd h.1 (by decide +kernel)⟩
  intro m
  cases m with
  | zero => decide +kernel
  | succ m => exact (by simp : (none : Option TaskPtr) ≠ some 1)

/-- Without the second task the same calls leave the priorities of task 1 as assigned. -/
theorem priority_restored_uncontended :
    let assigned (_ : TaskPtr) : TaskPriority := .low
    let es := inversionRun.take 5 ++ inversionRun.drop 10
    (∀ fs, fs <+: es → ∀ t,
      OwnsNothing (priorityProtocol.machine.exec (startWith assigned (kernelOf 0)) fs) t →
      Restored assigned (priorityProtocol.machine.exec (startWith assigned (kernelOf 0)) fs) t) ↔
    (∀ t, assigned t ≠ .reserved) ∧ ∀ fs, fs <+: es → ∀ t,
      OwnsNothing (priorityProtocol.machine.exec (startWith assigned (kernelOf 0)) fs) t →
      Unboosted t (startWith assigned (kernelOf 0)) fs :=
  priority_restored_iff _ _ _ (by decide +kernel)

end CppRtos.Mutex
