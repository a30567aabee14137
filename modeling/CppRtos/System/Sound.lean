import CppRtos.Kernel.Moves
import CppRtos.System.Effects

/-! What holds in every run of the system, before any condition on the run: the kernel is
well registered, queues, owners and calls refer to registered tasks, and tasks that
execute calls have priorities above the idle level. -/
namespace CppRtos

/-- The locals of the call that hold a task hold `t`. -/
def Call.Names (t : TaskPtr) : Call → Prop
  | .task (.sleep self _) => self = t
  | .semaphore _ (.signalWord p) => p = t
  | .mutex _ (.acquireStart _ p) | .mutex _ (.acquireLoop _ _ p)
  | .mutex _ (.acquireYield _ _ p) | .mutex _ (.releaseRegion p) => p = t
  | .eventGroup _ (.waitYield _ _ p) | .eventGroup _ (.waitLoop _ _ p) => p = t
  | _ => True

/-- Points whose step sets the state of the calling task directly. -/
def Call.suspends : Call → Bool
  | .task (.sleep _ _) | .eventGroup _ (.waitForEvents _ _) => true
  | _ => false

/-- Points whose step is one of the first two statements of `setTaskReady`. -/
def Call.splits : Call → Bool
  | .semaphore _ c => c.splits
  | _ => false

namespace Objects

/-- The queues hold registered tasks, and owners are registered. -/
structure Entries (o : Objects) : Prop where
  semaphores : ∀ s, (o.semaphores s).waitingQueue.Forall o.kernel.RegisteredOrNull
  mutexes : ∀ m, (o.mutexes m).blockedTasks.Forall o.kernel.RegisteredOrNull
  owners : ∀ m t, (o.mutexes m).owner = some t → o.kernel.Registered t
  eventGroups : ∀ g, (o.eventGroups g).waitingTasks.Forall o.kernel.RegisteredOrNull

structure Sound (o : Objects) : Prop where
  registry : o.kernel.Registry
  entries : o.Entries
  current : o.kernel.currentTask = o.kernel.idleTask ∨ o.kernel.AboveIdle o.kernel.currentTask
  owners : ∀ m t, (o.mutexes m).owner = some t → o.kernel.AboveIdle t

/-- A task in a call is registered, above the idle level, and not the idle task. -/
structure InCall (t : TaskPtr) (c : Call) (o : Objects) : Prop where
  registered : o.kernel.Registered t
  level : o.kernel.AboveIdle t
  ne_idle : t ≠ o.kernel.idleTask
  names : c.Names t

def Local (t : TaskPtr) (c : Option Call) (o : Objects) : Prop :=
  ∀ c', c = some c' → InCall t c' o

def boosts (o : Objects) : Call → Option TaskPtr
  | .mutex m c => Mutex.boosted o.kernel (o.mutexes m) c
  | _ => none

/-! ## Entries -/

theorem Entries.kernel {o : Objects} (h : o.Entries) {k : Kernel}
    (hr : ∀ t, o.kernel.Registered t → k.Registered t) : Entries { o with kernel := k } := by
  have hnull : ∀ t, o.kernel.RegisteredOrNull t → k.RegisteredOrNull t :=
    fun t ht u hu => hr u (ht u hu)
  exact ⟨fun s => (h.semaphores s).imp hnull, fun m => (h.mutexes m).imp hnull,
    fun m t ht => hr t (h.owners m t ht), fun g => (h.eventGroups g).imp hnull⟩

theorem Entries.setSemaphore {o : Objects} (h : o.Entries) {k : Kernel} (s : ℕ)
    {sem : Semaphore} (hr : ∀ t, o.kernel.Registered t → k.Registered t)
    (hs : sem.waitingQueue.Forall o.kernel.RegisteredOrNull) :
    (o.setSemaphore k s sem).Entries := by
  have hk := h.kernel hr
  refine ⟨fun s' => ?_, hk.mutexes, hk.owners, hk.eventGroups⟩
  by_cases hs' : s' = s
  · subst hs'
    simp only [Objects.setSemaphore, Function.update_self]
    exact hs.imp fun t ht u hu => hr u (ht u hu)
  · simp only [Objects.setSemaphore, Function.update_of_ne hs']
    exact hk.semaphores s'

theorem Entries.setMutex {o : Objects} (h : o.Entries) {k : Kernel} (m : ℕ) {mtx : Mutex}
    (hr : ∀ t, o.kernel.Registered t → k.Registered t)
    (hq : mtx.blockedTasks.Forall o.kernel.RegisteredOrNull)
    (ho : ∀ t, mtx.owner = some t → o.kernel.Registered t) : (o.setMutex k m mtx).Entries := by
  have hk := h.kernel hr
  constructor
  · exact hk.semaphores
  · intro m'
    by_cases hm : m' = m
    · subst hm
      simp only [Objects.setMutex, Function.update_self]
      exact hq.imp fun t ht u hu => hr u (ht u hu)
    · simp only [Objects.setMutex, Function.update_of_ne hm]
      exact hk.mutexes m'
  · intro m' t ht
    by_cases hm : m' = m
    · subst hm
      simp only [Objects.setMutex, Function.update_self] at ht
      exact hr t (ho t ht)
    · simp only [Objects.setMutex, Function.update_of_ne hm] at ht
      exact hk.owners m' t ht
  · exact hk.eventGroups

theorem Entries.setEventGroup {o : Objects} (h : o.Entries) {k : Kernel} (g : ℕ)
    {grp : EventGroup} (hr : ∀ t, o.kernel.Registered t → k.Registered t)
    (hg : grp.waitingTasks.Forall o.kernel.RegisteredOrNull) :
    (o.setEventGroup k g grp).Entries := by
  have hk := h.kernel hr
  refine ⟨hk.semaphores, hk.mutexes, hk.owners, fun g' => ?_⟩
  by_cases hg' : g' = g
  · subst hg'
    simp only [Objects.setEventGroup, Function.update_self]
    exact hg.imp fun t ht u hu => hr u (ht u hu)
  · simp only [Objects.setEventGroup, Function.update_of_ne hg']
    exact hk.eventGroups g'

/-! ## Steps of calls -/

section
variable {P : Kernel.Permit} {o : Objects} {t : TaskPtr} {c : Call}

theorem task_effect (hcur : o.kernel.Registered t) (c : TaskCall)
    (hn : ∀ self n, c = .sleep self n → self = t ∧ P.suspend o.kernel t) :
    Kernel.Effect P.Allows o.kernel (TaskCall.step o.kernel c).1 := by
  cases c with
  | sleep self n =>
    obtain ⟨rfl, hsus⟩ := hn self n rfl
    have hassert := Kernel.sameSchedule_assert o.kernel (!o.kernel.isInsideInterrupt)
    have henter := hassert.trans (Kernel.sameSchedule_enterCritical _)
    refine (Kernel.Effect.same hassert).trans (Kernel.Effect.region (.run (.sleep self n) ?_))
    exact ⟨(henter.registered self).mpr hcur, P.suspend_congr _ _ _ henter hsus⟩
  | sleepYield => exact .yield o.kernel
  | yield => exact .same (Kernel.sameSchedule_taskYield o.kernel)
  | yieldReturn => exact .refl _ _

/-- A step of a call is an effect; new owners are the calling task. -/
theorem step_effect (hs : Sound o) (hl : InCall t c o) (hcur : o.kernel.currentTask = t)
    (hsplit : c.splits = true → P.split) (hsus : c.suspends = true → P.suspend o.kernel t)
    (hb : ∀ u, o.boosts c = some u → P.boost o.kernel u) :
    Kernel.Effect P.Allows o.kernel (o.step c).1.kernel ∧ (o.step c).1.Entries ∧
      ∀ m u, ((o.step c).1.mutexes m).owner = some u → (o.mutexes m).owner = some u ∨ u = t := by
  have hreg : o.kernel.Registered o.kernel.currentTask := hs.registry.current
  cases c with
  | task c =>
    have he := task_effect (P := P) hl.registered c fun self n hc => by
      subst hc
      exact ⟨hl.names, hsus rfl⟩
    exact ⟨he, hs.entries.kernel fun u hu => (he.sameTable.registered u).mpr hu,
      fun m u hu => .inl hu⟩
  | semaphore s c =>
    obtain ⟨he, hq⟩ := Semaphore.step_effect (P := P) hreg (hs.entries.semaphores s) (c := c)
      hsplit fun p hc => by
        subst hc
        exact hl.names.trans hcur.symm
    exact ⟨he, hs.entries.setSemaphore s (fun u hu => (he.sameTable.registered u).mpr hu) hq,
      fun m u hu => .inl hu⟩
  | mutex m c =>
    have hper : Mutex.Permitted P o.kernel (o.mutexes m) t c := by
      constructor
      · exact hl.registered
      · exact hs.registry.highest_le t hl.registered
      · exact hs.entries.mutexes m
      · exact hs.entries.owners m
      · exact fun u hu => hb u hu
      · rintro f e p rfl
        exact hl.names
      · rintro p rfl
        exact ⟨hl.names, hs.registry.base_eq hl.level⟩
    obtain ⟨he, hq, ho⟩ := Mutex.step_effect hper
    refine ⟨he, hs.entries.setMutex m (fun u hu => (he.sameTable.registered u).mpr hu) hq ho, ?_⟩
    intro m' u hu
    by_cases hm : m' = m
    · subst hm
      simp only [step, Objects.setMutex, Function.update_self] at hu
      exact Mutex.step_owner_cases hu fun f e p hc => by
        subst hc
        exact hl.names
    · simp only [step, Objects.setMutex, Function.update_of_ne hm] at hu
      exact .inl hu
  | eventGroup g c =>
    obtain ⟨he, hq⟩ := EventGroup.step_effect (P := P) hreg (hs.entries.eventGroups g) (c := c)
      fun f n hc => by
        subst hc
        rw [hcur]
        exact hsus rfl
    exact ⟨he, hs.entries.setEventGroup g (fun u hu => (he.sameTable.registered u).mpr hu) hq,
      fun m u hu => .inl hu⟩

end

/-! ## Interrupts -/

theorem mutexes_setEventGroup (o : Objects) (k : Kernel) (g : ℕ) (grp : EventGroup) :
    (o.setEventGroup k g grp).mutexes = o.mutexes := rfl

section
variable {P : Kernel.Permit} {o : Objects}

theorem isr_effect (h : o.Entries) (c : IsrCall) :
    Kernel.Effect P.Allows o.kernel (o.isr c).kernel ∧ (o.isr c).Entries ∧
      (o.isr c).mutexes = o.mutexes := by
  cases c with
  | signal s =>
    obtain ⟨he, hq⟩ := Semaphore.signalRegion_effect (P := P) (h.semaphores s)
    exact ⟨he, h.setSemaphore s (fun u hu => (he.sameTable.registered u).mpr hu) hq, rfl⟩
  | flush s =>
    obtain ⟨he, hq⟩ := Semaphore.flushRegion_effect (P := P) (h.semaphores s)
    exact ⟨he, h.setSemaphore s (fun u hu => (he.sameTable.registered u).mpr hu) hq, rfl⟩
  | setEvents g f =>
    obtain ⟨he, hq⟩ := EventGroup.setRegion_effect (P := P) (h.eventGroups g) f
    set r := EventGroup.setRegion o.kernel (o.eventGroups g) f
    have hy : Kernel.Effect P.Allows o.kernel r.1.yield := he.trans (.yield r.1)
    exact ⟨hy, h.setEventGroup g (fun u hu => (hy.sameTable.registered u).mpr hu) hq,
      mutexes_setEventGroup o _ g r.2⟩
  | clearEvents g f =>
    obtain ⟨he, hq⟩ := EventGroup.clearRegion_effect (P := P) (h.eventGroups g) f
    exact ⟨he, h.setEventGroup g (fun u hu => (he.sameTable.registered u).mpr hu) hq,
      mutexes_setEventGroup o _ g _⟩

theorem interrupt_moves (hs : Sound o) {e : Interrupt} (hg : Interrupts e o) :
    Kernel.Moves P o.kernel (o.interrupt e).kernel ∧ (o.interrupt e).Entries ∧
      (o.interrupt e).mutexes = o.mutexes := by
  have hkernel : ∀ {k : Kernel}, Kernel.Moves P o.kernel k →
      Kernel.Moves P o.kernel k ∧ Entries { o with kernel := k } :=
    fun hm => ⟨hm, hs.entries.kernel fun u hu => hm.registered hs.registry hu⟩
  cases e with
  | pendSV =>
    obtain ⟨hm, he⟩ := hkernel (Kernel.moves_pendSVHandler P hs.registry)
    exact ⟨hm, he, rfl⟩
  | sysTick =>
    obtain ⟨hm, he⟩ := hkernel (Kernel.moves_sysTickHandler P hs.registry)
    exact ⟨hm, he, rfl⟩
  | isr c =>
    obtain ⟨he, hq, ho⟩ := isr_effect (P := P) hs.entries c
    exact ⟨.effect he, hq, ho⟩
  | addTask t =>
    have ht : ¬ o.kernel.Registered t := by
      rintro ⟨i, hi⟩
      have hlt := (hs.registry.slot_lt i t hi).trans_le hs.registry.taskCount_le
      exact hg i hlt hi
    obtain ⟨hm, he⟩ := hkernel (Kernel.moves_addTask P hs.registry ht)
    exact ⟨hm, he, rfl⟩

end

theorem currentTask_interrupt {o : Objects} (hs : Sound o) {e : Interrupt} (he : e ≠ .pendSV) :
    (o.interrupt e).kernel.currentTask = o.kernel.currentTask := by
  cases e with
  | pendSV => exact absurd rfl he
  | sysTick =>
    exact (Kernel.Effect.sysTickHandler (P := .all) hs.registry.alarms).sameTable.currentTask
  | isr c => exact (isr_effect (P := .all) hs.entries c).1.sameTable.currentTask
  | addTask t =>
    by_cases hroom : o.kernel.taskCount < maxTasks
    · exact (Kernel.adds_addTask hroom t
        ((hs.registry.level_le t).trans_lt (by decide))).currentTask
    · rw [interrupt, Kernel.Registry.addTask_of_full hroom]

/-! ## Runs -/

section
variable {P : Kernel.Permit} {o o' : Objects} {t : TaskPtr} {c : Call}

theorem Sound.moves (hs : Sound o) (hm : Kernel.Moves P o.kernel o'.kernel) (he : o'.Entries)
    (ho : ∀ m u, (o'.mutexes m).owner = some u →
      (o.mutexes m).owner = some u ∨ o.kernel.AboveIdle u) : Sound o' where
  registry := hm.registry hs.registry
  entries := he
  current := by
    rw [hm.idleTask]
    rcases hm.currentTask hs.registry with hc | hl
    · rw [hc]
      exact hs.current.imp_right fun hl => (hm.level_le _).trans_lt hl
    · exact .inr hl
  owners m u hu := by
    refine (hm.level_le u).trans_lt ?_
    rcases ho m u hu with hu | hl
    · exact hs.owners m u hu
    · exact hl

theorem InCall.moves (h : InCall t c o) (hs : Sound o)
    (hm : Kernel.Moves P o.kernel o'.kernel) : InCall t c o' where
  registered := hm.registered hs.registry h.registered
  level := (hm.level_le t).trans_lt h.level
  ne_idle := by
    rw [hm.idleTask]
    exact h.ne_idle
  names := h.names

theorem Semaphore.step_names {k : Kernel} {sem : Semaphore} {s : ℕ} {c c' : Semaphore.Call}
    (hcur : k.currentTask = t) (h : (Semaphore.step k sem c).2.2.call? = some c') :
    (Call.semaphore s c').Names t := by
  cases c with
  | wait n =>
    simp only [Semaphore.step] at h
    split_ifs at h
    · cases h
    · exact Option.some.inj h ▸ trivial
  | waitRegion n e =>
    simp only [Semaphore.step] at h
    obtain ⟨-, hr⟩ | ⟨-, hr⟩ | ⟨-, hr⟩ := Semaphore.waitRegion_cases k sem n e <;> rw [hr] at h
    · cases h
    · cases h
    · exact Option.some.inj h ▸ trivial
  | signal =>
    simp only [Semaphore.step] at h
    split_ifs at h
    · cases h
    · exact Option.some.inj h ▸ trivial
  | signalReady => exact Option.some.inj h ▸ hcur
  | signalWord p =>
    simp only [Semaphore.step] at h
    split_ifs at h <;> exact Option.some.inj h ▸ trivial
  | flush =>
    simp only [Semaphore.step] at h
    split_ifs at h
    · exact Option.some.inj h ▸ trivial
    · cases h
  | waitYield | signalBitmap | signalYield => exact Option.some.inj h ▸ trivial
  | waitReturn | signalReturn => cases h

/-- The locals that a step sets hold the calling task. -/
theorem step_names {c' : Call} (hcur : o.kernel.currentTask = t) (hn : c.Names t)
    (h : (o.step c).2.call? = some c') : c'.Names t := by
  have hassert : ∀ b, (o.kernel.assert b).currentTask = t := fun _ => hcur
  cases c with
  | task c =>
    rw [step, Outcome.call?_map, Option.map_eq_some_iff] at h
    obtain ⟨c', h, rfl⟩ := h
    cases c <;> simp only [TaskCall.step, Outcome.call?_next, Outcome.call?_ret, reduceCtorEq,
      Option.some.injEq] at h <;> exact h ▸ trivial
  | semaphore s c =>
    rw [step, Outcome.call?_map, Option.map_eq_some_iff] at h
    obtain ⟨c', h, rfl⟩ := h
    exact Semaphore.step_names hcur h
  | mutex m c =>
    rw [step, Outcome.call?_map, Option.map_eq_some_iff] at h
    obtain ⟨c', h, rfl⟩ := h
    cases c with
    | acquire n =>
      simp only [Mutex.step] at h
      split_ifs at h
      · cases h
      · exact Option.some.inj h ▸ hassert _
    | acquireStart n p =>
      simp only [Mutex.step] at h
      split_ifs at h
      · cases h
      · exact Option.some.inj h ▸ hn
    | acquireLoop f e p =>
      simp only [Mutex.step] at h
      obtain ⟨-, hr⟩ | ⟨-, -, hr⟩ | ⟨-, -, -, hr⟩ | ⟨-, -, -, hr⟩ :=
        Mutex.acquireRegion_cases o.kernel (o.mutexes m) f e p <;> rw [hr] at h
      · cases h
      · cases h
      · exact Option.some.inj h ▸ hn
      · exact Option.some.inj h ▸ hn
    | acquireYield f e p => exact Option.some.inj h ▸ hn
    | release =>
      simp only [Mutex.step] at h
      split_ifs at h
      · cases h
      · cases h
      · exact Option.some.inj h ▸ trivial
    | releaseOwner =>
      simp only [Mutex.step] at h
      split_ifs at h
      · exact Option.some.inj h ▸ hcur
      · cases h
    | releaseRegion p => exact Option.some.inj h ▸ trivial
    | releaseYield => exact Option.some.inj h ▸ trivial
    | releaseReturn => cases h
  | eventGroup g c =>
    rw [step, Outcome.call?_map, Option.map_eq_some_iff] at h
    obtain ⟨c', h, rfl⟩ := h
    cases c with
    | waitForEvents f n =>
      simp only [EventGroup.step, EventGroup.waitRegion] at h
      split_ifs at h
      · cases h
      · cases h
      · exact Option.some.inj h ▸ hcur
    | waitYield f e p => exact Option.some.inj h ▸ hn
    | waitLoop f e p =>
      simp only [EventGroup.step, EventGroup.loopRegion] at h
      split_ifs at h
      · cases h
      · cases h
      · exact Option.some.inj h ▸ hn
    | setEvents f => exact Option.some.inj h ▸ trivial
    | setYield => exact Option.some.inj h ▸ trivial
    | setReturn => cases h
    | clearEvents f => cases h

theorem Sound.step (hs : Sound o) (hl : InCall t c o) (hcur : o.kernel.currentTask = t) :
    Sound (o.step c).1 ∧ Local t (o.step c).2.call? (o.step c).1 ∧
      Kernel.Moves .all o.kernel (o.step c).1.kernel := by
  obtain ⟨he, hq, ho⟩ := step_effect (P := .all) hs hl hcur (fun _ => trivial)
    (fun _ => trivial) fun _ _ => trivial
  have hm : Kernel.Moves .all o.kernel (o.step c).1.kernel := .effect he
  refine ⟨hs.moves hm hq fun m u hu => ?_, ?_, hm⟩
  · rcases ho m u hu with hu | rfl
    · exact .inl hu
    · exact .inr hl.level
  · intro c' hc'
    have hin := hl.moves hs hm
    exact ⟨hin.registered, hin.level, hin.ne_idle, step_names hcur hl.names hc'⟩

theorem Sound.interrupt (hs : Sound o) {e : Interrupt} (hg : Interrupts e o) :
    Sound (o.interrupt e) := by
  obtain ⟨hm, hq, ho⟩ := interrupt_moves (P := .all) hs hg
  exact hs.moves hm hq fun m u hu => .inl (by rwa [ho] at hu)

theorem Local.moves {c : Option Call} (h : Local t c o) (hs : Sound o)
    (hm : Kernel.Moves P o.kernel o'.kernel) : Local t c o' :=
  fun c' hc' => (h c' hc').moves hs hm

theorem Sound.invoke (hs : Sound o) (hr : Runs t o) (hne : t ≠ o.kernel.idleTask)
    (hc : c.isEntry t = true) : InCall t c o where
  registered := hr.1 ▸ hs.registry.current
  level := by
    rcases hs.current with h | h
    · exact absurd (hr.1.symm.trans h) hne
    · exact hr.1 ▸ h
  ne_idle := hne
  names := by
    cases c with
    | task c => cases c <;> simp_all [Call.isEntry, Call.Names]
    | semaphore s c => cases c <;> first | exact absurd hc Bool.false_ne_true | exact trivial
    | mutex m c => cases c <;> simp_all [Call.isEntry, Call.Names]
    | eventGroup g c => cases c <;> simp_all [Call.isEntry, Call.Names]

theorem sound_init (u : Setup) : Sound (init u) := by
  have hnull : (init u).kernel.RegisteredOrNull none := fun t ht => by cases ht
  refine ⟨Kernel.registry_new u.idleTask u.assigned, ⟨fun s j => hnull, fun m j => hnull,
    fun m t ht => (nomatch ht), fun g j => hnull⟩, .inl ?_, fun m t ht => (nomatch ht)⟩
  have ha := Kernel.adds_new u.idleTask u.assigned
  exact ha.currentTask.trans ha.idleTask.symm

end

end Objects

namespace system
open Objects

/-- Runs keep `Sound`, and with it every property `J` of the objects that the steps which
meet `C` keep. -/
theorem run_induction {u : Setup} {C : Event → State → Prop} {J : Objects → Prop}
    (exec : ∀ t c (s : State), s.call t = some c → C (.exec t) s → Sound s.shared →
      InCall t c s.shared → Runs t s.shared → J s.shared → J (s.shared.step c).1)
    (env : ∀ e (s : State), C (.env e) s → Sound s.shared → Interrupts e s.shared →
      J s.shared → J (s.shared.interrupt e))
    {es : List Event} (h0 : J (Objects.init u))
    (h : (system.machine.restrict C).Valid (init u) es) :
    Protocol.Holds (fun o => Sound o ∧ J o) Local (reached u es) := by
  refine Protocol.holds_of_run (C := C) ?_ ?_ ?_ ?_ 
    ⟨⟨sound_init u, h0⟩, fun t c hc => (nomatch hc)⟩ h
  · intro t c o hI hA hen c' hc'
    obtain rfl := Option.some.inj hc'
    exact hI.1.invoke hen.1 hen.2.1 hen.2.2
  · intro t c s hc hC hs hen
    have hin := hs.2 t c hc
    obtain ⟨hS, hL, -⟩ := hs.1.1.step hin hen.1
    exact ⟨⟨hS, exec t c s hc hC hs.1.1 hin hen hs.1.2⟩, hL⟩
  · intro t c s v hc hC hs hen hv
    obtain ⟨-, -, hm⟩ := hs.1.1.step (hs.2 t c hc) hen.1
    exact (hs.2 v).moves hs.1.1 hm
  · intro e s hC hs hg
    obtain ⟨hm, -, -⟩ := interrupt_moves (P := .all) hs.1.1 hg
    exact ⟨⟨hs.1.1.interrupt hg, env e s hC hs.1.1 hg hs.1.2⟩, fun v => (hs.2 v).moves hs.1.1 hm⟩

theorem sound_reached {u : Setup} {es : List Event} (h : Run u es) :
    Protocol.Holds Sound Local (reached u es) := by
  have hall := run_induction (C := fun _ _ => True) (J := fun _ => True)
    (fun _ _ _ _ _ _ _ _ _ => trivial) (fun _ _ _ _ _ _ => trivial) trivial
    ((Machine.valid_restrict_true _ _ _).mpr h)
  exact ⟨hall.1.1, hall.2⟩

theorem sound_apply {a : Event} {s : State} (hs : Protocol.Holds Sound Local s)
    (hg : system.machine.guard a s) : Protocol.Holds Sound Local (system.machine.apply a s) := by
  refine Protocol.holds_apply (C := fun _ _ => True) ?_ ?_ ?_ ?_ hs hg trivial
  · intro t c o hI hA hen c' hc'
    obtain rfl := Option.some.inj hc'
    exact hI.invoke hen.1 hen.2.1 hen.2.2
  · intro t c s hc _ hs hen
    obtain ⟨hS, hL, -⟩ := hs.1.step (hs.2 t c hc) hen.1
    exact ⟨hS, hL⟩
  · intro t c s v hc _ hs hen hv
    obtain ⟨-, -, hm⟩ := hs.1.step (hs.2 t c hc) hen.1
    exact (hs.2 v).moves hs.1 hm
  · intro e s _ hs hg
    obtain ⟨hm, -, -⟩ := interrupt_moves (P := .all) hs.1 hg
    exact ⟨hs.1.interrupt hg, fun v => (hs.2 v).moves hs.1 hm⟩

end system

end CppRtos
