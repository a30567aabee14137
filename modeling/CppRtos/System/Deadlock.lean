import CppRtos.Library.WaitGraph
import CppRtos.System.Exclusion

/-! Deadlocks of tasks that own mutexes and wait for others. An order of acquisition excludes
them; without one, a circle of tasks that wait without a limit is never left. -/
namespace CppRtos

/-- The mutex that a call of `acquire` waits for, from the point on at which it has found that
its task does not own the mutex. -/
def Call.acquires : Call → Option ℕ
  | .mutex m (.acquireStart _ _) | .mutex m (.acquireLoop _ _ _)
  | .mutex m (.acquireYield _ _ _) => some m
  | _ => none

/-- The call is in the loop of `acquire` and has no time limit. -/
def Call.forever : Call → Bool
  | .mutex _ (.acquireLoop f _ _) | .mutex _ (.acquireYield f _ _) => f
  | _ => false

namespace Mutex

theorem owner_of_next {k : Kernel} {m : Mutex} {c c' : Call} {t : TaskPtr}
    (h : (step k m c).2.2.call? = some c') (ho : (step k m c).2.1.owner = some t) :
    m.owner = some t := by
  cases c with
  | acquireLoop f e p =>
    simp only [step] at h ho
    obtain ⟨-, hr⟩ | ⟨-, -, hr⟩ | ⟨-, -, -, hr⟩ | ⟨-, -, -, hr⟩ := acquireRegion_cases k m f e p <;>
      rw [hr] at h ho
    · cases h
    · cases h
    · exact ho
    · exact ho
  | releaseRegion p =>
    have hnone := (releaseRegion_fields k m p).2
    simp only [step] at ho
    rw [hnone] at ho
    cases ho
  | _ => rwa [step_mutex k m (by simp) (by simp)] at ho

end Mutex

namespace Objects
variable {o : Objects} {t u : TaskPtr} {c c' : Call}

theorem owner_of_next (h : (o.step c).2.call? = some c') {m : ℕ}
    (ho : ((o.step c).1.mutexes m).owner = some t) : (o.mutexes m).owner = some t := by
  cases c with
  | mutex n d =>
    by_cases hm : m = n
    · subst hm
      simp only [step, Outcome.call?_map, Option.map_eq_some_iff] at h
      obtain ⟨d', hd, -⟩ := h
      simp only [step, setMutex, Function.update_self] at ho
      exact Mutex.owner_of_next hd ho
    · simp only [step, setMutex, Function.update_of_ne hm] at ho
      exact ho
  | _ => exact ho

theorem owner_step (hn : c.Names t) {m : ℕ} (ho : ((o.step c).1.mutexes m).owner = some u) :
    (o.mutexes m).owner = some u ∨ u = t := by
  cases c with
  | mutex n d =>
    by_cases hm : m = n
    · subst hm
      simp only [step, setMutex, Function.update_self] at ho
      refine Mutex.step_owner_cases ho ?_
      rintro f e p rfl
      exact hn
    · simp only [step, setMutex, Function.update_of_ne hm] at ho
      exact .inl ho
  | _ => exact .inl ho

/-- A call waits for a mutex because it did before, or because it has just begun to acquire one
that its task does not own. -/
theorem acquires_step {m : ℕ} (h : ((o.step c).2.call?).bind Call.acquires = some m) :
    c.acquires = some m ∨
      (o.mutexes m).owner ≠ some o.kernel.currentTask ∧ ∃ n, c = .mutex m (.acquire n) := by
  cases c with
  | mutex n d =>
    simp only [step, Outcome.call?_map, Option.bind_map] at h
    cases d with
    | acquire ticks =>
      simp only [Mutex.step] at h
      split_ifs at h with ho
      · cases h
      · obtain rfl : n = m := Option.some.inj h
        exact .inr ⟨ho, ticks, rfl⟩
    | acquireStart ticks p =>
      simp only [Mutex.step] at h
      split_ifs at h
      · cases h
      · exact .inl h
    | acquireLoop f e p =>
      simp only [Mutex.step] at h
      obtain ⟨-, hr⟩ | ⟨-, -, hr⟩ | ⟨-, -, -, hr⟩ | ⟨-, -, -, hr⟩ :=
        Mutex.acquireRegion_cases o.kernel (o.mutexes n) f e p <;> rw [hr] at h
      · cases h
      · cases h
      · exact .inl h
      · exact .inl h
    | acquireYield f e p => exact .inl h
    | release =>
      simp only [Mutex.step] at h
      split_ifs at h <;> cases h
    | releaseOwner =>
      simp only [Mutex.step] at h
      split_ifs at h <;> cases h
    | releaseRegion p => cases h
    | releaseYield => cases h
    | releaseReturn => cases h
  | _ =>
    simp only [step, Outcome.call?_map, Option.bind_map] at h
    obtain ⟨d, -, hd⟩ := Option.bind_eq_some_iff.mp h
    cases hd

end Objects

namespace system
open Objects

/-- Who waits for which mutex, and who owns it. -/
def waitGraph (s : State) : WaitGraph TaskPtr ℕ where
  wants t := (s.call t).bind Call.acquires
  owner m := (s.shared.mutexes m).owner

/-! ## Ordered acquisition -/

section
variable {κ : Type*} [Preorder κ] (rank : ℕ → κ)

/-- A task begins to acquire only a mutex that ranks above all others that it owns. -/
def Ascending : Event → State → Prop
  | .invoke t (.mutex m (.acquire _)), s =>
    ∀ n, (s.shared.mutexes n).owner = some t → n = m ∨ rank n < rank m
  | _, _ => True

/-- The mutexes of a task rank below the one that it is about to wait for. -/
structure InOrder (t : TaskPtr) (c : Option Call) (o : Objects) : Prop where
  begins : ∀ m ticks, c = some (.mutex m (.acquire ticks)) →
    ∀ n, (o.mutexes n).owner = some t → n = m ∨ rank n < rank m
  waits : ∀ m, c.bind Call.acquires = some m →
    ∀ n, (o.mutexes n).owner = some t → rank n < rank m

variable {rank}

theorem InOrder.of_owner {t : TaskPtr} {c : Option Call} {o o' : Objects}
    (h : InOrder rank t c o)
    (ho : ∀ n, (o'.mutexes n).owner = some t → (o.mutexes n).owner = some t) :
    InOrder rank t c o' :=
  ⟨fun m ticks hc n hn => h.begins m ticks hc n (ho n hn),
    fun m hc n hn => h.waits m hc n (ho n hn)⟩

theorem inOrder_none (t : TaskPtr) (o : Objects) : InOrder rank t none o :=
  ⟨fun _ _ hc => (nomatch hc), fun _ hc => (nomatch hc)⟩

theorem not_begins_step (o : Objects) (c : Call) (m ticks : ℕ) :
    (o.step c).2.call? ≠ some (.mutex m (.acquire ticks)) := by
  intro h
  have hacq : Call.acquires (.mutex m (.acquire ticks)) = none := rfl
  cases c with
  | mutex n d =>
    simp only [step, Outcome.call?_map, Option.map_eq_some_iff] at h
    obtain ⟨d', hd, he⟩ := h
    obtain ⟨-, rfl⟩ := Call.mutex.inj he
    cases d with
    | acquireLoop f e p =>
      simp only [Mutex.step] at hd
      obtain ⟨-, hr⟩ | ⟨-, -, hr⟩ | ⟨-, -, -, hr⟩ | ⟨-, -, -, hr⟩ :=
        Mutex.acquireRegion_cases o.kernel (o.mutexes n) f e p <;> rw [hr] at hd <;> cases hd
    | _ =>
      simp only [Mutex.step] at hd
      first | cases hd | (split_ifs at hd <;> cases hd)
  | _ =>
    simp only [step, Outcome.call?_map, Option.map_eq_some_iff] at h
    obtain ⟨d', -, he⟩ := h
    cases he

theorem InOrder.step {t : TaskPtr} {c : Call} {o : Objects} (h : InOrder rank t (some c) o)
    (hcur : o.kernel.currentTask = t) : InOrder rank t (o.step c).2.call? (o.step c).1 := by
  refine ⟨fun m ticks hc => absurd hc (not_begins_step o c m ticks), fun m hm n hn => ?_⟩
  obtain ⟨c', hc', -⟩ := Option.bind_eq_some_iff.mp hm
  have hbefore := owner_of_next hc' hn
  rcases acquires_step hm with hacq | ⟨hno, ticks, rfl⟩
  · exact h.waits m hacq n hbefore
  · rcases h.begins m ticks rfl n hbefore with rfl | hlt
    · rw [hcur] at hno
      exact absurd hbefore hno
    · exact hlt

theorem inOrder_apply {a : Event} {s : State} (hs : Protocol.Holds Sound Local s)
    (ho : ∀ t, InOrder rank t (s.call t) s.shared) (hg : system.machine.guard a s)
    (ha : Ascending rank a s) (t : TaskPtr) :
    InOrder rank t ((system.machine.apply a s).call t) (system.machine.apply a s).shared := by
  cases a with
  | invoke v c =>
    change InOrder rank t (Function.update s.call v (some c) t) s.shared
    by_cases hv : t = v
    · subst hv
      rw [Function.update_self]
      refine ⟨fun m ticks hc => ?_, fun m hm => ?_⟩
      · obtain rfl := Option.some.inj hc
        exact ha
      · have hentry : c.isEntry t = true := hg.2.2.2
        cases c with
        | mutex n d => cases d <;> first | exact absurd hentry Bool.false_ne_true | cases hm
        | _ => cases hm
    · rw [Function.update_of_ne hv]
      exact ho t
  | exec v =>
    obtain ⟨c, hc, hrun⟩ := Protocol.call_of_guard hg
    simp only [Protocol.machine, Protocol.apply, hc]
    by_cases hv : t = v
    · subst hv
      have hself := ho t
      rw [hc] at hself
      rw [Function.update_self]
      exact hself.step hrun.1
    · rw [Function.update_of_ne hv]
      refine (ho t).of_owner fun n hn => ?_
      exact (owner_step (hs.2 v c hc).names hn).resolve_right hv
  | env e =>
    refine (ho t).of_owner fun n hn => ?_
    have hsame := s.shared.mutexes_interrupt e
    change ((s.shared.interrupt e).mutexes n).owner = some t at hn
    rwa [hsame] at hn

theorem ranked_reached {u : Setup} {es : List Event}
    (h : (system.machine.restrict (Ascending rank)).Valid (init u) es) :
    (waitGraph (reached u es)).Ranked rank := by
  have hall : Protocol.Holds Sound Local (reached u es) ∧
      ∀ t, InOrder rank t ((reached u es).call t) (reached u es).shared := by
    have hstart : Run u [] := trivial
    refine Machine.invariant (M := system.machine.restrict (Ascending rank))
      (I := fun s => Protocol.Holds Sound Local s ∧ ∀ t, InOrder rank t (s.call t) s.shared)
      ?_ ⟨sound_reached hstart, fun t => inOrder_none t _⟩ h
    rintro a s ⟨hs, ho⟩ ⟨hg, ha⟩
    exact ⟨sound_apply hs hg, inOrder_apply hs ho hg ha⟩
  exact fun t m n hm hn => (hall.2 t).waits m hm n hn

/-- If every task acquires its mutexes in ascending order, no task ever waits for itself through
any chain of owners, and no finite set of tasks is deadlocked. -/
theorem no_deadlock {u : Setup} {es : List Event}
    (h : (system.machine.restrict (Ascending rank)).Valid (init u) es) :
    (∀ t, ¬ Relation.TransGen (waitGraph (reached u es)).WaitsFor t t) ∧
      ∀ T : Set TaskPtr, T.Finite → ¬ (waitGraph (reached u es)).Deadlocked T :=
  ⟨(ranked_reached h).acyclic, fun _ hT => (ranked_reached h).not_deadlocked hT⟩

end

def twoTasks : Setup := { idleTask := 0, assigned := fun t => if t = 2 then .high else .low }

/-- Task 1 owns mutex 0. Task 2 comes in, acquires mutex `first` and blocks on mutex 0. -/
def contentionRun (first : ℕ) : List Event :=
  [.env (.addTask 1), .env .sysTick, .env .pendSV,
    .invoke 1 (.mutex 0 (.acquire waitForever)), .exec 1, .exec 1, .exec 1,
    .env (.addTask 2), .env .sysTick, .env .pendSV,
    .invoke 2 (.mutex first (.acquire waitForever)), .exec 2, .exec 2, .exec 2]

set_option maxRecDepth 4000 in
/-- Task 2 waits for task 1, and both acquire in ascending order. -/
theorem no_deadlock_contended :
    (waitGraph (reached twoTasks (contentionRun 0))).WaitsFor 2 1 ∧
      ¬ (waitGraph (reached twoTasks (contentionRun 0))).Deadlocked {1, 2} := by
  have h : (system.machine.restrict (Ascending id)).Valid (init twoTasks) (contentionRun 0) := by
    refine ⟨⟨by decide +kernel, trivial⟩, ⟨by decide +kernel, trivial⟩,
      ⟨by decide +kernel, trivial⟩, ⟨by decide +kernel, ?_⟩, ⟨by decide +kernel, trivial⟩,
      ⟨by decide +kernel, trivial⟩, ⟨by decide +kernel, trivial⟩, ⟨by decide +kernel, trivial⟩,
      ⟨by decide +kernel, trivial⟩, ⟨by decide +kernel, trivial⟩, ⟨by decide +kernel, ?_⟩,
      ⟨by decide +kernel, trivial⟩, ⟨by decide +kernel, trivial⟩, ⟨by decide +kernel, trivial⟩,
      trivial⟩
    · exact fun n hn => nomatch (show none = some 1 from hn)
    · intro n hn
      cases n with
      | zero => exact .inl rfl
      | succ n => exact nomatch (show none = some 2 from hn)
  exact ⟨⟨0, by decide +kernel, by decide +kernel⟩, (no_deadlock h).2 _ (Set.toFinite _)⟩

/-! ## Circles that are never left -/

/-- Every task of the set is in the loop of `acquire` without a time limit. -/
def Patient (T : Set TaskPtr) (s : State) : Prop :=
  ∀ t ∈ T, ∃ c, s.call t = some c ∧ c.forever = true

/-- What the members of a deadlocked set keep from one state to the next. -/
structure Keeps (T : Set TaskPtr) (s s' : State) : Prop where
  wants : ∀ t ∈ T, (waitGraph s').wants t = (waitGraph s).wants t
  owner : ∀ m, ∀ t ∈ T, (waitGraph s).owner m = some t → (waitGraph s').owner m = some t
  patient : Patient T s → Patient T s'

theorem Keeps.refl (T : Set TaskPtr) (s : State) : Keeps T s s :=
  ⟨fun _ _ => rfl, fun _ _ _ h => h, id⟩

theorem Keeps.trans {T : Set TaskPtr} {s s' s'' : State} (h : Keeps T s s') (h' : Keeps T s' s'') :
    Keeps T s s'' :=
  ⟨fun t ht => (h'.wants t ht).trans (h.wants t ht),
    fun m t ht ho => h'.owner m t ht (h.owner m t ht ho), h'.patient ∘ h.patient⟩

/-- While the mutex is owned, a task that waits without a limit goes on to wait for it. -/
theorem forever_step {o : Objects} {c : Call} (hf : c.forever = true)
    (hcount : ∀ m, c.acquires = some m → 0 < (o.mutexes m).count) :
    ∃ c', (o.step c).2.call? = some c' ∧ c'.forever = true ∧ c'.acquires = c.acquires := by
  cases c with
  | mutex m d =>
    cases d with
    | acquireLoop f e p =>
      obtain rfl : f = true := hf
      have hpos := hcount m rfl
      refine ⟨.mutex m (.acquireYield true e p), ?_, rfl, rfl⟩
      simp only [step, Outcome.call?_map, Mutex.step]
      obtain ⟨h0, -⟩ | ⟨-, ht, -⟩ | ⟨-, -, -, hr⟩ | ⟨-, -, -, hr⟩ :=
        Mutex.acquireRegion_cases o.kernel (o.mutexes m) true e p
      · omega
      · cases ht
      · rw [hr]; rfl
      · rw [hr]; rfl
    | acquireYield f e p => exact ⟨.mutex m (.acquireLoop f e p), rfl, hf, rfl⟩
    | _ => cases hf
  | _ => cases hf

/-- Each event leaves a circle of patient tasks as it is. -/
theorem keeps_apply {T : Set TaskPtr} {a : Event} {s : State} (hs : Owned s)
    (hg : system.machine.guard a s) (hd : (waitGraph s).Deadlocked T) (hp : Patient T s) :
    Keeps T s (system.machine.apply a s) := by
  cases a with
  | invoke v c =>
    have hcall : ∀ t ∈ T, (system.machine.apply (.invoke v c) s).call t = s.call t := by
      intro t ht
      obtain ⟨d, hc, -⟩ := hp t ht
      refine Function.update_of_ne ?_ _ _
      rintro rfl
      rw [hg.1] at hc
      cases hc
    refine ⟨fun t ht => congrArg (·.bind Call.acquires) (hcall t ht), fun _ _ _ h => h, ?_⟩
    intro hp t ht
    rw [hcall t ht]
    exact hp t ht
  | exec v =>
    obtain ⟨c, hc, -⟩ := Protocol.call_of_guard hg
    have hnext : v ∈ T → ∃ c', (s.shared.step c).2.call? = some c' ∧ c'.forever = true ∧
        c'.acquires = c.acquires := by
      intro hv
      obtain ⟨d, hd', hf⟩ := hp v hv
      obtain rfl : d = c := Option.some.inj (hd'.symm.trans hc)
      refine forever_step hf fun m hm => ?_
      obtain ⟨w, -, n, hn, ho⟩ := hd.waits v hv
      have hwants : (waitGraph s).wants v = some m := by simpa [waitGraph, hc] using hm
      obtain rfl : n = m := Option.some.inj (hn.symm.trans hwants)
      have hcount := (hs.held n).count_of_owner ho
      omega
    have hcall : (system.machine.apply (.exec v) s).call =
        Function.update s.call v (s.shared.step c).2.call? := by
      simp only [Protocol.machine, Protocol.apply, hc]
      rfl
    have hshared : (system.machine.apply (.exec v) s).shared = (s.shared.step c).1 := by
      simp only [Protocol.machine, Protocol.apply, hc]
      rfl
    constructor
    · intro t ht
      simp only [waitGraph, hcall]
      by_cases htv : t = v
      · subst htv
        obtain ⟨c', hc', -, hacq⟩ := hnext ht
        rw [Function.update_self, hc', hc]
        exact hacq
      · rw [Function.update_of_ne htv]
    · intro m t ht ho
      have hkeep := hs.owner_step ho hc fun hrel => by
        obtain ⟨rfl, q, rfl⟩ := hrel
        obtain ⟨d, hd', hf⟩ := hp v ht
        rw [hc] at hd'
        obtain rfl := Option.some.inj hd'
        cases hf
      simp only [waitGraph, hshared]
      rcases hkeep with h | ⟨q, h⟩ <;> rw [h] <;> exact ho
    · intro hp t ht
      rw [hcall]
      by_cases htv : t = v
      · subst htv
        obtain ⟨c', hc', hf, -⟩ := hnext ht
        exact ⟨c', by rw [Function.update_self, hc'], hf⟩
      · rw [Function.update_of_ne htv]
        exact hp t ht
  | env e =>
    refine ⟨fun _ _ => rfl, fun m t ht ho => ?_, id⟩
    change ((s.shared.interrupt e).mutexes m).owner = some t
    rwa [s.shared.mutexes_interrupt e]

/-- A circle of tasks that wait for each other's mutexes without a time limit is there for good:
whatever other tasks and interrupts do, each of its tasks goes on to wait for the same mutex and
gives none of its own up. -/
theorem deadlock_stays {u : Setup} {es fs : List Event} (h : Run u (es ++ fs))
    {T : Set TaskPtr} (hd : (waitGraph (reached u es)).Deadlocked T)
    (hp : Patient T (reached u es)) :
    (waitGraph (reached u (es ++ fs))).Deadlocked T ∧
      Keeps T (reached u es) (reached u (es ++ fs)) := by
  suffices hkeep : Keeps T (reached u es) (reached u (es ++ fs)) from
    ⟨hd.stable hkeep.wants hkeep.owner, hkeep⟩
  induction fs using List.reverseRecOn with
  | nil => rw [List.append_nil]; exact .refl T _
  | append_singleton fs a ih =>
    rw [← List.append_assoc] at h
    have hrun := (Machine.valid_append _ _ _ _).mp h
    have hkeep := ih hrun.1
    have hlast : reached u (es ++ (fs ++ [a])) =
        system.machine.apply a (reached u (es ++ fs)) := by
      rw [← List.append_assoc]
      exact Machine.exec_append _ _ _ _
    rw [hlast]
    exact hkeep.trans (keeps_apply (owned_reached hrun.1) hrun.2.1
      (hd.stable hkeep.wants hkeep.owner) (hkeep.patient hp))

/-- The tasks go on to acquire each other's mutex. -/
def circleRun : List Event :=
  contentionRun 1 ++ [.invoke 2 (.mutex 0 (.acquire waitForever)), .exec 2, .exec 2, .exec 2,
    .exec 2, .env .pendSV, .invoke 1 (.mutex 1 (.acquire waitForever)), .exec 1, .exec 1, .exec 1]

theorem deadlock_stays_circle :
    (waitGraph (reached twoTasks (circleRun ++ [.env .sysTick, .env .sysTick]))).Deadlocked
      {1, 2} := by
  have hd : (waitGraph (reached twoTasks circleRun)).Deadlocked {1, 2} := by
    refine ⟨⟨1, .inl rfl⟩, fun t ht => ?_⟩
    obtain rfl | rfl : t = 1 ∨ t = 2 := ht
    · exact ⟨2, .inr rfl, 1, by decide +kernel, by decide +kernel⟩
    · exact ⟨1, .inl rfl, 0, by decide +kernel, by decide +kernel⟩
  have hp : Patient {1, 2} (reached twoTasks circleRun) := by
    intro t ht
    obtain rfl | rfl : t = 1 ∨ t = 2 := ht
    · exact (Option.any_eq_true _ _).mp (by decide +kernel)
    · exact (Option.any_eq_true _ _).mp (by decide +kernel)
  exact (deadlock_stays (by decide +kernel) hd hp).1

end system

end CppRtos
