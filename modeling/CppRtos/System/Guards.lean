import CppRtos.System.Assertions

/-! Guards on a mutex: objects that call `lock` when they come into scope and `unlock` when they
leave it, as `std::lock_guard` does. Both drop the results of `acquire` and `release`. -/
namespace CppRtos

namespace Mutex

def lock : Call := .acquire waitForever

def unlock : Call := .release

end Mutex

def Call.locks (m : ℕ) : Call → Bool
  | .mutex n (.acquire _) | .mutex n (.acquireStart _ _) | .mutex n (.acquireLoop _ _ _)
  | .mutex n (.acquireYield _ _ _) => n == m
  | _ => false

/-- A call of `acquire` on mutex `m` has no time limit. -/
def Call.Unlimited (m : ℕ) : Call → Prop
  | .mutex n (.acquire ticks) | .mutex n (.acquireStart ticks _) => n = m → ticks = waitForever
  | .mutex n (.acquireLoop f _ _) | .mutex n (.acquireYield f _ _) => n = m → f = true
  | _ => True

namespace Objects
variable {o : Objects} {t : TaskPtr} {m : ℕ} {c c' : Call}

theorem unlimited_step (h : c.Unlimited m) (hnext : (o.step c).2.call? = some c') :
    c'.Unlimited m := by
  cases c with
  | mutex n d =>
    simp only [step, Outcome.call?_map, Option.map_eq_some_iff] at hnext
    obtain ⟨d', hd, rfl⟩ := hnext
    cases d with
    | acquire ticks =>
      simp only [Mutex.step] at hd
      split_ifs at hd
      · cases hd
      · obtain rfl := Option.some.inj hd
        exact h
    | acquireStart ticks p =>
      simp only [Mutex.step] at hd
      split_ifs at hd
      · cases hd
      · obtain rfl := Option.some.inj hd
        exact fun hn => beq_iff_eq.mpr (h hn)
    | acquireLoop f e p =>
      simp only [Mutex.step] at hd
      obtain ⟨-, hr⟩ | ⟨-, -, hr⟩ | ⟨-, -, -, hr⟩ | ⟨-, -, -, hr⟩ :=
        Mutex.acquireRegion_cases o.kernel (o.mutexes n) f e p <;> rw [hr] at hd
      · cases hd
      · cases hd
      · obtain rfl := Option.some.inj hd
        exact h
      · obtain rfl := Option.some.inj hd
        exact h
    | acquireYield f e p =>
      obtain rfl := Option.some.inj hd
      exact h
    | release =>
      simp only [Mutex.step] at hd
      split_ifs at hd
      · cases hd
      · cases hd
      · obtain rfl := Option.some.inj hd
        trivial
    | releaseOwner =>
      simp only [Mutex.step] at hd
      split_ifs at hd
      · obtain rfl := Option.some.inj hd
        trivial
      · cases hd
    | releaseRegion p | releaseYield =>
      obtain rfl := Option.some.inj hd
      trivial
    | releaseReturn => cases hd
  | _ =>
    simp only [step, Outcome.call?_map, Option.map_eq_some_iff] at hnext
    obtain ⟨d', -, rfl⟩ := hnext
    trivial

/-- `lock` returns with the mutex in the hands of its task. -/
theorem owner_of_locked (hin : o.kernel.isInsideInterrupt = false) (hn : c.Names t)
    (hcur : o.kernel.currentTask = t) (hu : c.Unlimited m) (hl : c.locks m = true)
    (hret : (o.step c).2.call? = none) : ((o.step c).1.mutexes m).owner = some t := by
  cases c with
  | mutex n d =>
    simp only [step, Outcome.call?_map, Option.map_eq_none_iff] at hret
    cases d with
    | acquire ticks =>
      obtain rfl : n = m := beq_iff_eq.mp hl
      simp only [step, setMutex, Function.update_self]
      simp only [Mutex.step] at hret ⊢
      split_ifs at hret with ho
      · rw [if_pos ho, ho]
        exact congrArg some hcur
      · cases hret
    | acquireStart ticks p =>
      simp only [Mutex.step, hin] at hret
      cases hret
    | acquireLoop f e p =>
      obtain rfl : n = m := beq_iff_eq.mp hl
      obtain rfl : f = true := hu rfl
      obtain rfl : p = t := hn
      simp only [step, setMutex, Function.update_self]
      simp only [Mutex.step] at hret ⊢
      obtain ⟨-, hr⟩ | ⟨-, hto, -⟩ | ⟨-, -, -, hr⟩ | ⟨-, -, -, hr⟩ :=
        Mutex.acquireRegion_cases o.kernel (o.mutexes n) true e p
      · rw [hr]
      · cases hto
      · rw [hr] at hret
        cases hret
      · rw [hr] at hret
        cases hret
    | acquireYield f e p => cases hret
    | _ => cases hl
  | _ => cases hl

end Objects

namespace system
open Objects

/-- The number of open guards of each task. -/
abbrev Depths := TaskPtr → ℕ

/-- A guard opens when `lock` returns and closes when `unlock` is called. -/
def observeDepths (m : ℕ) (e : Event) (s s' : State) (d : Depths) : Depths :=
  match e with
  | .invoke t (.mutex n .release) => if n = m then Function.update d t (d t - 1) else d
  | .exec t =>
    if (s.call t).any (Call.locks m) = true ∧ s'.call t = none then
      Function.update d t (d t + 1)
    else d
  | _ => d

/-- Mutex `m` is used through guards only. -/
def Scoped (m : ℕ) : Event → State × Depths → Prop
  | .invoke _ (.mutex n (.acquire ticks)), _ => n = m → ticks = waitForever
  | .invoke t (.mutex n .release), s => n = m → 0 < s.2 t
  | _, _ => True

instance (m : ℕ) : ∀ e s, Decidable (Scoped m e s)
  | .invoke _ (.mutex n (.acquire ticks)), _ =>
    inferInstanceAs (Decidable (n = m → ticks = waitForever))
  | .invoke t (.mutex n .release), s => inferInstanceAs (Decidable (n = m → 0 < s.2 t))
  | .invoke _ (.mutex _ (.acquireStart _ _)), _ | .invoke _ (.mutex _ (.acquireLoop _ _ _)), _
  | .invoke _ (.mutex _ (.acquireYield _ _ _)), _ | .invoke _ (.mutex _ .releaseOwner), _
  | .invoke _ (.mutex _ (.releaseRegion _)), _ | .invoke _ (.mutex _ .releaseYield), _
  | .invoke _ (.mutex _ .releaseReturn), _ | .invoke _ (.task _), _
  | .invoke _ (.semaphore _ _), _ | .invoke _ (.eventGroup _ _), _ | .exec _, _ | .env _, _ =>
    inferInstanceAs (Decidable True)

def guarding (m : ℕ) : Machine (State × Depths) Event :=
  (system.machine.withHistory (observeDepths m)).restrict (Scoped m)

instance (m : ℕ) : ∀ e s, Decidable ((guarding m).guard e s) := fun e s =>
  inferInstanceAs (Decidable (system.machine.guard e s.1 ∧ Scoped m e s))

/-- A task with an open guard owns the mutex. -/
def Guarded (m : ℕ) (s : State × Depths) : Prop :=
  ∀ t, 0 < s.2 t → (s.1.shared.mutexes m).owner = some t

/-- The guard that gives the mutex up is the last one of its task. -/
def ClosesLast (m : ℕ) (e : Event) (s : State × Depths) : Prop :=
  ∀ t p, e = .exec t → s.1.call t = some (.mutex m (.releaseRegion p)) → s.2 t = 0

structure Locked (m : ℕ) (s : State) : Prop where
  holds : Protocol.Holds Sound Local s
  owned : Owned s
  outside : s.shared.kernel.isInsideInterrupt = false
  unlimited : ∀ t c, s.call t = some c → c.Unlimited m

theorem locked_reached {u : Setup} {m : ℕ} {es : List Event}
    (h : (guarding m).Valid (init u, fun _ => 0) es) :
    Run u es ∧ Locked m ((guarding m).exec (init u, fun _ => 0) es).1 := by
  have hrun : ∀ fs, (guarding m).Valid (init u, fun _ => 0) fs → Run u fs ∧
      ((guarding m).exec (init u, fun _ => 0) fs).1 = reached u fs := by
    intro fs hfs
    have hfree := (Machine.valid_restrict_true _ _ _).mp
      (Machine.Valid.imp hfs fun _ _ _ => trivial)
    exact ⟨(Machine.valid_withHistory _ _ _ _).mp hfree, Machine.exec_withHistory_fst _ _ _ _⟩
  obtain ⟨hes, hstate⟩ := hrun es h
  refine ⟨hes, ?_⟩
  rw [hstate]
  refine ⟨sound_reached hes, owned_reached hes, (flawless_reached hes).numbered.outside, ?_⟩
  rw [← hstate]
  refine Machine.invariant (M := guarding m)
    (I := fun s => ∀ t c, s.1.call t = some c → c.Unlimited m) ?_ (fun t c hc => nomatch hc) h
  rintro e s hs ⟨hg, he⟩ t c hc
  cases e with
  | env e => exact hs t c hc
  | invoke v d =>
    change Function.update s.1.call v (some d) t = some c at hc
    by_cases htv : t = v
    · subst htv
      rw [Function.update_self] at hc
      obtain rfl := Option.some.inj hc
      have hentry : d.isEntry t = true := hg.2.2.2
      cases d with
      | mutex n d =>
        cases d with
        | acquire ticks => exact he
        | release => trivial
        | _ => cases hentry
      | _ => trivial
    · rw [Function.update_of_ne htv] at hc
      exact hs t c hc
  | exec v =>
    obtain ⟨d, hd, -⟩ := Protocol.call_of_guard (P := system) hg
    have hcall : ((guarding m).apply (.exec v) s).1.call =
        Function.update s.1.call v (s.1.shared.step d).2.call? := by
      simp only [guarding, Machine.restrict, Machine.withHistory, Protocol.machine,
        Protocol.apply, hd, system]
    rw [hcall] at hc
    by_cases htv : t = v
    · subst htv
      rw [Function.update_self] at hc
      exact unlimited_step (hs t d hd) hc
    · rw [Function.update_of_ne htv] at hc
      exact hs t c hc

theorem observeDepths_invoke_le (m : ℕ) (v : TaskPtr) (d : Call) (s s' : State) (n : Depths)
    (t : TaskPtr) : observeDepths m (.invoke v d) s s' n t ≤ n t := by
  cases d with
  | mutex i d =>
    cases d with
    | release =>
      dsimp only [observeDepths]
      split_ifs
      · by_cases htv : t = v
        · subst htv
          simp
        · simp [htv]
      · exact le_rfl
    | _ => exact le_rfl
  | _ => exact le_rfl

section
variable {m : ℕ} {s : State × Depths} {v : TaskPtr} {d : Call}

theorem guarding_exec (hd : s.1.call v = some d) : (guarding m).apply (.exec v) s =
    (⟨(s.1.shared.step d).1, Function.update s.1.call v (s.1.shared.step d).2.call?⟩,
      if d.locks m = true ∧ (s.1.shared.step d).2.call? = none then
        Function.update s.2 v (s.2 v + 1)
      else s.2) := by
  simp only [guarding, Machine.restrict, Machine.withHistory, Protocol.machine, Protocol.apply,
    observeDepths, hd, system, Option.any_some, Function.update_self]

/-- A step keeps the mutex in the hands of the tasks with open guards, unless it is the release
by one of them. -/
theorem Guarded.step (hl : Locked m s.1) (hs : Guarded m s) (hd : s.1.call v = some d)
    (hcur : s.1.shared.kernel.currentTask = v)
    (hc : ∀ p, d = .mutex m (.releaseRegion p) → s.2 v = 0) :
    Guarded m ((guarding m).apply (.exec v) s) := by
  have hkeep : ∀ t, 0 < s.2 t → ((s.1.shared.step d).1.mutexes m).owner = some t := by
    intro t ht
    have ho := hs t ht
    have hother : ¬ (v = t ∧ ∃ p, d = .mutex m (.releaseRegion p)) := by
      rintro ⟨rfl, p, hp⟩
      have hzero := hc p hp
      omega
    obtain hsame | ⟨q, hq⟩ := hl.owned.owner_step ho hd hother
    · rw [hsame, ho]
    · rw [hq, ho]
  rw [guarding_exec hd]
  intro t ht
  dsimp only at ht ⊢
  split_ifs at ht with hlock
  · by_cases htv : t = v
    · subst htv
      exact owner_of_locked hl.outside (hl.holds.2 t d hd).names hcur (hl.unlimited t d hd)
        hlock.1 hlock.2
    · rw [Function.update_of_ne htv] at ht
      exact hkeep t ht
  · exact hkeep t ht

theorem guarded_apply_iff {e : Event} (hl : Locked m s.1) (hs : Guarded m s)
    (hg : (guarding m).guard e s) :
    Guarded m ((guarding m).apply e s) ↔ ClosesLast m e s := by
  cases e with
  | env e =>
    refine iff_of_true ?_ nofun
    intro t ht
    change ((s.1.shared.interrupt e).mutexes m).owner = some t
    rw [s.1.shared.mutexes_interrupt e]
    exact hs t ht
  | invoke v d =>
    exact iff_of_true
      (fun t ht => hs t (lt_of_lt_of_le ht (observeDepths_invoke_le m v d s.1 _ s.2 t))) nofun
  | exec v =>
    have hpend : Protocol.Pending system v (s.1.call v) s.1.shared := hg.1
    cases hd : s.1.call v with
    | none =>
      rw [hd] at hpend
      exact hpend.elim
    | some d =>
      rw [hd] at hpend
      constructor
      · intro hafter t p he hp
        obtain rfl : v = t := Protocol.Action.exec.inj he
        obtain rfl := Option.some.inj (hd.symm.trans hp)
        by_contra hne
        have howner : (((guarding m).apply (.exec v) s).1.shared.mutexes m).owner = some v := by
          refine hafter v ?_
          rw [guarding_exec hd]
          exact Nat.pos_of_ne_zero hne
        rw [guarding_exec hd] at howner
        simp only [Objects.step, Objects.setMutex, Function.update_self, Mutex.step] at howner
        rw [(Mutex.releaseRegion_fields _ _ p).2] at howner
        cases howner
      · intro hc
        refine hs.step hl hd hpend.1 fun p hp => hc v p rfl ?_
        rw [hd, hp]

end

/-- A mutex that is used through guards only belongs to every task with an open guard, at all
times of a run, exactly if no task closes a guard within another guard of its own on that mutex:
the inner `lock` does nothing, and the inner `unlock` gives the mutex up. -/
theorem guards_own_iff {u : Setup} {m : ℕ} {es : List Event}
    (h : (guarding m).Valid (init u, fun _ => 0) es) :
    (∀ fs, fs <+: es → Guarded m ((guarding m).exec (init u, fun _ => 0) fs)) ↔
      ((guarding m).restrict (ClosesLast m)).Valid (init u, fun _ => 0) es :=
  Machine.forall_prefix_iff_of_reached (fun _ hfs => (locked_reached hfs).2)
    (fun _ _ hl hs hg => guarded_apply_iff hl hs hg) (fun _ ht => absurd ht (lt_irrefl 0)) h

/-- Task 1 opens a guard within another one and closes it. -/
def nestedRun : List Event :=
  [.env (.addTask 1), .env .sysTick, .env .pendSV, .invoke 1 (.mutex 0 Mutex.lock), .exec 1,
    .exec 1, .exec 1, .invoke 1 (.mutex 0 Mutex.lock), .exec 1, .invoke 1 (.mutex 0 Mutex.unlock),
    .exec 1, .exec 1]

theorem guards_own_nested : ¬ ∀ fs, fs <+: nestedRun ++ [.exec 1] →
    Guarded 0 ((guarding 0).exec (init twoTasks, fun _ => 0) fs) := by
  intro hall
  have hv : (guarding 0).Valid (init twoTasks, fun _ => 0) (nestedRun ++ [.exec 1]) := by
    decide +kernel
  have hcloses := (guards_own_iff hv).mp hall
  obtain ⟨-, ⟨-, hlast⟩, -⟩ := (Machine.valid_append _ _ _ _).mp hcloses
  have hzero := hlast 1 1 rfl (by decide +kernel)
  exact absurd hzero (by decide +kernel)

end system

end CppRtos
