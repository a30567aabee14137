import CppRtos.Mutex.Protocol

/-! Mutual exclusion, whatever the scheduler does. -/
namespace CppRtos.Mutex

theorem releaseRegion_fields (k : Kernel) (m : Mutex) (p : TaskPtr) :
    (releaseRegion k m p).2.count = m.count - 1 ∧ (releaseRegion k m p).2.owner = none := by
  obtain ⟨-, h⟩ | ⟨-, -, h⟩ | ⟨-, t, -, b, c, -, h⟩ := releaseRegion_cases k m p <;>
    · rw [h]
      exact ⟨rfl, rfl⟩

/-! ## The invariant -/

/-- A mutex is free and held by nobody, or owned and held by its owner alone. -/
def Consistent (s : Shared) : Prop :=
  ∀ m, ((s.mutexes m).count = 0 ∧ (s.mutexes m).owner = none ∨
      (s.mutexes m).count = 1 ∧ ∃ t, (s.mutexes m).owner = some t) ∧
    ∀ t, s.holding m t = true ↔ (s.mutexes m).owner = some t

/-- The locals of a call name the calling task; at its critical region `release` is
executed by the owner. -/
def Local (t : TaskPtr) : Option (ℕ × Call) → Shared → Prop
  | some (_, .acquireStart _ p), _ | some (_, .acquireLoop _ _ p), _
  | some (_, .acquireYield _ _ p), _ => p = t
  | some (m, .releaseRegion p), s => p = t ∧ (s.mutexes m).owner = some t
  | _, _ => True

theorem Local.of_owner {t : TaskPtr} {c : Option (ℕ × Call)} {s s' : Shared} (h : Local t c s)
    (ho : ∀ m, (s.mutexes m).owner = some t → (s'.mutexes m).owner = some t) : Local t c s' := by
  unfold Local at *
  split at h <;> simp_all

variable {blend : Kernel → Kernel → Kernel}

theorem Consistent.update {s : Shared} (h : Consistent s) (k : Kernel) (m : ℕ) (m' : Mutex)
    (t : TaskPtr) (b : Bool)
    (hm : m'.count = 0 ∧ m'.owner = none ∨ m'.count = 1 ∧ ∃ t, m'.owner = some t)
    (ht : b = true ↔ m'.owner = some t)
    (hu : ∀ u, u ≠ t → (s.holding m u = true ↔ m'.owner = some u)) :
    Consistent ⟨k, Function.update s.mutexes m m',
      Function.update s.holding m (Function.update (s.holding m) t b)⟩ := by
  intro n
  by_cases hn : n = m
  · subst n
    simp only [Function.update_self]
    refine ⟨hm, fun u => ?_⟩
    by_cases hut : u = t
    · rw [hut, Function.update_self]
      exact ht
    · rw [Function.update_of_ne hut]
      exact hu u hut
  · simp only [Function.update_of_ne hn]
    exact h n

theorem Consistent.owner_of_count {s : Shared} (h : Consistent s) {m : ℕ}
    (hc : 0 < (s.mutexes m).count) :
    (s.mutexes m).count = 1 ∧ ∃ t, (s.mutexes m).owner = some t := by
  obtain ⟨⟨h0, -⟩ | h1, -⟩ := h m
  · omega
  · exact h1

theorem Consistent.free_of_count {s : Shared} (h : Consistent s) {m : ℕ}
    (hc : (s.mutexes m).count ≤ 0) : (s.mutexes m).count = 0 ∧ (s.mutexes m).owner = none := by
  obtain ⟨h0 | ⟨h1, -⟩, -⟩ := h m
  · exact h0
  · omega

theorem consistent_of_quiet {s : Shared} (h : Consistent s) {t : TaskPtr} {m : ℕ} {c : Call}
    (ha : ∀ f e p, c ≠ .acquireLoop f e p) (hr : ∀ p, c ≠ .releaseRegion p) :
    Consistent ((protocol blend).step t (m, c) s).1 := by
  have hmut := step_mutex s.kernel (s.mutexes m) ha hr
  simp only [protocol, hmut]
  apply h.update _ _ _ _ _ (h m).1 _ (fun u _ => (h m).2 u)
  rw [← (h m).2 t]
  cases c with
  | acquireLoop f e p => exact absurd rfl (ha f e p)
  | releaseRegion p => exact absurd rfl (hr p)
  | release =>
    have hh := (h m).2 t
    simp only [step]
    split_ifs with hn
    · rw [hn] at hh
      simpa [holdingAfter] using hh
    · rfl
    · rfl
  | _ => rfl

theorem step_consistent {t : TaskPtr} {c : ℕ × Call} {s : Shared} (h : Consistent s)
    (hl : Local t (some c) s) : Consistent ((protocol blend).step t c s).1 := by
  obtain ⟨m, c⟩ := c
  cases c with
  | acquireLoop f e p =>
    obtain rfl : p = t := hl
    have hhold := (h m).2
    simp only [protocol, step]
    obtain ⟨hc, hr⟩ | ⟨-, -, hr⟩ | ⟨-, -, -, hr⟩ | ⟨-, -, -, hr⟩ :=
      acquireRegion_cases s.kernel (s.mutexes m) f e p
    · obtain ⟨h0, hn⟩ := h.free_of_count hc
      rw [hr]
      refine h.update _ _ _ _ _ (.inr ⟨by simp only; omega, p, rfl⟩) (by simp [holdingAfter]) ?_
      intro u hu
      rw [hhold u, hn]
      simp [Ne.symm hu]
    all_goals
      rw [hr]
      exact h.update _ _ _ _ _ (h m).1 (hhold p) fun u _ => hhold u
  | releaseRegion p =>
    obtain ⟨rfl, ho⟩ := hl
    obtain ⟨hc, hn⟩ := releaseRegion_fields s.kernel (s.mutexes m) p
    have h1 : (s.mutexes m).count = 1 := by
      obtain ⟨⟨-, h'⟩ | h', -⟩ := h m
      · simp [h'] at ho
      · exact h'.1
    simp only [protocol, step]
    refine h.update _ _ _ _ _ (.inl ⟨by omega, hn⟩) (by simp [holdingAfter, hn]) ?_
    intro u hu
    rw [(h m).2 u, ho, hn]
    simp [Ne.symm hu]
  | _ => exact consistent_of_quiet h (by simp) (by simp)

/-- No step of a task takes a mutex away from another task, or gives it one. -/
theorem step_owner {t u : TaskPtr} {c : ℕ × Call} {s : Shared} (h : Consistent s)
    (hl : Local t (some c) s) (hu : u ≠ t) (n : ℕ) :
    (((protocol blend).step t c s).1.mutexes n).owner = some u ↔ (s.mutexes n).owner = some u := by
  have hc : Consistent ((protocol blend).step t c s).1 := step_consistent h hl
  have h' := (hc n).2 u
  rw [← h', ← (h n).2 u]
  by_cases hn : n = c.1
  · subst n
    simp [protocol, hu]
  · simp [protocol, hn]

theorem step_local {t : TaskPtr} {c : ℕ × Call} {s : Shared}
    (hcur : s.kernel.currentTask = t) (hl : Local t (some c) s) :
    Local t ((protocol blend).step t c s).2.call? ((protocol blend).step t c s).1 := by
  obtain ⟨m, c⟩ := c
  cases c with
  | acquireLoop f e p =>
    obtain rfl : p = t := hl
    simp only [protocol, step]
    obtain ⟨-, hr⟩ | ⟨-, -, hr⟩ | ⟨-, -, -, hr⟩ | ⟨-, -, -, hr⟩ :=
      acquireRegion_cases s.kernel (s.mutexes m) f e p <;>
      simp only [hr, Outcome.map, Outcome.call?_next, Outcome.call?_ret, Local]
  | acquire n =>
    simp only [protocol, step]
    split_ifs
    · exact True.intro
    · simp only [Outcome.map, Outcome.call?_next, Local]
      exact hcur
  | acquireStart n p =>
    have hp : p = t := hl
    simp only [protocol, step]
    split_ifs <;> simp [Outcome.map, Local, hp]
  | acquireYield f e p =>
    have hp : p = t := hl
    simpa only [protocol, step, Outcome.map, Outcome.call?_next, Local] using hp
  | release =>
    simp only [protocol, step]
    split_ifs <;> simp only [Outcome.map, Outcome.call?_next, Outcome.call?_ret, Local]
  | releaseOwner =>
    simp only [protocol, step]
    split_ifs with ho
    · simp only [Outcome.map, Outcome.call?_next, Local, hcur]
      simpa [hcur] using ho
    · simp only [Outcome.map, Outcome.call?_ret, Local]
  | _ => simp only [protocol, step, Outcome.map, Outcome.call?_next, Outcome.call?_ret, Local]

theorem consistent_apply {a : Event} {s : State} (hs : Protocol.Holds Consistent Local s)
    (hg : (protocol blend).machine.guard a s) :
    Protocol.Holds Consistent Local ((protocol blend).machine.apply a s) := by
  refine Protocol.holds_apply (C := fun _ _ => True) ?_ ?_ ?_ ?_ hs hg trivial
  · rintro t ⟨m, c⟩ s - - ⟨-, hc⟩
    cases c <;> first | exact True.intro | exact absurd hc Bool.false_ne_true
  · intro t c s hc _ hs hen
    have hl := hs.2 t
    rw [hc] at hl
    exact ⟨step_consistent hs.1 hl, step_local hen hl⟩
  · intro t c s u hc _ hs _ hu
    have hl := hs.2 t
    rw [hc] at hl
    exact (hs.2 u).of_owner fun m ho => (step_owner hs.1 hl hu m).mpr ho
  · intro k' s _ hs _
    exact ⟨hs.1, fun u => (hs.2 u).of_owner fun _ ho => ho⟩

theorem consistent_start (k : Kernel) : Protocol.Holds Consistent Local (start k) :=
  ⟨fun m => ⟨.inl ⟨rfl, rfl⟩, fun t => by simp [start, Protocol.start, Mutex.new]⟩,
    fun _ => True.intro⟩

theorem consistent_reached (k : Kernel) (es : List Event)
    (h : (protocol blend).machine.Valid (start k) es) :
    Protocol.Holds Consistent Local ((protocol blend).machine.exec (start k) es) :=
  Machine.invariant (fun _ _ hs hg => consistent_apply hs hg) (consistent_start k) h

/-! ## Mutual exclusion -/

/-- Mutual exclusion of mutex `m` in a state, together with the facts about its fields
that the code relies on. -/
structure Exclusive (blend : Kernel → Kernel → Kernel) (s : State) (m : ℕ) : Prop where
  count_range : (s.shared.mutexes m).count = 0 ∨ (s.shared.mutexes m).count = 1
  owner_iff : (s.shared.mutexes m).owner ≠ none ↔ (s.shared.mutexes m).count = 1
  unique_holder : ∀ t u, s.shared.holding m t = true → s.shared.holding m u = true → t = u
  /-- A release by a task that is not the owner changes nothing, -/
  foreign_release : ∀ t c, s.call t = some (m, c) → c.isRelease = true →
    (s.shared.mutexes m).owner ≠ some t →
    (step s.shared.kernel (s.shared.mutexes m) c).2.1 = s.shared.mutexes m
  /-- and during such a release nothing makes the task the owner. -/
  foreign_remains : ∀ t c, s.call t = some (m, c) → c.isRelease = true →
    (s.shared.mutexes m).owner ≠ some t → ∀ a, (protocol blend).machine.guard a s →
      (((protocol blend).machine.apply a s).shared.mutexes m).owner ≠ some t
  owner_dereferenced : ∀ t f e p, s.call t = some (m, .acquireLoop f e p) →
    ¬ (s.shared.mutexes m).count ≤ 0 → (s.shared.mutexes m).owner ≠ none

theorem foreign_release_mutex {t : TaskPtr} {m : ℕ} {c : Call} {s : Shared}
    (hl : Local t (some (m, c)) s) (hr : c.isRelease = true)
    (ho : (s.mutexes m).owner ≠ some t) (k : Kernel) :
    (step k (s.mutexes m) c).2.1 = s.mutexes m := by
  apply step_mutex
  · rintro f e p rfl
    simp [Call.isRelease] at hr
  · rintro p rfl
    exact ho hl.2

/-- Mutual exclusion: it holds in every state of every run, for any number of tasks and
mutexes and any behaviour of the scheduler. -/
theorem mutual_exclusion (blend : Kernel → Kernel → Kernel) (k : Kernel) (es : List Event)
    (h : (protocol blend).machine.Valid (start k) es) (m : ℕ) :
    Exclusive blend ((protocol blend).machine.exec (start k) es) m := by
  obtain ⟨hI, hA⟩ := consistent_reached k es h
  set s := (protocol blend).machine.exec (start k) es
  have hlocal : ∀ {t c}, s.call t = some c → Local t (some c) s.shared := by
    intro t c hc
    rw [← hc]
    exact hA t
  constructor
  · obtain ⟨h0, -⟩ | ⟨h1, -⟩ := (hI m).1
    · exact .inl h0
    · exact .inr h1
  · obtain ⟨h0, hn⟩ | ⟨h1, t, ht⟩ := (hI m).1
    · simp [h0, hn]
    · simp [h1, ht]
  · intro t u ht hu
    rw [(hI m).2] at ht hu
    exact Option.some.inj (ht.symm.trans hu)
  · intro t c hc hr ho
    exact foreign_release_mutex (hlocal hc) hr ho _
  · intro t c hc hr ho a ha
    cases a with
    | invoke u d => exact ho
    | env k' => exact ho
    | exec u =>
      simp only [Protocol.machine, Protocol.apply]
      cases hu : s.call u with
      | none => exact ho
      | some d =>
        by_cases hut : u = t
        · subst u
          obtain rfl := Option.some.inj (hc.symm.trans hu)
          simp only [protocol, Function.update_self]
          rw [foreign_release_mutex (hlocal hc) hr ho]
          exact ho
        · rwa [ne_eq, step_owner hI (hlocal hu) (Ne.symm hut)]
  · intro t f e p _ hcount hn
    obtain ⟨-, u, hu⟩ := hI.owner_of_count (m := m) (by omega)
    simp [hu] at hn

/-- Task 1 takes a mutex, task 2 queues behind it, resumes without having been dequeued,
and its release of the mutex it does not own is refused. -/
theorem mutual_exclusion_contended :
    let k (t : TaskPtr) : Kernel := { currentTask := t, idleTask := 0, taskData := fun _ => {} }
    let es : List Event :=
      [.env (k 1), .invoke 1 (0, .acquire 5), .exec 1, .exec 1, .exec 1,
        .env (k 2), .invoke 2 (0, .acquire 5), .exec 2, .exec 2, .exec 2, .exec 2,
        .env { k 2 with port.tickCount := 6 }, .exec 2, .invoke 2 (0, .release), .exec 2]
    Exclusive (fun _ k => k) ((protocol fun _ k => k).machine.exec (start (k 0)) es) 0 :=
  mutual_exclusion (fun _ k => k) _ _ (by decide +kernel) 0

end CppRtos.Mutex
