import CppRtos.Library.Projection
import CppRtos.Mutex.Exclusion
import CppRtos.System.Sound

/-! The whole system seen from its mutexes. What holds of `acquire` and `release` under any
scheduler holds of every run of the system, in which other objects are called, interrupts
happen and tasks sleep. -/
namespace CppRtos

/-- The mutex that a call is about, and the point in its code. -/
def Call.mutex? : Call → Option (ℕ × Mutex.Call)
  | .mutex m c => some (m, c)
  | _ => none

theorem Objects.mutexes_interrupt (o : Objects) (e : Interrupt) :
    (o.interrupt e).mutexes = o.mutexes := by
  cases e with
  | isr c =>
    cases c with
    | setEvents g f => exact mutexes_setEventGroup o _ g _
    | clearEvents g f => exact mutexes_setEventGroup o _ g _
    | signal s => rfl
    | flush s => rfl
  | pendSV => rfl
  | sysTick => rfl
  | addTask t => rfl

namespace system

/-- The objects as the mutexes see them. -/
def SeenBy (o : Objects) (s : Mutex.Shared) : Prop :=
  s.kernel = o.kernel ∧ s.mutexes = o.mutexes

/-- All other calls and the interrupts only put another kernel in place. -/
theorem projects_mutex : Protocol.Projects system (Mutex.protocol fun _ k => k) (fun _ => True)
    SeenBy Call.mutex? where
  entry t c d o s hseen hc hentry := by
    cases c with
    | mutex m c =>
      obtain rfl := Option.some.inj hc
      refine ⟨(congrArg Kernel.currentTask hseen.1).trans hentry.1.1, ?_⟩
      have hentry := hentry.2.2
      cases c <;> first | rfl | exact absurd hentry Bool.false_ne_true
    | _ => cases hc
  step t c d s s' _ hcall hc hseen hen := by
    obtain ⟨hk, hm⟩ := hseen
    cases c with
    | mutex m c =>
      obtain rfl := Option.some.inj hc
      refine ⟨(congrArg Kernel.currentTask hk).trans hen.1, ?_, ?_⟩
      · simp only [system, Objects.step, Objects.setMutex, Mutex.protocol, SeenBy, hk, hm,
          and_self]
      · simp only [system, Objects.step, Mutex.protocol, hk, hm, Outcome.call?_map]
        cases (Mutex.step s.shared.kernel (s.shared.mutexes m) c).2.2.call? <;> rfl
    | _ => cases hc
  other t c s s' _ hcall hc hseen hen := by
    have hmutexes : (s.shared.step c).1.mutexes = s.shared.mutexes := by
      cases c with
      | mutex m c => cases hc
      | _ => rfl
    refine ⟨?_, (s.shared.step c).1.kernel, trivial, rfl, hseen.2.trans hmutexes.symm⟩
    cases c with
    | mutex m c => cases hc
    | _ =>
      simp only [system, Objects.step, Outcome.call?_map, Option.bind_map]
      exact Option.bind_eq_none_iff.mpr fun _ _ => rfl
  env e s s' _ hseen hg := by
    have hmutexes := s.shared.mutexes_interrupt e
    exact ⟨(s.shared.interrupt e).kernel, trivial, rfl, hseen.2.trans hmutexes.symm⟩

theorem matches_init (u : Setup) : Protocol.Matches SeenBy Call.mutex? (init u)
    (Mutex.start (Objects.init u).kernel) := ⟨⟨rfl, rfl⟩, fun _ => rfl⟩

/-- A mutex is free, or owned by one task. -/
def Held (m : Mutex) : Prop :=
  m.count = 0 ∧ m.owner = none ∨ m.count = 1 ∧ ∃ t, m.owner = some t

/-- What every run of the system keeps about a mutex. -/
structure Owned (s : State) : Prop where
  held : ∀ m, Held (s.shared.mutexes m)
  /-- The critical region of `release` is executed by the owner only. -/
  release : ∀ t m p, s.call t = some (.mutex m (.releaseRegion p)) →
    (s.shared.mutexes m).owner = some t

theorem owned_reached {u : Setup} {es : List Event} (h : Run u es) : Owned (reached u es) := by
  obtain ⟨fs, hfs, ⟨-, hm⟩, hcall⟩ := projects_mutex.run (I := fun _ => True)
    (fun _ _ _ _ => trivial) trivial (matches_init u) h
  obtain ⟨hI, hA⟩ := Mutex.consistent_reached _ fs hfs
  constructor
  · intro m
    have hheld := (hI m).1
    rwa [hm] at hheld
  · intro t m p hc
    have hlocal := hA t
    rw [hcall t] at hlocal
    have hc' : (system.machine.exec (init u) es).call t = some (.mutex m (.releaseRegion p)) := hc
    rw [hc'] at hlocal
    have howner := hlocal.2
    rwa [hm] at howner

theorem Held.count_of_owner {m : Mutex} (h : Held m) {t : TaskPtr} (ho : m.owner = some t) :
    m.count = 1 := by
  rcases h with ⟨-, hn⟩ | ⟨hc, -⟩
  · rw [hn] at ho
    cases ho
  · exact hc

/-- Only the owner of a mutex takes it away from itself, in the critical region of `release`. -/
theorem Owned.owner_step {s : State} (h : Owned s) {t v : TaskPtr} {m : ℕ} {c : Call}
    (ho : (s.shared.mutexes m).owner = some t) (hc : s.call v = some c)
    (hother : ¬ (v = t ∧ ∃ p, c = .mutex m (.releaseRegion p))) :
    (s.shared.step c).1.mutexes m = s.shared.mutexes m ∨
      ∃ q, (s.shared.step c).1.mutexes m = { s.shared.mutexes m with blockedTasks := q } := by
  cases c with
  | mutex n d =>
    by_cases hn : m = n
    · subst n
      have hcount := (h.held m).count_of_owner ho
      simp only [Objects.step, Objects.setMutex, Function.update_self]
      cases d with
      | acquireLoop f e p =>
        simp only [Mutex.step]
        obtain ⟨h0, -⟩ | ⟨-, -, hr⟩ | ⟨-, -, -, hr⟩ | ⟨-, -, -, hr⟩ :=
          Mutex.acquireRegion_cases s.shared.kernel (s.shared.mutexes m) f e p
        · omega
        · exact .inl (by rw [hr])
        · exact .inr ⟨_, by rw [hr]⟩
        · exact .inl (by rw [hr])
      | releaseRegion p =>
        have hself := h.release v m p hc
        exact absurd ⟨Option.some.inj (hself.symm.trans ho), p, rfl⟩ hother
      | _ => exact .inl (Mutex.step_mutex _ _ (by simp) (by simp))
    · exact .inl (by simp only [Objects.step, Objects.setMutex, Function.update_of_ne hn])
  | _ => exact .inl rfl

end system

end CppRtos
