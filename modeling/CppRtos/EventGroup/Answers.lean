import CppRtos.EventGroup.WakeUp

/-! What a waiting task is told. `setEvents` decides whom to wake, but the woken task
computes its result anew from the flags and the time it finds. -/
namespace CppRtos.EventGroup

variable {tasks : Finset TaskPtr}

/-- Every woken task inside `waitForEvents` gets true from its next test. -/
def Answered (s : State) : Prop :=
  ∀ t f e p, s.call t = some (.waitYield f e p) ∨ s.call t = some (.waitLoop f e p) →
    s.shared.history.woken t = true →
    (step s.shared.kernel s.shared.group (.waitLoop f e p)).2.2 = .ret (.value true)

/-- A test by a call with timeout `WAIT_FOREVER` finds a flag set, or the tick count is below
the count at the beginning of the call plus `WAIT_FOREVER`. -/
def Heard : Event → State → Prop
  | .exec t, s => match s.call t with
    | some (.waitLoop f _ _) =>
      s.shared.history.timeout t = waitForever → s.shared.group.eventFlags &&& f ≠ 0 ∨
        s.shared.kernel.getTickCount < (s.shared.history.since t + waitForever) % 2 ^ 64
    | _ => True
  | _, _ => True

def clears (s : State) : Event → BitVec 32
  | .exec t => match s.call t with
    | some (.clearEvents f) => f
    | _ => 0
  | .env (.clearEvents f) => f
  | _ => 0

def Call.flags? : Call → Option (BitVec 32)
  | .waitYield f _ _ | .waitLoop f _ _ => some f
  | _ => none

/-- No woken task that has not made its test loses the last of its flags that are set. -/
def Spares (a : Event) (s : State) : Prop :=
  ∀ t c f, s.call t = some c → c.flags? = some f → s.shared.history.woken t = true →
    s.shared.group.eventFlags &&& f ≠ 0 →
    s.shared.group.eventFlags &&& ~~~(clears s a) &&& f ≠ 0

/-! ## Calls that wait forever -/

theorem step_shared (t : TaskPtr) (c : Call) (s : Shared) :
    ((protocol tasks).step t c s).1 =
      ⟨(step s.kernel s.group c).1, (step s.kernel s.group c).2.1,
        s.history.after t s.kernel.getTickCount (wakes s.kernel s.group c) c
        (step s.kernel s.group c).2.2⟩ := rfl

theorem step_history (t : TaskPtr) (c : Call) (s : Shared) :
    ((protocol tasks).step t c s).1.history =
      s.history.after t s.kernel.getTickCount (wakes s.kernel s.group c) c
        (step s.kernel s.group c).2.2 := by
  rw [step_shared]

theorem History.denied_after (h : History) (t : TaskPtr) (now : ℕ) (ts : List TaskPtr) (c : Call)
    {o : Outcome Call Result} (ho : o ≠ .ret (.value false)) :
    (h.after t now ts c o).denied = h.denied := by
  have henter : ((h.enter t now c).wake ts).denied = h.denied := by cases c <;> rfl
  unfold History.after History.leave
  cases o with
  | next c' => cases c <;> exact henter
  | ret r =>
    have hr : (r == .value false) = false := by
      rw [beq_eq_false_iff_ne]
      rintro rfl
      exact ho rfl
    dsimp only
    rw [hr, Bool.false_and, Bool.or_false]
    exact henter

/-- Outside the polling loop false is returned only to calls that may not wait. -/
theorem step_denied (tasks : Finset TaskPtr) {t : TaskPtr} {c : Call} {s : Shared}
    (hc : ∀ f e p, c ≠ .waitLoop f e p) :
    ((protocol tasks).step t c s).1.history.denied = s.history.denied := by
  rw [step_history]
  cases c with
  | waitForEvents f n =>
    simp only [step]
    obtain ⟨-, hr⟩ | ⟨-, h0, hr⟩ | ⟨-, -, hr⟩ := waitRegion_cases s.kernel s.group f n
    · rw [hr]
      exact History.denied_after _ _ _ _ _ (by simp)
    · rw [hr]
      simp [History.after, History.enter, History.leave, wakes, h0, waitForever]
    · rw [hr]
      exact History.denied_after _ _ _ _ _ (by simp)
  | waitLoop f e p => exact absurd rfl (hc f e p)
  | _ => exact History.denied_after _ _ _ _ _ (by simp [step])

theorem loop_denied (tasks : Finset TaskPtr) {t p : TaskPtr} {f : BitVec 32} {e : ℕ} {s : Shared}
    (hd : s.history.denied = false) :
    ((protocol tasks).step t (.waitLoop f e p) s).1.history.denied = false ↔
      (s.history.timeout t = waitForever →
        s.group.eventFlags &&& f ≠ 0 ∨ s.kernel.getTickCount < e) := by
  rw [step_history]
  simp only [step]
  obtain ⟨b, hb, hor, hr⟩ | ⟨-, he, hr⟩ := loopRegion_cases s.kernel s.group f e p
  · rw [hr]
    cases b with
    | true =>
      have hf := hb.mp rfl
      rw [History.denied_after _ _ _ _ _ (by simp)]
      exact iff_of_true hd fun _ => .inl hf
    | false =>
      have hf : ¬ s.group.eventFlags &&& f ≠ 0 := fun h => Bool.false_ne_true (hb.mpr h)
      have he : ¬ s.kernel.getTickCount < e := Nat.not_lt.mpr (hor.resolve_left hf)
      simp only [History.after, History.enter, History.leave, wakes, History.wake_nil, hd, hf, he]
      simp
  · rw [hr, History.denied_after _ _ _ _ _ (by simp)]
    exact iff_of_true hd fun _ => .inr he

theorem interfere_denied (tasks : Finset TaskPtr) (e : Environment) (s : Shared) :
    ((protocol tasks).interfere e s).history.denied = s.history.denied := by
  cases e with
  | schedule k' => rfl
  | setEvents f =>
    rw [interfere_set]
    rfl
  | clearEvents f =>
    rw [interfere_clear]

/-! ## End times -/

def Call.endTime? : Call → Option ℕ
  | .waitYield _ e _ | .waitLoop _ e _ => some e
  | _ => none

/-- The end time is the beginning of the call plus its timeout. -/
def Timed (t : TaskPtr) (c : Option Call) (s : Shared) : Prop :=
  ∀ c' e, c = some c' → c'.endTime? = some e →
    e = (s.history.since t + s.history.timeout t) % 2 ^ 64

theorem History.begun_after (h : History) (t : TaskPtr) (now : ℕ) (ts : List TaskPtr) (c : Call)
    (o : Outcome Call Result) : (h.after t now ts c o).since = (h.enter t now c).since ∧
      (h.after t now ts c o).timeout = (h.enter t now c).timeout := by
  unfold History.after History.leave
  cases o with
  | next c' => cases c <;> exact ⟨rfl, rfl⟩
  | ret r => exact ⟨rfl, rfl⟩

theorem step_timed {t : TaskPtr} {c : Call} {s : Shared} (h : Timed t (some c) s) :
    Timed t ((protocol tasks).step t c s).2.call? ((protocol tasks).step t c s).1 := by
  intro c' e hc he
  rw [step_history, (History.begun_after ..).1, (History.begun_after ..).2]
  cases c with
  | waitForEvents f n =>
    simp only [protocol, step] at hc
    obtain ⟨-, hr⟩ | ⟨-, -, hr⟩ | ⟨-, -, hr⟩ := waitRegion_cases s.kernel s.group f n <;>
      rw [hr] at hc <;> cases hc
    cases he
    simp only [History.enter, Function.update_self]
  | waitYield f e' p =>
    cases hc
    exact h _ _ rfl he
  | waitLoop f e' p =>
    simp only [protocol, step] at hc
    obtain ⟨b, -, -, hr⟩ | ⟨-, -, hr⟩ := loopRegion_cases s.kernel s.group f e' p <;>
      rw [hr] at hc <;> cases hc
    exact h _ _ rfl he
  | setEvents f =>
    cases hc
    cases he
  | setYield =>
    cases hc
    cases he
  | setReturn => cases hc
  | clearEvents f => cases hc

theorem frame_timed {t u : TaskPtr} {c : Call} {o : Option Call} {s : Shared} (h : Timed u o s)
    (hu : u ≠ t) : Timed u o ((protocol tasks).step t c s).1 := by
  intro c' e hc he
  rw [step_history, (History.begun_after ..).1, (History.begun_after ..).2, h c' e hc he]
  cases c with
  | waitForEvents f n => simp only [History.enter, Function.update_of_ne hu]
  | _ => rfl

theorem interfere_begun (tasks : Finset TaskPtr) (e : Environment) (s : Shared) :
    ((protocol tasks).interfere e s).history.since = s.history.since ∧
      ((protocol tasks).interfere e s).history.timeout = s.history.timeout := by
  cases e with
  | schedule k' => exact ⟨rfl, rfl⟩
  | setEvents f =>
    rw [interfere_set]
    exact ⟨rfl, rfl⟩
  | clearEvents f =>
    rw [interfere_clear]
    exact ⟨rfl, rfl⟩

theorem timed_reached (k : Kernel) (es : List Event)
    (h : (protocol tasks).machine.Valid (start k) es) :
    Protocol.Holds (fun _ => True) Timed ((protocol tasks).machine.exec (start k) es) := by
  rw [← Machine.valid_restrict_true] at h
  refine Protocol.holds_of_run ?_ ?_ ?_ ?_ ?_ h
  · intro t c s _ _ ⟨_, _, hc⟩ c' e hc' he
    obtain rfl := Option.some.inj hc'
    cases c <;> first | exact absurd hc Bool.false_ne_true | cases he
  · intro t c s hcall _ hs _
    have ht := hs.2 t
    rw [hcall] at ht
    exact ⟨trivial, step_timed ht⟩
  · intro t c s u _ _ hs _ hu
    exact frame_timed (hs.2 u) hu
  · intro e s _ hs _
    refine ⟨trivial, fun u c' e' hc' he' => ?_⟩
    rw [(interfere_begun tasks e s.shared).1, (interfere_begun tasks e s.shared).2]
    exact hs.2 u c' e' hc' he'
  · exact ⟨trivial, fun t c' e hc' => by cases hc'⟩

/-- An event keeps the record clear exactly if the test it makes is heard. -/
theorem apply_denied {a : Event} {s : State} (ht : Protocol.Holds (fun _ => True) Timed s)
    (hd : s.shared.history.denied = false) :
    ((protocol tasks).machine.apply a s).shared.history.denied = false ↔ Heard a s := by
  cases a with
  | invoke t c => exact iff_of_true hd trivial
  | env e => exact iff_of_true ((interfere_denied tasks e s.shared).trans hd) trivial
  | exec t =>
    simp only [Protocol.machine, Protocol.apply, Heard]
    cases hc : s.call t with
    | none => exact iff_of_true hd trivial
    | some c =>
      cases c with
      | waitLoop f e p =>
        have he := ht.2 t _ e hc rfl
        refine (loop_denied tasks hd).trans (forall_congr' fun hforever => or_congr_right ?_)
        rw [hforever] at he
        exact iff_of_eq (congrArg _ he)
      | _ => exact iff_of_true ((step_denied tasks (by simp)).trans hd) trivial

/-! ## Flags of woken tasks -/

/-- A waiting task has stored the flags of its call, and a woken one finds one of them set. -/
def Carries (t : TaskPtr) (c : Option Call) (s : Shared) : Prop :=
  ∀ c' f, c = some c' → c'.flags? = some f →
    (s.history.waits t = true → (s.kernel.taskData t).flagsToWaitFor = f) ∧
      (s.history.woken t = true → s.group.eventFlags &&& f ≠ 0)

namespace Carries
variable {t : TaskPtr} {c : Option Call} {s s' : Shared} (h : Carries t c s)
include h

theorem quiet (hf : s'.group.eventFlags = s.group.eventFlags)
    (hw : s'.history.waits t = true → s.history.waits t = true ∧
      (s'.kernel.taskData t).flagsToWaitFor = (s.kernel.taskData t).flagsToWaitFor)
    (ho : s'.history.woken t = s.history.woken t) : Carries t c s' := by
  intro c' f hc hflags
  obtain ⟨hwait, hwoken⟩ := h c' f hc hflags
  rw [hf, ho]
  exact ⟨fun hw' => (hw hw').2.trans (hwait (hw hw').1), hwoken⟩

theorem set (hl : Listed s.kernel s.group s.history.waits) (f : BitVec 32)
    (hk : s'.kernel.taskData t = (setRegion s.kernel s.group f).1.taskData t)
    (hg : s'.group = (setRegion s.kernel s.group f).2)
    (hw : s'.history.waits t =
      (s.history.waits t && decide (t ∉ setWakes s.kernel s.group f)))
    (ho : s'.history.woken t =
      (s.history.woken t || decide (t ∈ setWakes s.kernel s.group f))) : Carries t c s' := by
  have hset := hl.setsEvents f
  obtain ⟨r, hr, hswept⟩ := setRegion_swept s.kernel hl.plain hl.head hl.nodup f
  have hflags : s'.group.eventFlags = s.group.eventFlags ||| f := by
    rw [hg, hr]
    exact hswept.flags
  intro c' f' hc hf'
  obtain ⟨hwait, hwoken⟩ := h c' f' hc hf'
  rw [hw, ho, hflags, hk]
  refine ⟨fun hw' => ?_, fun ho' => ?_⟩
  · rw [Bool.and_eq_true, decide_eq_true_iff] at hw'
    rw [hset.unchanged t hw'.2]
    exact hwait hw'.1
  · rw [Bool.or_eq_true, decide_eq_true_iff] at ho'
    rcases ho' with hbefore | hnow
    · intro h0
      rw [BitVec.and_or_distrib_right] at h0
      exact hwoken hbefore (BitVec.or_eq_zero_iff.mp h0).1
    · rw [hset.wakes, List.mem_filter, decide_eq_true_iff, hl.mem_iff] at hnow
      rw [← hwait hnow.1]
      exact hnow.2

/-- Flags are cleared, but not the last one of a woken task. -/
theorem clear (f : BitVec 32) (hf : s'.group.eventFlags = s.group.eventFlags &&& ~~~f)
    (hw : s'.history.waits t = true → s.history.waits t = true ∧
      (s'.kernel.taskData t).flagsToWaitFor = (s.kernel.taskData t).flagsToWaitFor)
    (ho : s'.history.woken t = s.history.woken t)
    (hs : ∀ c' f', c = some c' → c'.flags? = some f' → s.history.woken t = true →
      s.group.eventFlags &&& f' ≠ 0 → s.group.eventFlags &&& ~~~f &&& f' ≠ 0) :
    Carries t c s' := by
  intro c' f' hc hf'
  obtain ⟨hwait, hwoken⟩ := h c' f' hc hf'
  rw [hf, ho]
  exact ⟨fun hw' => (hw hw').2.trans (hwait (hw hw').1),
    fun ho' => hs c' f' hc hf' ho' (hwoken ho')⟩

end Carries

theorem History.woken_after_of_ne (h : History) (now : ℕ) (ts : List TaskPtr) (c : Call)
    (o : Outcome Call Result) {t u : TaskPtr} (hu : u ≠ t) :
    (h.after t now ts c o).woken u = (h.woken u || decide (u ∈ ts)) := by
  have henter : ((h.enter t now c).wake ts).woken u = (h.woken u || decide (u ∈ ts)) := by
    cases c with
    | waitForEvents f n =>
      have hne : Function.update h.woken t false u = h.woken u := Function.update_of_ne hu _ _
      simp only [History.enter, History.wake, hne]
    | _ => rfl
  unfold History.after History.leave
  cases o with
  | next c' => cases c <;> exact henter
  | ret r => exact henter

theorem step_carries {t : TaskPtr} {c : Call} {s : Shared} (h : Carries t (some c) s)
    (hl : Local tasks t (some c) s) (hcur : s.kernel.currentTask = t) :
    Carries t ((protocol tasks).step t c s).2.call? ((protocol tasks).step t c s).1 := by
  intro c' f' hc hf'
  cases c with
  | waitForEvents f n =>
    simp only [protocol, step, wakes, History.after, History.enter, History.wake_nil] at hc ⊢
    obtain ⟨-, hr⟩ | ⟨-, -, hr⟩ | ⟨-, -, hr⟩ := waitRegion_cases s.kernel s.group f n <;>
      rw [hr] at hc ⊢
    · cases hc
    · cases hc
    · cases hc
      cases hf'
      rw [hcur]
      refine ⟨fun _ => ?_, fun ho => ?_⟩
      · dsimp only
        rw [Kernel.taskData_exitCritical, Kernel.taskData_modifyTask, if_pos rfl]
        rfl
      · simp [History.leave] at ho
  | waitYield f e p =>
    cases hc
    cases hf'
    simp only [protocol, step, wakes, History.after, History.enter, History.wake_nil,
      History.leave, Kernel.taskData_yield]
    exact h _ _ rfl rfl
  | waitLoop f e p =>
    simp only [protocol, step, wakes, History.after, History.enter, History.wake_nil] at hc ⊢
    obtain ⟨b, -, -, hr⟩ | ⟨-, -, hr⟩ := loopRegion_cases s.kernel s.group f e p <;>
      rw [hr] at hc ⊢
    · cases hc
    · cases hc
      cases hf'
      have hf := h _ _ rfl rfl
      dsimp only [History.leave]
      rw [Kernel.taskData_exitCritical, Kernel.taskData_enterCritical]
      exact hf
  | setEvents f =>
    cases hc
    cases hf'
  | setYield =>
    cases hc
    cases hf'
  | setReturn => cases hc
  | clearEvents f => cases hc

theorem frame_carries {t u : TaskPtr} {c : Call} {o : Option Call} {s : Shared}
    (h : Carries u o s) (hl : s.Listed) (hcur : s.kernel.currentTask = t) (hu : u ≠ t)
    (hs : ∀ f, c = .clearEvents f → ∀ c' f', o = some c' → c'.flags? = some f' →
      s.history.woken u = true → s.group.eventFlags &&& f' ≠ 0 →
      s.group.eventFlags &&& ~~~f &&& f' ≠ 0) :
    Carries u o ((protocol tasks).step t c s).1 := by
  have hwaits := History.waits_after_of_ne s.history s.kernel.getTickCount
    (wakes s.kernel s.group c) c (step s.kernel s.group c).2.2 hu
  have hwoken := History.woken_after_of_ne s.history s.kernel.getTickCount
    (wakes s.kernel s.group c) c (step s.kernel s.group c).2.2 hu
  have hbefore : ((protocol tasks).step t c s).1.history.waits u = true →
      s.history.waits u = true := by
    intro hw
    rw [step_history, hwaits] at hw
    exact (Bool.and_eq_true_iff.mp hw).1
  have hsame : wakes s.kernel s.group c = [] →
      ((protocol tasks).step t c s).1.history.woken u = s.history.woken u := by
    intro hn
    rw [step_history, hwoken, hn]
    simp
  cases c with
  | waitForEvents f n =>
    refine h.quiet ?_ (fun hw => ⟨hbefore hw, ?_⟩) (hsame rfl)
    · simp only [protocol, step]
      obtain ⟨-, hr⟩ | ⟨-, -, hr⟩ | ⟨-, -, hr⟩ := waitRegion_cases s.kernel s.group f n <;> rw [hr]
    · simp only [protocol, step]
      obtain ⟨-, hr⟩ | ⟨-, -, hr⟩ | ⟨-, -, hr⟩ := waitRegion_cases s.kernel s.group f n <;> rw [hr]
      · dsimp only
        rw [Kernel.taskData_exitCritical, Kernel.taskData_enterCritical]
      · dsimp only
        rw [Kernel.taskData_exitCritical, Kernel.taskData_enterCritical]
      · dsimp only [Kernel.setState]
        rw [hcur, Kernel.taskData_exitCritical, Kernel.taskData_modifyTask, if_neg hu,
          Kernel.taskData_modifyTask, if_neg hu, Kernel.taskData_enterCritical]
  | waitLoop f e p =>
    refine h.quiet ?_ (fun hw => ⟨hbefore hw, ?_⟩) (hsame rfl)
    · simp only [protocol, step]
      obtain ⟨b, -, -, hr⟩ | ⟨-, -, hr⟩ := loopRegion_cases s.kernel s.group f e p <;> rw [hr]
    · simp only [protocol, step]
      obtain ⟨b, -, -, hr⟩ | ⟨-, -, hr⟩ := loopRegion_cases s.kernel s.group f e p <;>
        · rw [hr]
          dsimp only
          rw [Kernel.taskData_exitCritical, Kernel.taskData_enterCritical]
  | setEvents f =>
    rw [step_shared]
    simp only [step, wakes] at hwaits hwoken ⊢
    refine h.set hl f ?_ ?_ ?_ ?_
    · dsimp only
    · dsimp only
    · exact hwaits
    · exact hwoken
  | clearEvents f =>
    refine h.clear f rfl (fun hw => ⟨hbefore hw, ?_⟩) (hsame rfl) (hs f rfl)
    simp only [protocol, step, clearRegion, Kernel.taskData_exitCritical,
      Kernel.taskData_enterCritical]
  | waitYield f e p =>
    rw [step_shared] at hbefore hsame ⊢
    refine h.quiet rfl (fun hw => ⟨hbefore hw, ?_⟩) (hsame rfl)
    dsimp only [step]
    rw [Kernel.taskData_yield]
  | setYield =>
    rw [step_shared] at hbefore hsame ⊢
    refine h.quiet rfl (fun hw => ⟨hbefore hw, ?_⟩) (hsame rfl)
    dsimp only [step]
    rw [Kernel.taskData_yield]
  | setReturn => exact h.quiet rfl (fun hw => ⟨hbefore hw, rfl⟩) (hsame rfl)

theorem interfere_carries {e : Environment} {u : TaskPtr} {o : Option Call} {s : Shared}
    (h : Carries u o s) (hl : s.Listed)
    (hs : ∀ f, e = .clearEvents f → ∀ c' f', o = some c' → c'.flags? = some f' →
      s.history.woken u = true → s.group.eventFlags &&& f' ≠ 0 →
      s.group.eventFlags &&& ~~~f &&& f' ≠ 0) :
    Carries u o ((protocol tasks).interfere e s) := by
  cases e with
  | schedule k' =>
    refine h.quiet rfl (fun hw => ⟨hw, ?_⟩) rfl
    change ((s.reschedule k').taskData u).flagsToWaitFor = _
    unfold Shared.reschedule
    have hw' : s.history.waits u = true := hw
    dsimp only
    rw [if_pos hw']
    rfl
  | setEvents f =>
    rw [interfere_set]
    refine h.set hl f ?_ ?_ ?_ ?_
    · dsimp only
      rw [Kernel.taskData_yield]
    · dsimp only
    · dsimp only [History.wake]
    · dsimp only [History.wake]
  | clearEvents f =>
    rw [interfere_clear]
    refine h.clear f ?_ (fun hw => ⟨hw, ?_⟩) ?_ (hs f rfl)
    · dsimp only [clearRegion]
    · dsimp only [clearRegion]
      rw [Kernel.taskData_exitCritical, Kernel.taskData_enterCritical]
    · dsimp only

/-- The queue is in order and every task carries its flags. -/
abbrev Carried (tasks : Finset TaskPtr) : State → Prop :=
  Protocol.Holds Shared.Listed fun t c s => Local tasks t c s ∧ Carries t c s

theorem carried_apply (hc : tasks.card ≤ maxTasks) {a : Event} {s : State}
    (hs : Carried tasks s) (hg : (protocol tasks).machine.guard a s) (hspares : Spares a s) :
    Carried tasks ((protocol tasks).machine.apply a s) := by
  refine Protocol.holds_apply (C := Spares) ?_ ?_ ?_ ?_ hs hg hspares
  · intro t c s _ ⟨hl, _⟩ ⟨_, ht, he⟩
    refine ⟨hl.invoke ht he, fun c' f hc' hf => ?_⟩
    obtain rfl := Option.some.inj hc'
    cases c <;> first | exact absurd he Bool.false_ne_true | cases hf
  · intro t c s hcall _ hs hen
    obtain ⟨hl, hcarries⟩ := hs.2 t
    rw [hcall] at hl hcarries
    refine ⟨step_listed hc hs.1 hl (fun u hu => ?_) hen, step_local hl hen,
      step_carries hcarries hl hen⟩
    exact (hs.2 u).1.member_of_waits hu
  · intro t c s u hcall hspares hs hen hu
    obtain ⟨hl, hcarries⟩ := hs.2 u
    refine ⟨hl.of_waits fun hw => ?_, frame_carries hcarries hs.1 hen hu ?_⟩
    · rw [step_history, History.waits_after_of_ne _ _ _ _ _ hu] at hw
      exact (Bool.and_eq_true_iff.mp hw).1
    · rintro f rfl c' f' hc' hf' hw hset
      have hclears : clears s (.exec t) = f := by simp only [clears, hcall]
      rw [← hclears]
      exact hspares u c' f' hc' hf' hw hset
  · intro e s hspares hs _
    refine ⟨interfere_listed e hs.1, fun u => ?_⟩
    obtain ⟨hl, hcarries⟩ := hs.2 u
    refine ⟨hl.of_waits (interfere_waits e s.shared), interfere_carries hcarries hs.1 ?_⟩
    rintro f rfl c' f' hc' hf' hw hset
    exact hspares u c' f' hc' hf' hw hset

/-! ## Which answers are right -/

theorem test_iff (k : Kernel) (g : EventGroup) (f : BitVec 32) (e : ℕ) (p : TaskPtr) :
    (step k g (.waitLoop f e p)).2.2 = .ret (.value true) ↔ g.eventFlags &&& f ≠ 0 := by
  simp only [step]
  obtain ⟨b, hb, -, hr⟩ | ⟨h0, -, hr⟩ := loopRegion_cases k g f e p
  · rw [hr, ← hb]
    simp
  · rw [hr]
    exact iff_of_false (by simp) (not_not.mpr h0)

theorem answered_iff_set (s : State) : Answered s ↔
    ∀ t c f, s.call t = some c → c.flags? = some f → s.shared.history.woken t = true →
      s.shared.group.eventFlags &&& f ≠ 0 := by
  unfold Answered
  simp only [test_iff]
  constructor
  · intro h t c f hcall hf
    cases c with
    | waitYield f' e p =>
      cases hf
      exact h t f e p (.inl hcall)
    | waitLoop f' e p =>
      cases hf
      exact h t f e p (.inr hcall)
    | _ => cases hf
  · rintro h t f e p (hcall | hcall) <;> exact h t _ f hcall rfl

theorem Carries.answered {s : State} (h : ∀ t, Carries t (s.call t) s.shared) : Answered s :=
  (answered_iff_set s).mpr fun t c f hcall hf => (h t c f hcall hf).2

theorem clears_keeps {a : Event} {s : State} {t : TaskPtr} {c : Call} {f : BitVec 32}
    (hcall : s.call t = some c) (hf : c.flags? = some f)
    (hclears : clears s a ≠ 0) :
    ((protocol tasks).machine.apply a s).call t = some c ∧
    ((protocol tasks).machine.apply a s).shared.history.woken t = s.shared.history.woken t ∧
    ((protocol tasks).machine.apply a s).shared.group.eventFlags =
      s.shared.group.eventFlags &&& ~~~(clears s a) := by
  cases a with
  | invoke u c' => exact absurd rfl hclears
  | env e =>
    cases e with
    | clearEvents f' =>
      simp only [Protocol.machine, Protocol.apply, interfere_clear, clears]
      exact ⟨hcall, trivial, rfl⟩
    | _ => exact absurd rfl hclears
  | exec u =>
    cases hu : s.call u with
    | none => simp [clears, hu] at hclears
    | some c' =>
      cases c' with
      | clearEvents f' =>
        have hne : t ≠ u := by
          rintro rfl
          rw [hcall] at hu
          obtain rfl := Option.some.inj hu
          cases hf
        simp only [Protocol.machine, Protocol.apply, hu, clears]
        refine ⟨?_, ?_, ?_⟩
        · rw [Function.update_of_ne hne]
          exact hcall
        · rw [step_history, History.woken_after_of_ne _ _ _ _ _ hne]
          simp [wakes]
        · rw [step_shared]
          rfl
      | _ => simp [clears, hu] at hclears

/-- If all woken tasks are answered after an event, it has spared their flags. -/
theorem Answered.spares {a : Event} {s : State}
    (h : Answered ((protocol tasks).machine.apply a s)) : Spares a s := by
  intro t c f hcall hf hw hset
  by_cases hclears : clears s a = 0
  · have hkeep : ~~~(0 : BitVec 32) = BitVec.allOnes 32 := rfl
    rw [hclears, hkeep, BitVec.and_allOnes]
    exact hset
  · have hkeeps : ((protocol tasks).machine.apply a s).call t = some c ∧ _ ∧ _ :=
      clears_keeps hcall hf hclears
    obtain ⟨hcall', hw', hflags⟩ := hkeeps
    rw [← hflags]
    exact (answered_iff_set _).mp h t c f hcall' hf (hw'.trans hw)

/-- In a run, a task that `setEvents` has woken gets true whenever it makes its test exactly
if no event takes the last set flag of a woken task, and no call with timeout `WAIT_FOREVER`
returns false exactly if each of its tests finds a flag or is made in time. -/
theorem answered_iff (tasks : Finset TaskPtr) (k : Kernel) (es : List Event)
    (h : (protocol tasks).machine.Valid (start k) es) :
    (tasks.card ≤ maxTasks →
      ((∀ fs, fs <+: es → Answered ((protocol tasks).machine.exec (start k) fs)) ↔
        ((protocol tasks).machine.restrict Spares).Valid (start k) es)) ∧
    ((∀ fs, fs <+: es → ((protocol tasks).machine.exec (start k) fs).shared.history.denied = false)
      ↔ ((protocol tasks).machine.restrict Heard).Valid (start k) es) := by
  constructor
  · intro hc
    have hstart : Carried tasks (start k) := by
      obtain ⟨hl, hlocal⟩ := listed_reached hc k [] trivial
      exact ⟨hl, fun t => ⟨hlocal t, fun c' f hc' => by cases hc'⟩⟩
    refine Machine.forall_prefix_iff (I := Carried tasks) ?_ ?_ hstart
      (Carries.answered fun t => (hstart.2 t).2) h
    · intro a s hs _ hg hnext
      exact carried_apply hc hs hg hnext.spares
    · intro a s hs _ hg
      refine ⟨Answered.spares, fun hspares => Carries.answered fun t => ?_⟩
      exact ((carried_apply hc hs hg hspares).2 t).2
  · exact Machine.forall_prefix_iff_of_reached (fun fs hfs => timed_reached k fs hfs)
      (fun a s ht hd _ => apply_denied ht hd) rfl h

def at' (t : TaskPtr) (now : ℕ) : Kernel :=
  { currentTask := t, idleTask := 0, taskData := fun _ => {}, port := { tickCount := now } }

/-- Task 1 waits for flag 0, which task 2 sets and clears again; by the time task 1 makes its
test, its ten ticks have passed. -/
def clearedRun : List Event :=
  [.env (.schedule (at' 1 0)), .invoke 1 (.waitForEvents 1 10), .exec 1, .exec 1,
    .env (.schedule (at' 2 3)), .invoke 2 (.setEvents 1), .exec 2, .exec 2, .exec 2,
    .invoke 2 (.clearEvents 1), .exec 2, .env (.schedule (at' 1 10))]

/-- Task 1 waits forever for a flag that nobody sets, and makes its test late. -/
def foreverRun : List Event :=
  [.env (.schedule (at' 1 0)), .invoke 1 (.waitForEvents 1 waitForever), .exec 1, .exec 1,
    .env (.schedule (at' 1 waitForever)), .exec 1]

/-- Not every woken task gets true, and a task that waits forever may be told false. -/
theorem answered_fails :
    (¬ ∀ es, (protocol {1, 2}).machine.Valid (start (at' 0 0)) es →
      Answered ((protocol {1, 2}).machine.exec (start (at' 0 0)) es)) ∧
    (¬ ∀ es, (protocol {1, 2}).machine.Valid (start (at' 0 0)) es →
      ((protocol {1, 2}).machine.exec (start (at' 0 0)) es).shared.history.denied = false) := by
  constructor
  · intro h
    have htest := h clearedRun (by decide +kernel) 1 1 10 1 (by decide +kernel) (by decide +kernel)
    exact absurd htest (by decide +kernel)
  · intro h
    exact absurd (h foreverRun (by decide +kernel)) (by decide +kernel)

theorem answered_iff_cleared :
    ((∀ fs, fs <+: clearedRun →
        Answered ((protocol {1, 2}).machine.exec (start (at' 0 0)) fs)) ↔
      ((protocol {1, 2}).machine.restrict Spares).Valid (start (at' 0 0)) clearedRun) ∧
    ((∀ fs, fs <+: clearedRun →
        ((protocol {1, 2}).machine.exec (start (at' 0 0)) fs).shared.history.denied = false)
      ↔ ((protocol {1, 2}).machine.restrict Heard).Valid (start (at' 0 0)) clearedRun) :=
  have h := answered_iff {1, 2} (at' 0 0) clearedRun (by decide +kernel)
  ⟨h.1 (by decide), h.2⟩

end CppRtos.EventGroup
