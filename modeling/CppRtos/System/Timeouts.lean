import CppRtos.System.Waits

/-! Timeouts. The deadline of a waiting task is a local variable of its call, and nobody looks
at it while the task waits: a history of the run compares the deadlines with the tick count. -/
namespace CppRtos

/-- The timeout of a call that reads the tick count with this step. -/
def Call.timeout : Call → Option ℕ
  | .semaphore _ (.wait n) | .mutex _ (.acquireStart n _)
  | .eventGroup _ (.waitForEvents _ n) => some n
  | _ => none

def CallResult.isTimeout : CallResult → Bool
  | .semaphore .timeout | .mutex .timeout | .eventGroup (.value false) => true
  | _ => false

namespace system
open Objects

/-- `limit` is `s + n` if the present call of a task was given a finite timeout `n ≠ 0` at tick
count `s`, and `deadline` the limit of the call with which a task last joined a queue. A task
`awaits` a queue from the step with which its call joins it until the call returns or a signal,
a release, a flush or a setting of events takes the task out of the queue. If a call returns
anything but a timeout while the task still awaits a queue, the result is `misreported`. -/
structure History where
  limit : TaskPtr → Option ℕ := fun _ => none
  deadline : TaskPtr → WaitQueue → Option ℕ := fun _ _ => none
  awaits : TaskPtr → Option WaitQueue := fun _ => none
  misreported : Bool := false

def limitOf (now ticksTimeout : ℕ) : Option ℕ :=
  if ticksTimeout = 0 ∨ ticksTimeout = waitForever then none else some (now + ticksTimeout)

/-- The queue that the calling task has joined with a step after which its call goes on. -/
def joins (t : TaskPtr) (c : Call) (o : Objects) : Option WaitQueue :=
  if (o.step c).2.call?.isSome then
    c.waitsIn.filter fun q => decide (t ∈ ((o.step c).1.queues q).pointers)
  else none

namespace History

def limitAfter (h : History) (t : TaskPtr) (c : Call) (o : Objects) : Option ℕ :=
  match c.timeout with
  | some n => limitOf o.kernel.getTickCount n
  | none => h.limit t

/-- What a task awaits after a step of the others. -/
def stillAwaits (h : History) (o : Objects) (t : TaskPtr) : Option WaitQueue :=
  (h.awaits t).filter fun q => decide (t ∈ (o.queues q).pointers)

def advance (h : History) (t : TaskPtr) (c : Call) (o : Objects) : History where
  limit := Function.update h.limit t (h.limitAfter t c o)
  deadline u q := if u = t ∧ joins t c o = some q then h.limitAfter t c o else h.deadline u q
  awaits u :=
    if u = t then match (o.step c).2 with
      | .next _ => (joins t c o).or (h.awaits t)
      | .ret _ => none
    else h.stillAwaits (o.step c).1 u
  misreported := h.misreported || match (o.step c).2 with
    | .next _ => false
    | .ret r => (h.awaits t).isSome && !r.isTimeout

end History

def observe : Event → State → State → History → History
  | .invoke _ _, _, _, h => h
  | .exec t, s, _, h => match s.call t with
    | none => h
    | some c => h.advance t c s.shared
  | .env _, _, s', h => { h with awaits := h.stillAwaits s'.shared }

def recording : Machine (State × History) Event := system.machine.withHistory observe

instance : ∀ e s, Decidable (recording.guard e s) := fun e s =>
  inferInstanceAs (Decidable (system.machine.guard e s.1))

def recorded (u : Setup) (es : List Event) : State × History := recording.exec (init u, {}) es

/-- No blocked task is in a queue because of a call whose time is over, and no call has
reported success out of a wait that nobody has ended. -/
structure Honoured (s : State × History) : Prop where
  in_time : ∀ t q d, s.2.deadline t q = some d → s.1.shared.kernel.getState t = .eBlocked →
    t ∈ (s.1.shared.queues q).pointers → s.1.shared.kernel.getTickCount ≤ d
  reported : s.2.misreported = false

/-- A tick finds no call that still awaits a queue and whose time is over with this tick. -/
def Timely : Event → State × History → Prop
  | .env .sysTick, s => ∀ i < maxTasks, ∀ t ∈ s.1.shared.kernel.tasks i, ∀ q ∈ s.2.awaits t,
    ∀ d ∈ s.2.deadline t q, (s.1.shared.kernel.getTickCount + 1) % 2 ^ 64 ≤ d
  | _, _ => True

instance : ∀ e s, Decidable (Timely e s)
  | .env .sysTick, s => inferInstanceAs (Decidable (∀ i < maxTasks,
      ∀ t ∈ s.1.shared.kernel.tasks i, ∀ q ∈ s.2.awaits t, ∀ d ∈ s.2.deadline t q,
        (s.1.shared.kernel.getTickCount + 1) % 2 ^ 64 ≤ d))
  | .env .pendSV, _ | .env (.isr _), _ | .env (.addTask _), _ | .invoke _ _, _ | .exec _, _ =>
    inferInstanceAs (Decidable True)

end system

/-! ## The time limit of a call -/

/-- The locals of a call with limit `d` that hold its end time. -/
def Call.Limited (d : ℕ) : Call → Prop
  | .semaphore _ (.waitRegion n e) => n ≠ waitForever ∧ e ≤ d
  | .mutex _ (.acquireLoop f e _) | .mutex _ (.acquireYield f e _) => f = false ∧ e ≤ d
  | _ => True

theorem Semaphore.in_time {k : Kernel} {s : Semaphore} {n e : ℕ}
    (h : (waitRegion k s n e).2.2.call?.isSome = true) (hn : n ≠ waitForever) :
    k.getTickCount ≤ e := by
  unfold waitRegion at h
  dsimp only at h
  split_ifs at h with _ _ he
  · cases h
  · cases h
  · cases h
  · rw [Kernel.getTickCount_enterCritical] at he
    exact Nat.le_of_not_lt fun hlt => he ⟨hn, hlt⟩

theorem Mutex.in_time {k : Kernel} {m : Mutex} {f : Bool} {e : ℕ} {p : TaskPtr}
    (h : (acquireRegion k m f e p).2.2.call?.isSome = true) (hf : f = false) :
    k.getTickCount ≤ e := by
  have htime : timedOut k f e = false → k.getTickCount ≤ e := by
    intro ht
    rw [timedOut, hf, Bool.not_false, Bool.true_and, decide_eq_false_iff_not] at ht
    exact Nat.le_of_not_lt ht
  obtain ⟨-, hr⟩ | ⟨-, -, hr⟩ | ⟨-, ht, -, -⟩ | ⟨-, ht, -, -⟩ := acquireRegion_cases k m f e p
  · rw [hr] at h
    cases h
  · rw [hr] at h
    cases h
  · exact htime ht
  · exact htime ht

namespace system
open Objects
variable {h : History} {t : TaskPtr} {c : Call} {o : Objects}

theorem limitOf_eq_some {now n d : ℕ} :
    limitOf now n = some d ↔ n ≠ 0 ∧ n ≠ waitForever ∧ d = now + n := by
  unfold limitOf
  split_ifs with hn
  · simp only [false_iff]
    rintro ⟨h0, hf, -⟩
    exact hn.elim h0 hf
  · rw [not_or] at hn
    rw [Option.some.injEq, eq_comm]
    exact ⟨fun hd => ⟨hn.1, hn.2, hd⟩, fun hd => hd.2.2⟩

theorem isEntry_limited (hc : c.isEntry t = true) (d : ℕ) : c.Limited d := by
  cases c with
  | task c => trivial
  | semaphore s c => cases c <;> cases hc <;> trivial
  | mutex m c => cases c <;> cases hc <;> trivial
  | eventGroup g c => trivial

theorem limited_semaphore {s : ℕ} {c c' : Semaphore.Call}
    (hnext : (Semaphore.step o.kernel (o.semaphores s) c).2.2.call? = some c') {d : ℕ}
    (hd : h.limitAfter t (.semaphore s c) o = some d) : (Call.semaphore s c').Limited d := by
  cases c with
  | wait n =>
    obtain ⟨-, hf, rfl⟩ := limitOf_eq_some.mp hd
    simp only [Semaphore.step] at hnext
    split_ifs at hnext
    · cases hnext
    · obtain rfl := Option.some.inj hnext
      refine ⟨hf, (Nat.mod_le _ _).trans ?_⟩
      rw [Kernel.getTickCount_assert, Nat.add_comm]
  | waitRegion n e =>
    simp only [Semaphore.step] at hnext
    obtain ⟨-, hr⟩ | ⟨-, hr⟩ | ⟨-, hr⟩ :=
      Semaphore.waitRegion_cases o.kernel (o.semaphores s) n e <;> rw [hr] at hnext
    · cases hnext
    · cases hnext
    · obtain rfl := Option.some.inj hnext
      trivial
  | signal =>
    simp only [Semaphore.step] at hnext
    split_ifs at hnext
    · cases hnext
    · obtain rfl := Option.some.inj hnext
      trivial
  | flush =>
    simp only [Semaphore.step] at hnext
    split_ifs at hnext
    · obtain rfl := Option.some.inj hnext
      trivial
    · cases hnext
  | signalWord p =>
    simp only [Semaphore.step] at hnext
    split_ifs at hnext <;>
      · obtain rfl := Option.some.inj hnext
        trivial
  | waitYield | signalReady | signalBitmap | signalYield =>
    obtain rfl := Option.some.inj hnext
    trivial
  | waitReturn | signalReturn => cases hnext

theorem limited_mutex {m : ℕ} {c c' : Mutex.Call} {d : ℕ}
    (hl : h.limit t = some d → (Call.mutex m c).Limited d)
    (hnext : (Mutex.step o.kernel (o.mutexes m) c).2.2.call? = some c')
    (hd : h.limitAfter t (.mutex m c) o = some d) : (Call.mutex m c').Limited d := by
  cases c with
  | acquireStart n p =>
    obtain ⟨-, hf, rfl⟩ := limitOf_eq_some.mp hd
    simp only [Mutex.step] at hnext
    split_ifs at hnext
    · cases hnext
    · obtain rfl := Option.some.inj hnext
      refine ⟨beq_eq_false_iff_ne.mpr hf, (Nat.mod_le _ _).trans ?_⟩
      rw [Nat.add_comm]
  | acquireLoop f e p =>
    have hold : f = false ∧ e ≤ d := hl hd
    simp only [Mutex.step] at hnext
    obtain ⟨-, hr⟩ | ⟨-, -, hr⟩ | ⟨-, -, -, hr⟩ | ⟨-, -, -, hr⟩ :=
      Mutex.acquireRegion_cases o.kernel (o.mutexes m) f e p <;> rw [hr] at hnext
    · cases hnext
    · cases hnext
    · obtain rfl := Option.some.inj hnext
      exact hold
    · obtain rfl := Option.some.inj hnext
      exact hold
  | acquireYield f e p =>
    obtain rfl := Option.some.inj hnext
    exact hl hd
  | acquire n =>
    simp only [Mutex.step] at hnext
    split_ifs at hnext
    · cases hnext
    · obtain rfl := Option.some.inj hnext
      trivial
  | release =>
    simp only [Mutex.step] at hnext
    split_ifs at hnext
    · cases hnext
    · cases hnext
    · obtain rfl := Option.some.inj hnext
      trivial
  | releaseOwner =>
    simp only [Mutex.step] at hnext
    split_ifs at hnext
    · obtain rfl := Option.some.inj hnext
      trivial
    · cases hnext
  | releaseRegion | releaseYield =>
    obtain rfl := Option.some.inj hnext
    trivial
  | releaseReturn => cases hnext

theorem step_limited (hl : ∀ d, h.limit t = some d → c.Limited d) {c' : Call}
    (hnext : (o.step c).2.call? = some c') {d : ℕ} (hd : h.limitAfter t c o = some d) :
    c'.Limited d := by
  cases c with
  | task c =>
    rw [step, Outcome.call?_map, Option.map_eq_some_iff] at hnext
    obtain ⟨c', -, rfl⟩ := hnext
    trivial
  | eventGroup g c =>
    rw [step, Outcome.call?_map, Option.map_eq_some_iff] at hnext
    obtain ⟨c', -, rfl⟩ := hnext
    trivial
  | semaphore s c =>
    rw [step, Outcome.call?_map, Option.map_eq_some_iff] at hnext
    obtain ⟨c', hnext, rfl⟩ := hnext
    exact limited_semaphore hnext hd
  | mutex m c =>
    rw [step, Outcome.call?_map, Option.map_eq_some_iff] at hnext
    obtain ⟨c', hnext, rfl⟩ := hnext
    exact limited_mutex (hl d) hnext hd

theorem joins_eq_some {q : WaitQueue} : joins t c o = some q ↔
    (o.step c).2.call?.isSome = true ∧ c.waitsIn = some q ∧
      t ∈ ((o.step c).1.queues q).pointers := by
  unfold joins
  split_ifs with hs
  · rw [Option.filter_eq_some_iff, decide_eq_true_eq]
    exact ⟨fun hq => ⟨hs, hq⟩, fun hq => hq.2⟩
  · simp only [false_iff]
    exact fun hq => hs hq.1

theorem joins_in_time (hl : ∀ d, h.limit t = some d → c.Limited d) {q : WaitQueue}
    (hq : joins t c o = some q) {d : ℕ} (hd : h.limitAfter t c o = some d) :
    o.kernel.getTickCount ≤ d := by
  obtain ⟨hnext, hw, -⟩ := joins_eq_some.mp hq
  cases c with
  | task c => cases hw
  | semaphore s c =>
    rw [step, Outcome.call?_map, Option.isSome_map] at hnext
    cases c with
    | waitRegion n e =>
      obtain ⟨hn, he⟩ : n ≠ waitForever ∧ e ≤ d := hl d hd
      exact (Semaphore.in_time hnext hn).trans he
    | _ => cases hw
  | mutex m c =>
    rw [step, Outcome.call?_map, Option.isSome_map] at hnext
    cases c with
    | acquireLoop f e p =>
      obtain ⟨hf, he⟩ : f = false ∧ e ≤ d := hl d hd
      exact (Mutex.in_time hnext hf).trans he
    | _ => cases hw
  | eventGroup g c =>
    cases c with
    | waitForEvents f n =>
      obtain ⟨-, -, rfl⟩ := limitOf_eq_some.mp hd
      exact Nat.le_add_right _ _
    | _ => cases hw

/-! ## The history of the wait queues -/

/-- Tasks await the queues they are in, calls keep to their limits, and results are true. -/
structure Linked (s : State × History) : Prop where
  queued : ∀ t q, t ∈ (s.1.shared.queues q).pointers ↔ s.2.awaits t = some q
  limited : ∀ t c, s.1.call t = some c → ∀ d, s.2.limit t = some d → c.Limited d
  reported : s.2.misreported = false

theorem stillAwaits_eq_some {u : TaskPtr} {q : WaitQueue} : h.stillAwaits o u = some q ↔
    h.awaits u = some q ∧ u ∈ (o.queues q).pointers := by
  unfold History.stillAwaits
  rw [Option.filter_eq_some_iff, decide_eq_true_eq]

section
variable {s : State} (hG : Governed s) (hc : s.call t = some c) (hr : Runs t s.shared)
  (hq : ∀ u q, u ∈ (s.shared.queues q).pointers ↔ h.awaits u = some q)
include hG hc hr hq

theorem awaits_none (hb : c.beforeYield = false) : h.awaits t = none := by
  cases hw : h.awaits t with
  | none => rfl
  | some q => exact absurd ((hq t q).mpr hw) (Governed.not_mem hG hc hr hb q)

theorem advance_queued (u : TaskPtr) (q : WaitQueue) :
    u ∈ ((s.shared.step c).1.queues q).pointers ↔
      (h.advance t c s.shared).awaits u = some q := by
  have hin := (hG.proceeds hc hr).1
  have hmem := fun hu => mem_step (u := u) (q := q) hG.placed hr.1 hin.names hu
  simp only [History.advance]
  split_ifs with hut
  · subst u
    cases hb : c.beforeYield with
    | true =>
      obtain ⟨hqueues, hw, hnext⟩ := step_beforeYield s.shared hb
      have hjoins : joins t c s.shared = none := by
        unfold joins
        rw [hw, Option.filter_none, ite_self]
      rw [hqueues, hq t q]
      cases ho : (s.shared.step c).2 with
      | next c' => rw [hjoins, Option.none_or]
      | ret r =>
        rw [ho] at hnext
        cases hnext
    | false =>
      have hout := Governed.not_mem hG hc hr hb q
      rw [awaits_none hG hc hr hq hb]
      cases ho : (s.shared.step c).2 with
      | next c' =>
        rw [Option.or_none, joins_eq_some]
        constructor
        · intro hu
          obtain ⟨-, hw, hnext⟩ := (hmem hu).resolve_left hout
          exact ⟨hnext, hw, hu⟩
        · exact fun hj => hj.2.2
      | ret r =>
        refine iff_of_false (fun hu => ?_) (by simp)
        obtain ⟨-, -, hnext⟩ := (hmem hu).resolve_left hout
        rw [ho] at hnext
        cases hnext
  · rw [stillAwaits_eq_some, ← hq u q]
    constructor
    · intro hu
      exact ⟨(hmem hu).resolve_right fun hj => hut hj.1, hu⟩
    · exact fun hu => hu.2

theorem advance_reported (hm : h.misreported = false) :
    (h.advance t c s.shared).misreported = false := by
  simp only [History.advance, hm, Bool.false_or]
  cases hb : c.beforeYield with
  | true =>
    obtain ⟨-, -, hnext⟩ := step_beforeYield s.shared hb
    cases ho : (s.shared.step c).2 with
    | next c' => rfl
    | ret r =>
      rw [ho] at hnext
      cases hnext
  | false =>
    rw [awaits_none hG hc hr hq hb]
    cases (s.shared.step c).2 <;> rfl

end

theorem observe_exec {s s' : State} (hc : s.call t = some c) (h : History) :
    observe (.exec t) s s' h = h.advance t c s.shared := by
  simp only [observe, hc]

theorem Linked.apply {s : State × History} {e : Event} (hL : Linked s) (hG : Governed s.1)
    (hg : recording.guard e s) : Linked (recording.apply e s) := by
  obtain ⟨s, h⟩ := s
  rcases e with ⟨t, c⟩ | t | e
  · obtain ⟨-, hen⟩ := hg
    refine ⟨hL.queued, fun u c' hc' d hd => ?_, hL.reported⟩
    have hcall : Function.update s.call t (some c) u = some c' := hc'
    by_cases hu : u = t
    · subst u
      rw [Function.update_self, Option.some.injEq] at hcall
      exact hcall ▸ isEntry_limited hen.2.2 d
    · rw [Function.update_of_ne hu] at hcall
      exact hL.limited u c' hcall d hd
  · obtain ⟨c, hc, hr⟩ := Protocol.call_of_guard (P := system) hg
    unfold recording Machine.withHistory
    dsimp only
    rw [Protocol.apply_exec hc, observe_exec hc]
    refine ⟨advance_queued hG hc hr hL.queued, fun u c' hc' d hd => ?_,
      advance_reported hG hc hr hL.queued hL.reported⟩
    dsimp only [History.advance] at hc' hd
    by_cases hu : u = t
    · subst u
      rw [Function.update_self] at hc' hd
      exact step_limited (fun d hd => hL.limited t c hc d hd) hc' hd
    · rw [Function.update_of_ne hu] at hc' hd
      exact hL.limited u c' hc' d hd
  · refine ⟨fun u q => ?_, hL.limited, hL.reported⟩
    have hmem := fun hu => mem_interrupt (e := e) (u := u) (q := q) hG.placed hu
    have hstill := stillAwaits_eq_some (h := h) (o := s.shared.interrupt e) (u := u) (q := q)
    rw [← hL.queued u q] at hstill
    exact ⟨fun hu => hstill.mpr ⟨hmem hu, hu⟩, fun hu => (hstill.mp hu).2⟩

theorem linked_init (u : Setup) : Linked (init u, {}) where
  queued t q := by
    refine iff_of_false (fun ht => ?_) (by simp)
    cases q <;> cases ht
  limited t c hc := by cases hc
  reported := rfl

/-! ## Deadlines -/

/-- The tick after which a waiting task is late is the only event that breaks a promise. -/
theorem honoured_apply {s : State × History} {e : Event} (hG : Governed s.1) (hL : Linked s)
    (hH : Honoured s) (hg : recording.guard e s) (hd : Dispatching e s.1) :
    Honoured (recording.apply e s) ↔ Timely e s := by
  have hL' := hL.apply hG hg
  have hG' : Governed (recording.apply e s).1 := hG.apply hg hd
  obtain ⟨s, h⟩ := s
  have hplaced := hG.placed
  rcases e with ⟨t, c⟩ | t | e
  · exact iff_of_true ⟨hH.in_time, hH.reported⟩ trivial
  · refine iff_of_true ⟨fun u q d hdl _ hu => ?_, hL'.reported⟩ trivial
    obtain ⟨c, hc, hr⟩ := Protocol.call_of_guard (P := system) hg
    have hin := (Governed.proceeds hG hc hr).1
    unfold recording Machine.withHistory at hdl hu ⊢
    dsimp only at hdl hu ⊢
    rw [Protocol.apply_exec hc] at hu ⊢
    rw [observe_exec hc] at hdl
    dsimp only [History.advance] at hdl hu ⊢
    change (s.shared.step c).1.kernel.getTickCount ≤ d
    rw [getTickCount_step]
    split_ifs at hdl with hj
    · exact joins_in_time (fun d hd => hL.limited t c hc d hd) hj.2 hdl
    · rcases mem_step hplaced hr.1 hin.names hu with hin' | ⟨rfl, hw, hnext⟩
      · exact hH.in_time u q d hdl (hplaced.blocked_of_mem hin') hin'
      · exact absurd ⟨rfl, joins_eq_some.mpr ⟨hnext, hw, hu⟩⟩ hj
  · have htick := getTickCount_interrupt s.shared e
    by_cases he : e = .sysTick
    · subst e
      rw [if_pos rfl] at htick
      constructor
      · intro hH' i _ t _ q hq d hdl
        have hin : t ∈ ((s.shared.interrupt .sysTick).queues q).pointers := (hL.queued t q).mpr hq
        have hle := hH'.in_time t q d hdl (hG'.placed.blocked_of_mem hin) hin
        exact htick.ge.trans hle
      · intro ht
        refine ⟨fun t q d hdl _ hu => ?_, hL'.reported⟩
        have hin : t ∈ (s.shared.queues q).pointers := hu
        obtain ⟨i, hi⟩ := hplaced.registered q t hin
        have hlt := (hplaced.registry.slot_lt i t hi).trans_le hplaced.registry.taskCount_le
        have hle := ht i hlt t hi q ((hL.queued t q).mp hin) d hdl
        exact htick.le.trans hle
    · rw [if_neg he] at htick
      refine iff_of_true ⟨fun t q d hdl _ hu => ?_, hL'.reported⟩ ?_
      · have hin := mem_interrupt (e := e) hplaced hu
        exact htick.le.trans (hH.in_time t q d hdl (hplaced.blocked_of_mem hin) hin)
      · cases e with
        | sysTick => exact absurd rfl he
        | _ => trivial

theorem honoured_init (u : Setup) : Honoured (init u, {}) where
  in_time _ _ _ hd := by cases hd
  reported := rfl

/-- In a run whose context switches find a task that may execute, timeouts are honoured exactly
as long as none of them expires while a task waits. -/
theorem timeouts_honoured_iff {u : Setup} {es : List Event}
    (h : (system.machine.restrict Dispatching).Valid (init u) es) :
    (∀ fs, fs <+: es → Honoured (recorded u fs)) ↔
      (recording.restrict Timely).Valid (init u, {}) es := by
  have hall : (recording.restrict fun e s => Dispatching e s.1).Valid (init u, {}) es :=
    (Machine.valid_withHistory (system.machine.restrict Dispatching) observe (init u, {}) es).mpr h
  have hiff := Machine.forall_prefix_iff (M := recording.restrict fun e s => Dispatching e s.1)
    (I := fun s => Governed s.1 ∧ Linked s)
    (fun e s hI _ hg _ => ⟨hI.1.apply hg.1 hg.2, hI.2.apply hI.1 hg.1⟩)
    (fun e s hI hH hg => honoured_apply hI.1 hI.2 hH hg.1 hg.2)
    ⟨governed_init u, linked_init u⟩ (honoured_init u) hall
  refine hiff.trans ?_
  rw [Machine.valid_restrict_restrict]
  exact and_iff_right hall

/-- Task 2 waits for two ticks at tick 1 and is signalled by an interrupt. -/
theorem timeouts_honoured_signalled :
    let es : List Event :=
      [.env (.addTask 1), .env (.addTask 2), .env .sysTick, .env .pendSV,
        .invoke 2 (.semaphore 0 (.wait 2)), .exec 2, .exec 2, .exec 2, .env .pendSV,
        .env .sysTick, .env .pendSV, .env .sysTick, .env (.isr (.signal 0)), .env .pendSV,
        .exec 2, .env .sysTick]
    ∀ fs, fs <+: es → Honoured (recorded timeoutSetup fs) :=
  (timeouts_honoured_iff (by decide +kernel)).mpr (by decide +kernel)

/-- Task 2 waits for two ticks at tick 1, and nobody signals the semaphore. -/
def expiredRun : List Event :=
  [.env (.addTask 1), .env (.addTask 2), .env .sysTick, .env .pendSV,
    .invoke 2 (.semaphore 0 (.wait 2)), .exec 2, .exec 2, .exec 2, .env .pendSV,
    .env .sysTick, .env .pendSV, .env .sysTick, .env .pendSV, .env .sysTick, .env .pendSV]

/-- The only task waits and goes on as no other task is ready. -/
def ungrantedRun : List Event :=
  [.env (.addTask 1), .env .sysTick, .env .pendSV,
    .invoke 1 (.semaphore 0 (.wait 5)), .exec 1, .exec 1, .exec 1, .env .pendSV, .exec 1]

set_option maxRecDepth 4000 in
/-- At tick 4 task 2 is still in the queue, and task 1 has got a token that does not exist. -/
theorem timeouts_dishonoured :
    (Run timeoutSetup expiredRun ∧ ¬ Honoured (recorded timeoutSetup expiredRun)) ∧
      (Run timeoutSetup ungrantedRun ∧
        (recorded timeoutSetup ungrantedRun).2.misreported = true) := by
  refine ⟨⟨by decide +kernel, fun h => ?_⟩, by decide +kernel, by decide +kernel⟩
  have hlate : (recorded timeoutSetup expiredRun).1.shared.kernel.getTickCount ≤ 3 :=
    h.in_time 2 (.semaphore 0) 3 (by decide +kernel) (by decide +kernel) (by decide +kernel)
  have hnow : (recorded timeoutSetup expiredRun).1.shared.kernel.getTickCount = 4 := by
    decide +kernel
  omega

end system

end CppRtos
