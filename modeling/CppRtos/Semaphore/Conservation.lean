import CppRtos.Semaphore
import Mathlib.Data.Finset.Card

/-! Tokens of a semaphore over runs of `wait`, `signal` and `flush`. The history that
the statements speak about is recorded beside the state; no step reads it. -/
namespace CppRtos.Semaphore

/-- What has happened so far: waits that returned with a token at once, waiters readied by
a signal, signals, signals without effect, blockings, the number of blockings before the
last one of each task, and the tasks that have blocked in the `wait` they are in. -/
structure History where
  immediate : ℕ := 0
  readied : ℕ := 0
  signals : ℕ := 0
  absorbed : ℕ := 0
  clock : ℕ := 0
  blockedAt : TaskPtr → ℕ := fun _ => 0
  inWait : TaskPtr → Bool := fun _ => false

namespace History

def signal (h : History) (s : Semaphore) : History :=
  { h with
    signals := h.signals + 1
    readied := if s.waitingQueue.size = 0 then h.readied else h.readied + 1
    absorbed :=
      if s.waitingQueue.size = 0 ∧ s.maxCount ≤ s.count then h.absorbed + 1 else h.absorbed }

def block (h : History) (t : TaskPtr) : History :=
  { h with
    clock := h.clock + 1
    blockedAt := Function.update h.blockedAt t h.clock
    inWait := Function.update h.inWait t true }

/-- The history after a step of task `t` on a semaphore in state `s`. -/
def after (h : History) (t : TaskPtr) (s : Semaphore) (c : Call) (o : Outcome Call SemResult) :
    History :=
  match c with
  | .waitRegion _ _ =>
    if o = .ret .success then { h with immediate := h.immediate + 1 }
    else if o = .next .waitYield then h.block t
    else h
  | .waitReturn => { h with inWait := Function.update h.inWait t false }
  | .signal => h.signal s
  | _ => h

end History

structure Shared where
  kernel : Kernel
  semaphore : Semaphore
  history : History := {}

/-- What happens between the steps of the tasks: the scheduler works, or an interrupt
handler calls `signal` or `flush`. -/
inductive Environment where
  | schedule (k : Kernel)
  | signal
  | flush

def Call.isEntry : Call → Bool
  | .wait _ | .signal | .flush => true
  | _ => false

/-- The scheduler neither wakes nor blocks a task that has blocked in `wait`, -/
def Allowed (tasks : Finset TaskPtr) : Environment → Shared → Prop
  | .schedule k', s => ∀ t ∈ tasks, s.history.inWait t = true →
      (k'.getState t = .eBlocked ↔ s.kernel.getState t = .eBlocked)
  | _, _ => True

/-- and such a task does not go on before it has been woken. -/
def protocol (tasks : Finset TaskPtr) :
    Protocol TaskPtr Shared Call SemResult Environment where
  entry t c s := s.kernel.currentTask = t ∧ t ∈ tasks ∧ c.isEntry = true
  enabled t c s := s.kernel.currentTask = t ∧ (c = .waitReturn → s.kernel.getState t ≠ .eBlocked)
  step t c s :=
    let r := step s.kernel s.semaphore c
    (⟨r.1, r.2.1, s.history.after t s.semaphore c r.2.2⟩, r.2.2)
  interferes := Allowed tasks
  interfere e s := match e with
    | .schedule k' => { s with kernel := k' }
    | .signal =>
      let r := signalRegion s.kernel s.semaphore
      ⟨r.1, r.2, s.history.signal s.semaphore⟩
    | .flush =>
      let r := flushRegion s.kernel s.semaphore
      ⟨r.1, r.2.1, s.history⟩

abbrev State := Config TaskPtr Shared Call
abbrev Event := Protocol.Action TaskPtr Call Environment

def start (maxCount initialCount : ℕ) (k : Kernel) : State :=
  Protocol.start { kernel := k, semaphore := new maxCount initialCount }

section
variable (tasks : Finset TaskPtr)

instance : ∀ e s, Decidable (Allowed tasks e s)
  | .schedule k', s => inferInstanceAs (Decidable (∀ t ∈ tasks, s.history.inWait t = true →
      (k'.getState t = .eBlocked ↔ s.kernel.getState t = .eBlocked)))
  | .signal, _ => inferInstanceAs (Decidable True)
  | .flush, _ => inferInstanceAs (Decidable True)

instance : ∀ t c s, Decidable ((protocol tasks).entry t c s) := fun t c s =>
  inferInstanceAs (Decidable (s.kernel.currentTask = t ∧ t ∈ tasks ∧ c.isEntry = true))

instance : ∀ t c s, Decidable ((protocol tasks).enabled t c s) := fun t c s =>
  inferInstanceAs (Decidable (s.kernel.currentTask = t ∧
    (c = .waitReturn → s.kernel.getState t ≠ .eBlocked)))

instance : ∀ e s, Decidable ((protocol tasks).interferes e s) := fun e s =>
  inferInstanceAs (Decidable (Allowed tasks e s))

end

/-! ## The invariant -/

/-- The queue holds the tasks of `order`, which are the blocked ones, oldest first. -/
structure Queued (tasks : Finset TaskPtr) (maxCount initialCount : ℕ) (s : Shared)
    (order : List TaskPtr) : Prop where
  wellFormed : s.semaphore.waitingQueue.WellFormed
  queue : s.semaphore.waitingQueue.toList = order.map some
  sorted : order.Pairwise fun t u => s.history.blockedAt t < s.history.blockedAt u
  recent : ∀ t ∈ order, s.history.blockedAt t < s.history.clock
  members : ∀ t ∈ order, t ∈ tasks
  blocked : ∀ t, t ∈ order ↔ s.history.inWait t = true ∧ s.kernel.getState t = .eBlocked
  maxCount_eq : s.semaphore.maxCount = maxCount
  count_le : s.semaphore.count ≤ max maxCount initialCount
  count_zero : order ≠ [] → s.semaphore.count = 0
  balance : s.history.immediate + s.history.readied + s.semaphore.count + s.history.absorbed =
    initialCount + s.history.signals

/-- A task is recorded as blocked in `wait` exactly at the points behind the region. -/
def Local (tasks : Finset TaskPtr) (t : TaskPtr) (c : Option Call) (s : Shared) : Prop :=
  (s.history.inWait t = true ↔ c = some .waitYield ∨ c = some .waitReturn) ∧
    (c ≠ none → t ∈ tasks)

section
variable {tasks : Finset TaskPtr} {maxCount initialCount : ℕ} {s : Shared} {order : List TaskPtr}

theorem Queued.nodup (h : Queued tasks maxCount initialCount s order) : order.Nodup :=
  h.sorted.imp fun hlt he => absurd hlt (by rw [he]; exact lt_irrefl _)

theorem Queued.size (h : Queued tasks maxCount initialCount s order) :
    s.semaphore.waitingQueue.size = order.length := by
  rw [← Fifo.length_toList, h.queue, List.length_map]

theorem Queued.room (h : Queued tasks maxCount initialCount s order)
    (hcard : tasks.card ≤ maxTasks) {t : TaskPtr} (ht : t ∈ tasks) (hnot : t ∉ order) :
    s.semaphore.waitingQueue.size < maxTasks := by
  have hsub : (t :: order).toFinset ⊆ tasks := by
    intro u hu
    rcases List.mem_cons.mp (List.mem_toFinset.mp hu) with rfl | hu
    · exact ht
    · exact h.members u hu
  have hle := Finset.card_le_card hsub
  rw [List.toFinset_card_of_nodup (List.nodup_cons.mpr ⟨hnot, h.nodup⟩), List.length_cons] at hle
  rw [h.size]
  omega

theorem Queued.kernel (h : Queued tasks maxCount initialCount s order) {k : Kernel}
    (hk : ∀ t, s.history.inWait t = true →
      (k.getState t = .eBlocked ↔ s.kernel.getState t = .eBlocked)) :
    Queued tasks maxCount initialCount { s with kernel := k } order :=
  { h with
    blocked := fun t => by
      rw [h.blocked t]
      exact and_congr_right fun ht => (hk t ht).symm }

theorem Queued.schedule (h : Queued tasks maxCount initialCount s order) {k : Kernel}
    (hk : Kernel.SameSchedule s.kernel k) :
    Queued tasks maxCount initialCount { s with kernel := k } order :=
  h.kernel fun t _ => by rw [hk.getState]

theorem Queued.take (h : Queued tasks maxCount initialCount s order) {k : Kernel}
    (hk : Kernel.SameSchedule s.kernel k) (hc : 0 < s.semaphore.count) :
    Queued tasks maxCount initialCount ⟨k, { s.semaphore with count := s.semaphore.count - 1 },
      { s.history with immediate := s.history.immediate + 1 }⟩ order :=
  { h.schedule hk with
    count_le := by
      have := h.count_le
      simp only
      omega
    count_zero := fun ho => absurd (h.count_zero ho) (by omega)
    balance := by
      have := h.balance
      simp only
      omega }

theorem Queued.block (h : Queued tasks maxCount initialCount s order)
    (hcard : tasks.card ≤ maxTasks) {t : TaskPtr} (ht : t ∈ tasks)
    (hout : s.history.inWait t = false) (hc : s.semaphore.count = 0) {k : Kernel}
    (hk : ∀ u, k.getState u = if u = t then .eBlocked else s.kernel.getState u) :
    Queued tasks maxCount initialCount
      ⟨k, { s.semaphore with waitingQueue := s.semaphore.waitingQueue.enqueue (some t) },
        s.history.block t⟩ (order ++ [t]) := by
  have hnot : t ∉ order := fun hm => by simp [((h.blocked t).mp hm).1] at hout
  have hstamp : ∀ u ∈ order, (s.history.block t).blockedAt u = s.history.blockedAt u := by
    intro u hu
    have hne : u ≠ t := fun he => hnot (he ▸ hu)
    exact Function.update_of_ne hne _ _
  have hself : (s.history.block t).blockedAt t = s.history.clock := Function.update_self _ _ _
  have hroom := h.room hcard ht hnot
  constructor
  · exact h.wellFormed.enqueue _
  · rw [Fifo.toList_enqueue h.wellFormed _ hroom, h.queue, List.map_append, List.map_singleton]
  · rw [List.pairwise_append]
    refine ⟨?_, List.pairwise_singleton _ _, ?_⟩
    · refine h.sorted.imp_of_mem fun hu hv hlt => ?_
      rwa [hstamp _ hu, hstamp _ hv]
    · intro u hu v hv
      rw [List.mem_singleton.mp hv, hstamp u hu, hself]
      exact h.recent u hu
  · intro u hu
    rcases List.mem_append.mp hu with hu | hu
    · rw [hstamp u hu]
      exact (h.recent u hu).trans (Nat.lt_succ_self _)
    · rw [List.mem_singleton.mp hu, hself]
      exact Nat.lt_succ_self _
  · intro u hu
    rcases List.mem_append.mp hu with hu | hu
    · exact h.members u hu
    · rwa [List.mem_singleton.mp hu]
  · intro u
    rw [List.mem_append, List.mem_singleton, hk u, h.blocked u]
    by_cases hu : u = t
    · simp [hu, History.block]
    · simp [hu, History.block]
  · exact h.maxCount_eq
  · exact h.count_le
  · exact fun _ => hc
  · exact h.balance

theorem signalRegion_cons (h : Queued tasks maxCount initialCount s order) {w : TaskPtr}
    {rest : List TaskPtr} (ho : order = w :: rest) :
    ∃ q : Fifo (Option TaskPtr) maxTasks, q.WellFormed ∧ q.toList = rest.map some ∧
      signalRegion s.kernel s.semaphore =
        ((s.kernel.enterCritical.setTaskReady (some w)).exitCritical,
          { s.semaphore with waitingQueue := q }) := by
  have hq := h.queue
  rw [ho, List.map_cons] at hq
  obtain ⟨hw, hr⟩ := Fifo.toList_dequeue_cons h.wellFormed hq
  have hs : 0 < s.semaphore.waitingQueue.size := by simp [h.size, ho]
  refine ⟨_, h.wellFormed.dequeue, hr, ?_⟩
  rw [signalRegion_of_queued hs, hw]

theorem signalRegion_nil (h : Queued tasks maxCount initialCount s order) (ho : order = []) :
    signalRegion s.kernel s.semaphore = (s.kernel.enterCritical.exitCritical,
      if s.semaphore.count < s.semaphore.maxCount then
        { s.semaphore with count := s.semaphore.count + 1 } else s.semaphore) :=
  signalRegion_of_empty (by rw [h.size, ho, List.length_nil]) _

theorem Queued.signal (h : Queued tasks maxCount initialCount s order) :
    Queued tasks maxCount initialCount ⟨(signalRegion s.kernel s.semaphore).1,
      (signalRegion s.kernel s.semaphore).2, s.history.signal s.semaphore⟩ order.tail := by
  have hbal := h.balance
  have hport := (Kernel.sameSchedule_enterCritical s.kernel).trans
    (Kernel.sameSchedule_exitCritical _)
  cases ho : order with
  | nil =>
    have hs : s.semaphore.waitingQueue.size = 0 := by rw [h.size, ho, List.length_nil]
    have hle := h.count_le
    have hmax := h.maxCount_eq
    rw [signalRegion_nil h ho]
    have h' := h.schedule hport
    subst ho
    by_cases hc : s.semaphore.count < s.semaphore.maxCount
    · rw [if_pos hc]
      refine { h' with count_le := ?_, count_zero := fun ho => absurd rfl ho, balance := ?_ }
      · simp only
        omega
      · simp only [History.signal, hs, if_true, true_and, if_neg (not_le.mpr hc)]
        omega
    · rw [if_neg hc]
      refine { h' with balance := ?_ }
      simp only [History.signal, hs, if_true, true_and, if_pos (not_lt.mp hc)]
      omega
  | cons w rest =>
    have hs : s.semaphore.waitingQueue.size ≠ 0 := by simp [h.size, ho]
    obtain ⟨q, hwf, hq, hr⟩ := signalRegion_cons h ho
    have hsorted := h.sorted
    have hnodup := h.nodup
    rw [ho] at hsorted hnodup
    have hmem : ∀ t ∈ rest, t ∈ order := fun t ht => ho ▸ List.mem_cons_of_mem w ht
    rw [hr, List.tail_cons]
    constructor
    · exact hwf
    · exact hq
    · exact hsorted.of_cons
    · exact fun t ht => h.recent t (hmem t ht)
    · exact fun t ht => h.members t (hmem t ht)
    · intro t
      have hb := h.blocked t
      rw [ho, List.mem_cons] at hb
      rw [(Kernel.sameSchedule_exitCritical _).getState, Kernel.getState_setTaskReady,
        (Kernel.sameSchedule_enterCritical _).getState]
      by_cases ht : t = w
      · subst t
        simpa using (List.nodup_cons.mp hnodup).1
      · rw [or_iff_right ht] at hb
        rw [if_neg ht]
        exact hb
    · exact h.maxCount_eq
    · exact h.count_le
    · exact fun _ => h.count_zero (by simp [ho])
    · simp only [History.signal, hs, false_and, if_false]
      omega

/-- A flush wakes all waiters, the oldest first. -/
theorem flushRegion_queued (h : Queued tasks maxCount initialCount s order) :
    ∃ q : Fifo (Option TaskPtr) maxTasks, q.WellFormed ∧ q.toList = [] ∧
      (flushRegion s.kernel s.semaphore).1 =
        ((order.map some).foldl (fun k t => k.setTaskReady t)
          s.kernel.enterCritical).exitCritical ∧
      (flushRegion s.kernel s.semaphore).2.1 = { s.semaphore with waitingQueue := q } := by
  obtain ⟨q, hwf, hnil, hr⟩ := flushRegion_eq s.kernel h.wellFormed
  rw [hr, h.queue]
  exact ⟨q, hwf, hnil, rfl, rfl⟩

theorem Queued.flush (h : Queued tasks maxCount initialCount s order) :
    Queued tasks maxCount initialCount ⟨(flushRegion s.kernel s.semaphore).1,
      (flushRegion s.kernel s.semaphore).2.1, s.history⟩ [] := by
  obtain ⟨q, hwf, hnil, hk, hs⟩ := flushRegion_queued h
  rw [hk, hs]
  refine ⟨hwf, hnil, List.Pairwise.nil, by simp, by simp, ?_, h.maxCount_eq, h.count_le,
    fun ho => absurd rfl ho, h.balance⟩
  intro t
  simp only [List.not_mem_nil, false_iff, not_and]
  intro hin hb
  rw [(Kernel.sameSchedule_exitCritical _).getState, Kernel.getState_foldl_setTaskReady,
    (Kernel.sameSchedule_enterCritical _).getState] at hb
  split_ifs at hb with hm
  exact hm ((h.blocked t).mpr ⟨hin, hb⟩)

/-! ## Steps of the tasks -/

/-- A task outside of the points behind the region is not a blocked waiter. -/
theorem Local.inWait_eq_false {t : TaskPtr} {c : Option Call} (hl : Local tasks t c s)
    (hy : c ≠ some .waitYield) (hr : c ≠ some .waitReturn) : s.history.inWait t = false := by
  rw [← Bool.not_eq_true, hl.1]
  exact fun h => h.elim hy hr

theorem Queued.setState (h : Queued tasks maxCount initialCount s order) {t : TaskPtr}
    (ht : s.history.inWait t = false) (state : TaskStateType) :
    Queued tasks maxCount initialCount
      { s with kernel := s.kernel.setState t state } order := by
  refine h.kernel fun u hu => ?_
  rw [Kernel.getState_setState, if_neg]
  rintro rfl
  simp [ht] at hu

theorem Queued.leave (h : Queued tasks maxCount initialCount s order) {t : TaskPtr}
    (ht : s.kernel.getState t ≠ .eBlocked) :
    Queued tasks maxCount initialCount
      { s with history.inWait := Function.update s.history.inWait t false } order :=
  { h with
    blocked := fun u => by
      rw [h.blocked u]
      by_cases hu : u = t
      · simp [hu, ht]
      · simp [hu] }

theorem step_queued (hcard : tasks.card ≤ maxTasks) {t : TaskPtr} {c : Call}
    (h : Queued tasks maxCount initialCount s order) (hl : Local tasks t (some c) s)
    (hen : (protocol tasks).enabled t c s) :
    ∃ order', Queued tasks maxCount initialCount ((protocol tasks).step t c s).1 order' := by
  obtain ⟨hcur, hret⟩ := hen
  have hport := (Kernel.sameSchedule_enterCritical s.kernel).trans
    (Kernel.sameSchedule_exitCritical _)
  cases c with
  | wait n =>
    refine ⟨order, ?_⟩
    simp only [protocol, step]
    split_ifs <;> exact h.schedule (Kernel.sameSchedule_assert _ _)
  | waitRegion n e =>
    simp only [protocol, step]
    obtain ⟨hc, hr⟩ | ⟨hc, hr⟩ | ⟨hc, hr⟩ := waitRegion_cases s.kernel s.semaphore n e
    · rw [hr]
      exact ⟨order, h.take hport hc⟩
    · rw [hr]
      exact ⟨order, h.schedule hport⟩
    · rw [hr, hcur]
      refine ⟨_, h.block hcard (hl.2 (by simp)) (hl.inWait_eq_false (by simp) (by simp)) hc ?_⟩
      intro u
      rw [(Kernel.sameSchedule_exitCritical _).getState, Kernel.getState_resetTaskReady,
        (Kernel.sameSchedule_enterCritical _).getState]
  | waitYield => exact ⟨order, h.schedule (Kernel.sameSchedule_yield _)⟩
  | waitReturn => exact ⟨order, h.leave (hret rfl)⟩
  | signal => exact ⟨_, h.signal⟩
  | signalReady =>
    simp only [protocol, step, hcur]
    exact ⟨order, h.setState (hl.inWait_eq_false (by simp) (by simp)) .eReady⟩
  | signalWord p =>
    refine ⟨order, h.kernel fun u _ => ?_⟩
    simp only [step, Kernel.getState_setReadyWord]
  | signalBitmap p => exact ⟨order, h.schedule (Kernel.sameSchedule_markPriority _ p)⟩
  | signalYield => exact ⟨order, h.schedule (Kernel.sameSchedule_yield _)⟩
  | signalReturn => exact ⟨order, h⟩
  | flush => exact ⟨_, h.flush⟩

theorem inWait_after (h : History) (t u : TaskPtr) (sem : Semaphore) (c : Call)
    (o : Outcome Call SemResult) (hu : u ≠ t) : (h.after t sem c o).inWait u = h.inWait u := by
  cases c with
  | waitRegion n e =>
    simp only [History.after]
    split_ifs
    · rfl
    · exact Function.update_of_ne hu _ _
    · rfl
  | waitReturn => exact Function.update_of_ne hu _ _
  | _ => rfl

theorem step_local {t : TaskPtr} {c : Call} (hl : Local tasks t (some c) s) :
    Local tasks t ((protocol tasks).step t c s).2.call? ((protocol tasks).step t c s).1 := by
  refine ⟨?_, fun _ => hl.2 (by simp)⟩
  have hin := hl.1
  cases c with
  | wait n =>
    simp only [protocol, step]
    split_ifs <;> simpa [History.after] using hin
  | waitRegion n e =>
    simp only [protocol, step]
    obtain ⟨-, hr⟩ | ⟨-, hr⟩ | ⟨-, hr⟩ := waitRegion_cases s.kernel s.semaphore n e <;> rw [hr]
    · simpa [History.after] using hin
    · simpa [History.after] using hin
    · simp [History.after, History.block]
  | waitYield => simpa [protocol, step, History.after] using hin
  | waitReturn => simp [protocol, step, History.after]
  | signal =>
    simp only [protocol, step]
    split_ifs <;> simpa [History.after, History.signal] using hin
  | signalReady => simpa [protocol, step, History.after] using hin
  | signalWord p =>
    simp only [protocol, step]
    split_ifs <;> simpa [History.after] using hin
  | signalBitmap p => simpa [protocol, step, History.after] using hin
  | signalYield => simpa [protocol, step, History.after] using hin
  | signalReturn => simpa [protocol, step, History.after] using hin
  | flush =>
    simp only [protocol, step]
    split_ifs <;> simpa [History.after] using hin

theorem queued_reached (hcard : tasks.card ≤ maxTasks) (k : Kernel) {es : List Event}
    (h : (protocol tasks).machine.Valid (start maxCount initialCount k) es) :
    Protocol.Holds (fun s => ∃ order, Queued tasks maxCount initialCount s order) (Local tasks)
      ((protocol tasks).machine.exec (start maxCount initialCount k) es) := by
  rw [← Machine.valid_restrict_true] at h
  refine Protocol.holds_of_run ?_ ?_ ?_ ?_ ?_ h
  · rintro t c s - hl ⟨-, ht, hc⟩
    refine ⟨?_, fun _ => ht⟩
    rw [hl.1]
    cases c <;> simp_all [Call.isEntry]
  · intro t c s hc _ hs hen
    obtain ⟨order, hI⟩ := hs.1
    have hl := hs.2 t
    rw [hc] at hl
    exact ⟨step_queued hcard hI hl hen, step_local hl⟩
  · intro t c s u _ _ hs _ hu
    refine ⟨?_, (hs.2 u).2⟩
    rw [← (hs.2 u).1]
    exact iff_of_eq (congrArg (· = true) (inWait_after _ t u _ c _ hu))
  · intro e s _ hs he
    obtain ⟨order, hI⟩ := hs.1
    cases e with
    | schedule k' =>
      refine ⟨⟨order, hI.kernel fun t ht => he t ?_ ht⟩, hs.2⟩
      exact (hs.2 t).2 fun hn => by simpa [hn, ht] using (hs.2 t).1
    | signal => exact ⟨⟨_, hI.signal⟩, hs.2⟩
    | flush => exact ⟨⟨_, hI.flush⟩, hs.2⟩
  · refine ⟨⟨[], ?_⟩, fun t => ⟨?_, fun h => absurd rfl h⟩⟩
    · constructor
      · exact .new (by decide)
      · rfl
      · exact List.Pairwise.nil
      · simp
      · simp
      · simp [start, Protocol.start]
      · rfl
      · exact le_max_right _ _
      · exact fun h => absurd rfl h
      · simp [start, Protocol.start, new]
    · simp [start, Protocol.start]

end

/-! ## Conservation -/

/-- The task has blocked in `wait` and has not been woken since. -/
def Blocked (s : State) (t : TaskPtr) : Prop :=
  (s.call t = some .waitYield ∨ s.call t = some .waitReturn) ∧
    s.shared.kernel.getState t = .eBlocked

/-- Conservation of tokens in a state whose blocked tasks are those of `order`, oldest
first. -/
structure Conserved (maxCount initialCount : ℕ) (s : State) (order : List TaskPtr) : Prop where
  count_le : s.shared.semaphore.count ≤ max maxCount initialCount
  count_zero : s.shared.semaphore.waitingQueue.toList ≠ [] → s.shared.semaphore.count = 0
  queue : s.shared.semaphore.waitingQueue.toList = order.map some
  blocked_iff : ∀ t, t ∈ order ↔ Blocked s t
  once : order.Nodup
  sorted : order.Pairwise fun t u =>
    s.shared.history.blockedAt t < s.shared.history.blockedAt u
  room : ∀ t n e, s.call t = some (.waitRegion n e) →
    s.shared.semaphore.waitingQueue.size < maxTasks
  signal_wakes : ∀ w rest, order = w :: rest → ∃ q : Fifo (Option TaskPtr) maxTasks,
    q.toList = rest.map some ∧ signalRegion s.shared.kernel s.shared.semaphore =
      ((s.shared.kernel.enterCritical.setTaskReady (some w)).exitCritical,
        { s.shared.semaphore with waitingQueue := q })
  signal_counts : order = [] → s.shared.semaphore.count < maxCount →
    signalRegion s.shared.kernel s.shared.semaphore =
      (s.shared.kernel.enterCritical.exitCritical,
        { s.shared.semaphore with count := s.shared.semaphore.count + 1 })
  signal_absorbed : order = [] → maxCount ≤ s.shared.semaphore.count →
    signalRegion s.shared.kernel s.shared.semaphore =
      (s.shared.kernel.enterCritical.exitCritical, s.shared.semaphore)
  flush_wakes : ∃ q : Fifo (Option TaskPtr) maxTasks, q.toList = [] ∧
    (flushRegion s.shared.kernel s.shared.semaphore).1 =
      ((order.map some).foldl (fun k t => k.setTaskReady t)
        s.shared.kernel.enterCritical).exitCritical ∧
    (flushRegion s.shared.kernel s.shared.semaphore).2.1 =
      { s.shared.semaphore with waitingQueue := q }
  balance : s.shared.history.immediate + s.shared.history.readied + s.shared.semaphore.count +
    s.shared.history.absorbed = initialCount + s.shared.history.signals

/-- Tokens are conserved in every state of every run of at most `MAX_TASKS` tasks. -/
theorem tokens_conserved (tasks : Finset TaskPtr) (hcard : tasks.card ≤ maxTasks)
    (maxCount initialCount : ℕ) (k : Kernel) (es : List Event)
    (h : (protocol tasks).machine.Valid (start maxCount initialCount k) es) :
    ∃ order, Conserved maxCount initialCount
      ((protocol tasks).machine.exec (start maxCount initialCount k) es) order := by
  obtain ⟨⟨order, hq⟩, hl⟩ := queued_reached hcard k h
  set s := (protocol tasks).machine.exec (start maxCount initialCount k) es
  refine ⟨order, hq.count_le, ?_, hq.queue, ?_, hq.nodup, hq.sorted, ?_, ?_, ?_, ?_, ?_, ?_⟩
  · intro hne
    exact hq.count_zero fun ho => hne (by rw [hq.queue, ho, List.map_nil])
  · intro t
    rw [hq.blocked t, (hl t).1, Blocked]
  · intro t n e hc
    have hlt := hl t
    rw [hc] at hlt
    refine hq.room hcard (hlt.2 (by simp)) fun hm => ?_
    rw [hq.blocked t, hlt.inWait_eq_false (by simp) (by simp)] at hm
    exact Bool.false_ne_true hm.1
  · intro w rest ho
    obtain ⟨q, -, hnil, hr⟩ := signalRegion_cons hq ho
    exact ⟨q, hnil, hr⟩
  · intro ho hc
    rw [signalRegion_nil hq ho, hq.maxCount_eq, if_pos hc]
  · intro ho hc
    rw [signalRegion_nil hq ho, hq.maxCount_eq, if_neg (not_lt.mpr hc)]
  · obtain ⟨q, -, hnil, hk, hs⟩ := flushRegion_queued hq
    exact ⟨q, hnil, hk, hs⟩
  · have hbal := hq.balance
    omega

/-- Tasks 1 and 2 block; an interrupt signals once, then task 3 flushes. -/
theorem tokens_conserved_handoff :
    let tasks : Finset TaskPtr := {1, 2, 3}
    let k (t : TaskPtr) (d : TaskPtr → TaskData) : Kernel :=
      { currentTask := t, idleTask := 0, taskData := d }
    let ready : TaskData := {}
    let blocked : TaskData := { state := .eBlocked }
    let es : List Event :=
      [.env (.schedule (k 1 fun _ => ready)), .invoke 1 (.wait 9), .exec 1, .exec 1, .exec 1,
        .env (.schedule (k 2 fun t => if t = 1 then blocked else ready)),
        .invoke 2 (.wait 9), .exec 2, .exec 2, .env .signal,
        .env (.schedule (k 3 fun t => if t = 2 then blocked else ready)), .invoke 3 .flush,
        .exec 3, .exec 3, .env .signal, .env .signal]
    ∃ order, Conserved 1 0
      ((protocol tasks).machine.exec (start 1 0 (k 0 fun _ => ready)) es) order :=
  tokens_conserved _ (by decide) 1 0 _ _ (by decide +kernel)

end CppRtos.Semaphore
