import CppRtos.Mutex
import Mathlib.Data.Finset.Card

/-! Tasks that wait for one mutex. `release` wakes one waiter and leaves the mutex free; the
woken task may come too late. Whether a wake-up is on its way is recorded beside the state;
no step reads it. -/
namespace CppRtos.Mutex.Waiting

/-- `pending t`: `release` has dequeued task `t` and made it ready, and the task has not
executed its test of the count again. -/
structure Shared where
  kernel : Kernel
  mutex : Mutex
  pending : TaskPtr → Bool := fun _ => false

/-- The task that a step dequeues and makes ready. -/
def dequeues (m : Mutex) : Call → Option TaskPtr
  | .releaseRegion _ => if !m.blockedTasks.isEmpty then m.blockedTasks.dequeue.1 else none
  | _ => none

/-- The record after a step of task `t` on the mutex `m`. -/
def pendingAfter (m : Mutex) (t : TaskPtr) (c : Call) (before : TaskPtr → Bool) :
    TaskPtr → Bool :=
  match c with
  | .acquireLoop _ _ _ => Function.update before t false
  | _ => match dequeues m c with
    | some u => Function.update before u true
    | none => before

def Call.isEntry : Call → Bool
  | .acquire _ | .release => true
  | _ => false

/-- A task that has blocked itself in the critical region of `acquire` still calls `yield`. -/
def Call.isYield : Call → Bool
  | .acquireYield _ _ _ => true
  | _ => false

/-- Tasks execute when they are running; what happens between their steps leaves the queued
tasks blocked. -/
def protocol (tasks : Finset TaskPtr) : Protocol TaskPtr Shared Call MutexResult Kernel where
  entry t c s := s.kernel.currentTask = t ∧ t ∈ tasks ∧ Call.isEntry c = true
  enabled t c s :=
    s.kernel.currentTask = t ∧ (s.kernel.getState t = .eRunning ∨ Call.isYield c = true)
  step t c s :=
    let r := step s.kernel s.mutex c
    (⟨r.1, r.2.1, pendingAfter s.mutex t c s.pending⟩, r.2.2)
  interferes k' s := ∀ t ∈ s.mutex.blockedTasks.pointers,
    s.kernel.getState t = .eBlocked → k'.getState t = .eBlocked
  interfere k' s := { s with kernel := k' }

abbrev State := Config TaskPtr Shared Call
abbrev Event := Protocol.Action TaskPtr Call Kernel

def start (k : Kernel) : State := Protocol.start { kernel := k, mutex := new }

section
variable (tasks : Finset TaskPtr)

instance : ∀ t c s, Decidable ((protocol tasks).entry t c s) := fun t c s =>
  inferInstanceAs (Decidable (s.kernel.currentTask = t ∧ t ∈ tasks ∧ Call.isEntry c = true))

instance : ∀ t c s, Decidable ((protocol tasks).enabled t c s) := fun t c s =>
  inferInstanceAs (Decidable (s.kernel.currentTask = t ∧
    (s.kernel.getState t = .eRunning ∨ Call.isYield c = true)))

instance : ∀ k' s, Decidable ((protocol tasks).interferes k' s) := fun k' s =>
  inferInstanceAs (Decidable (∀ t ∈ s.mutex.blockedTasks.pointers,
    s.kernel.getState t = .eBlocked → k'.getState t = .eBlocked))

end

/-! ## The invariant -/

/-- The mutex is free or owned; the queued tasks are blocked, each queued once; and a free
mutex for which tasks wait is about to be tested. -/
structure Awaited (k : Kernel) (m : Mutex) (pending : TaskPtr → Bool) : Prop where
  owned : m.owner = none ∧ m.count = 0 ∨ ∃ o, m.owner = some o ∧ m.count = 1
  plain : m.blockedTasks.Plain
  nodup : m.blockedTasks.pointers.Nodup
  blocked : ∀ t ∈ m.blockedTasks.pointers, k.getState t = .eBlocked
  wakeup : m.owner = none → m.blockedTasks.pointers = [] ∨ ∃ u, pending u = true

/-- The points of a task that has queued itself: before its `yield` or before its next test. -/
def Waits (t : TaskPtr) (c : Option Call) : Prop :=
  ∃ f e, c = some (.acquireYield f e t) ∨ c = some (.acquireLoop f e t)

/-- The locals of a call name the calling task, which owns the mutex in the critical region of
`release`. -/
def Names (t : TaskPtr) : Option Call → Mutex → Prop
  | some (.acquireStart _ p), _ | some (.acquireLoop _ _ p), _
  | some (.acquireYield _ _ p), _ => p = t
  | some (.releaseRegion p), m => p = t ∧ m.owner = some t
  | _, _ => True

/-- A task is queued or about to repeat its test only inside `acquire`. -/
structure Local (tasks : Finset TaskPtr) (t : TaskPtr) (c : Option Call) (s : Shared) : Prop where
  member : c ≠ none → t ∈ tasks
  names : Names t c s.mutex
  queued : t ∈ s.mutex.blockedTasks.pointers → Waits t c
  pending : s.pending t = true → Waits t c

namespace Awaited
variable {k : Kernel} {m : Mutex} {pending : TaskPtr → Bool} (h : Awaited k m pending)
include h

theorem owner_of_count (hc : 0 < m.count) : m.owner ≠ none := by
  obtain ⟨-, h0⟩ | ⟨o, ho, -⟩ := h.owned
  · omega
  · rw [ho]
    simp

theorem free_of_count (hc : m.count ≤ 0) : m.owner = none ∧ m.count = 0 := by
  obtain h0 | ⟨o, -, h1⟩ := h.owned
  · exact h0
  · omega

/-- Nothing happens to the mutex while it is owned, or to the record. -/
theorem quiet {k' : Kernel} {pending' : TaskPtr → Bool}
    (hk : ∀ t ∈ m.blockedTasks.pointers, k'.getState t = k.getState t)
    (hp : m.owner = none → pending' = pending) : Awaited k' m pending' := by
  refine ⟨h.owned, h.plain, h.nodup, fun t ht => (hk t ht).trans (h.blocked t ht), fun hn => ?_⟩
  rw [hp hn]
  exact h.wakeup hn

theorem take {k' : Kernel} {pending' : TaskPtr → Bool} (p : TaskPtr) (hc : m.count ≤ 0)
    (hk : ∀ t, k'.getState t = k.getState t) :
    Awaited k' { m with count := m.count + 1, owner := some p } pending' := by
  have h0 := (h.free_of_count hc).2
  constructor
  · refine .inr ⟨p, rfl, ?_⟩
    simp only
    omega
  · exact h.plain
  · exact h.nodup
  · exact fun t ht => (hk t).trans (h.blocked t ht)
  · intro hn
    cases hn

theorem enqueue {k' : Kernel} {pending' : TaskPtr → Bool} {p : TaskPtr} (hc : 0 < m.count)
    (hout : p ∉ m.blockedTasks.pointers) (hs : m.blockedTasks.size < maxTasks)
    (hk : ∀ t, k'.getState t = if t = p then .eBlocked else k.getState t) :
    Awaited k' { m with blockedTasks := m.blockedTasks.enqueue (some p) } pending' := by
  have hp := Fifo.pointers_enqueue h.plain.toWellFormed p hs
  constructor
  · exact h.owned
  · exact h.plain.enqueue p hs
  · rw [hp, ← List.concat_eq_append]
    exact h.nodup.concat hout
  · intro t ht
    rw [hk t]
    split_ifs with htp
    · rfl
    · rw [hp, List.mem_append, List.mem_singleton] at ht
      exact h.blocked t (ht.resolve_right htp)
  · intro hn
    exact absurd hn (h.owner_of_count hc)

/-- The owner frees the mutex and wakes the first task of the queue. -/
theorem release {k' : Kernel} {pending' : TaskPtr → Bool} {p u : TaskPtr}
    (ho : m.owner = some p) (hs : 0 < m.blockedTasks.size)
    (hu : m.blockedTasks.dequeue.1 = some u)
    (hk : ∀ t, k'.getState t = if t = u then .eReady else k.getState t)
    (hp : pending' u = true) :
    Awaited k' { m with
      count := m.count - 1
      owner := none
      blockedTasks := m.blockedTasks.dequeue.2 } pending' := by
  have h1 : m.count = 1 := by
    obtain ⟨hn, -⟩ | ⟨o, -, h1⟩ := h.owned
    · rw [ho] at hn
      cases hn
    · exact h1
  obtain ⟨v, hv, hpointers, hrest⟩ := h.plain.dequeue hs
  obtain rfl := Option.some.inj (hv.symm.trans hu)
  have hnodup := h.nodup
  rw [hpointers, List.nodup_cons] at hnodup
  constructor
  · refine .inl ⟨rfl, ?_⟩
    simp only
    omega
  · exact hrest
  · exact hnodup.2
  · intro t ht
    rw [hk t, if_neg fun (htv : t = v) => hnodup.1 (htv ▸ ht)]
    refine h.blocked t ?_
    rw [hpointers]
    exact List.mem_cons_of_mem v ht
  · exact fun _ => .inr ⟨v, hp⟩

theorem releaseEmpty {k' : Kernel} {pending' : TaskPtr → Bool} {p : TaskPtr}
    (ho : m.owner = some p) (hs : m.blockedTasks.size = 0) :
    Awaited k' { m with count := m.count - 1, owner := none } pending' := by
  have h1 : m.count = 1 := by
    obtain ⟨hn, -⟩ | ⟨o, -, h1⟩ := h.owned
    · rw [ho] at hn
      cases hn
    · exact h1
  have hnil : m.blockedTasks.pointers = [] := by
    rw [← List.length_eq_zero_iff, h.plain.length_pointers, hs]
  constructor
  · refine .inl ⟨rfl, ?_⟩
    simp only
    omega
  · exact h.plain
  · exact h.nodup
  · intro t ht
    dsimp only at ht
    rw [hnil] at ht
    cases ht
  · exact fun _ => .inl hnil

theorem size_lt {tasks : Finset TaskPtr} (hc : tasks.card ≤ maxTasks)
    (hall : ∀ u ∈ m.blockedTasks.pointers, u ∈ tasks) {t : TaskPtr} (ht : t ∈ tasks)
    (hout : t ∉ m.blockedTasks.pointers) : m.blockedTasks.size < maxTasks :=
  (h.plain.size_lt_card h.nodup hall ht hout).trans_le hc

end Awaited

/-! ## Steps -/

variable {tasks : Finset TaskPtr}

theorem getState_blockSelf (k : Kernel) (p t : TaskPtr) (hrun : k.getState p = .eRunning) :
    (blockSelf k p).getState t = if t = p then .eBlocked else k.getState t := by
  rw [blockSelf, if_pos hrun, Kernel.getState_resetTaskReady]

theorem getState_release (k : Kernel) (p u : TaskPtr) (b : Bool) (t : TaskPtr) :
    (Kernel.exitCritical (if b = true then
        (k.enterCritical.setTaskReady (some u)).modifyTask p (·.resetPriority)
      else k.enterCritical.setTaskReady (some u))).getState t =
      if t = u then .eReady else k.getState t := by
  have hwake : (k.enterCritical.setTaskReady (some u)).getState t =
      if t = u then .eReady else k.getState t := by
    rw [Kernel.getState_setTaskReady, (Kernel.sameSchedule_enterCritical k).getState]
  rw [(Kernel.sameSchedule_exitCritical _).getState]
  split_ifs with hb ht
  · exact (Kernel.modifyTask_congr _ p (g := TaskData.state) rfl t).trans (hwake.trans (if_pos ht))
  · exact (Kernel.modifyTask_congr _ p (g := TaskData.state) rfl t).trans (hwake.trans (if_neg ht))
  · exact hwake.trans (if_pos ‹_›)
  · exact hwake.trans (if_neg ‹_›)

theorem step_shared (t : TaskPtr) (c : Call) (s : Shared) :
    ((protocol tasks).step t c s).1 = ⟨(step s.kernel s.mutex c).1, (step s.kernel s.mutex c).2.1,
      pendingAfter s.mutex t c s.pending⟩ := rfl

theorem dequeues_of_pos {m : Mutex} (hs : 0 < m.blockedTasks.size) (p : TaskPtr) :
    dequeues m (.releaseRegion p) = m.blockedTasks.dequeue.1 := by
  have he : (!m.blockedTasks.isEmpty) = true := by
    simp only [Fifo.isEmpty, Bool.not_eq_true', beq_eq_false_iff_ne]
    omega
  exact if_pos he

theorem dequeues_of_empty {m : Mutex} (hs : m.blockedTasks.size = 0) (p : TaskPtr) :
    dequeues m (.releaseRegion p) = none := by
  have he : ¬ (!m.blockedTasks.isEmpty) = true := by simp [Fifo.isEmpty, hs]
  exact if_neg he

theorem pendingAfter_quiet {m : Mutex} {t : TaskPtr} {c : Call} (before : TaskPtr → Bool)
    (ha : ∀ f e p, c ≠ .acquireLoop f e p) (hr : ∀ p, c ≠ .releaseRegion p) :
    pendingAfter m t c before = before := by
  cases c with
  | acquireLoop f e p => exact absurd rfl (ha f e p)
  | releaseRegion p => exact absurd rfl (hr p)
  | _ => rfl

theorem Awaited.not_queued {k : Kernel} {m : Mutex} {pending : TaskPtr → Bool}
    (h : Awaited k m pending) {t : TaskPtr} (hrun : k.getState t = .eRunning) :
    t ∉ m.blockedTasks.pointers := by
  intro ht
  rw [h.blocked t ht] at hrun
  cases hrun

theorem step_awaited (hc : tasks.card ≤ maxTasks) {t : TaskPtr} {c : Call} {s : Shared}
    (h : Awaited s.kernel s.mutex s.pending) (hl : Local tasks t (some c) s)
    (hall : ∀ u ∈ s.mutex.blockedTasks.pointers, u ∈ tasks)
    (hrun : s.kernel.getState t = .eRunning ∨ Call.isYield c = true) :
    Awaited ((protocol tasks).step t c s).1.kernel ((protocol tasks).step t c s).1.mutex
      ((protocol tasks).step t c s).1.pending := by
  have hregion := Kernel.sameSchedule_region s.kernel
  have henter := Kernel.sameSchedule_enterCritical s.kernel
  rw [step_shared]
  cases c with
  | acquireLoop f e p =>
    obtain rfl : p = t := hl.names
    have hrun' : s.kernel.getState p = .eRunning := hrun.resolve_right Bool.false_ne_true
    have hin : ∀ u, (inheritPriority s.kernel.enterCritical s.mutex p).getState u =
        s.kernel.getState u :=
      fun u => (getState_inheritPriority _ _ _ u).trans (henter.getState u)
    simp only [step]
    obtain ⟨hcount, hr⟩ | ⟨hcount, -, hr⟩ | ⟨hcount, -, hfull, hr⟩ | ⟨hcount, -, -, hr⟩ :=
      acquireRegion_cases s.kernel s.mutex f e p <;> rw [hr]
    · refine h.take p hcount fun u => ?_
      exact (henter.trans (Kernel.sameSchedule_region s.kernel.enterCritical)).getState u
    · exact h.quiet (fun u _ => hregion.getState u)
        fun hn => absurd hn (h.owner_of_count hcount)
    · have hout := h.not_queued hrun'
      refine h.enqueue hcount hout (h.size_lt hc hall (hl.member (by simp)) hout) fun u => ?_
      dsimp only
      rw [(Kernel.sameSchedule_exitCritical _).getState,
        getState_blockSelf _ p u ((hin p).trans hrun'), hin u]
    · refine h.quiet (fun u _ => ?_) fun hn => absurd hn (h.owner_of_count hcount)
      exact ((Kernel.sameSchedule_exitCritical _).getState u).trans (hin u)
  | releaseRegion p =>
    obtain ⟨rfl, ho⟩ := hl.names
    simp only [step]
    obtain ⟨hs, hr⟩ | ⟨hs, hn, -⟩ | ⟨hs, u, hu, b, c, hwritten, hr⟩ :=
      releaseRegion_cases s.kernel s.mutex p
    · rw [hr]
      exact h.releaseEmpty ho hs
    · obtain ⟨v, hv, -⟩ := h.plain.dequeue hs
      rw [hn] at hv
      cases hv
    · rw [hr, hwritten h.plain, Kernel.assert_true]
      refine h.release ho hs hu (fun v => ?_) ?_
      · exact getState_release s.kernel p u b v
      · simp only [pendingAfter, dequeues_of_pos hs, hu]
        exact Function.update_self _ _ _
  | _ =>
    rw [step_mutex _ _ (by simp) (by simp), pendingAfter_quiet _ (by simp) (by simp)]
    exact h.quiet (fun u _ => (step_kernel _ _ (by simp) (by simp)).getState u) fun _ => rfl

/-- A step queues nobody but the task itself, in a round of its loop. -/
theorem mem_step {k : Kernel} {m : Mutex} (hm : m.blockedTasks.Plain) {c : Call} {u : TaskPtr}
    (hu : u ∈ (step k m c).2.1.blockedTasks.pointers) :
    u ∈ m.blockedTasks.pointers ∨
      ∃ f e, c = .acquireLoop f e u ∧ (step k m c).2.2 = .next (.acquireYield f e u) := by
  cases c with
  | acquireLoop f e p =>
    simp only [step] at hu ⊢
    obtain ⟨-, hr⟩ | ⟨-, -, hr⟩ | ⟨-, -, hfull, hr⟩ | ⟨-, -, -, hr⟩ :=
      acquireRegion_cases k m f e p <;> rw [hr] at hu ⊢
    · exact .inl hu
    · exact .inl hu
    · dsimp only at hu
      have hsize : m.blockedTasks.size < maxTasks := lt_of_le_of_ne hm.size_le hfull
      rw [Fifo.pointers_enqueue hm.toWellFormed p hsize, List.mem_append,
        List.mem_singleton] at hu
      rcases hu with hu | rfl
      · exact .inl hu
      · exact .inr ⟨f, e, rfl, rfl⟩
    · exact .inl hu
  | releaseRegion p =>
    simp only [step] at hu
    obtain ⟨-, hr⟩ | ⟨-, -, hr⟩ | ⟨-, v, -, b, c, -, hr⟩ := releaseRegion_cases k m p <;>
      rw [hr] at hu
    · exact .inl hu
    · exact .inl (Fifo.mem_pointers_dequeue hm.toWellFormed hu)
    · exact .inl (Fifo.mem_pointers_dequeue hm.toWellFormed hu)
  | _ =>
    rw [step_mutex _ _ (by simp) (by simp)] at hu
    exact .inl hu

/-- A wake-up becomes pending for a queued task only. -/
theorem pendingAfter_mem {m : Mutex} (hm : m.blockedTasks.Plain) {t u : TaskPtr} {c : Call}
    {before : TaskPtr → Bool} (hu : pendingAfter m t c before u = true) :
    before u = true ∨ u ∈ m.blockedTasks.pointers := by
  cases c with
  | acquireLoop f e p =>
    by_cases hut : u = t
    · subst u
      rw [pendingAfter, Function.update_self] at hu
      cases hu
    · rw [pendingAfter, Function.update_of_ne hut] at hu
      exact .inl hu
  | releaseRegion p =>
    simp only [pendingAfter] at hu
    by_cases hs : 0 < m.blockedTasks.size
    · obtain ⟨v, hv, hp, -⟩ := hm.dequeue hs
      rw [dequeues_of_pos hs, hv] at hu
      dsimp only at hu
      by_cases huv : u = v
      · rw [huv, hp]
        exact .inr List.mem_cons_self
      · rw [Function.update_of_ne huv] at hu
        exact .inl hu
    · rw [dequeues_of_empty (by omega)] at hu
      exact .inl hu
  | _ => exact .inl hu

theorem step_owner {k : Kernel} {m : Mutex} {pending : TaskPtr → Bool} (h : Awaited k m pending)
    {t u : TaskPtr} {c : Call} (hn : Names t (some c) m) (hu : u ≠ t)
    (ho : m.owner = some u) : (step k m c).2.1.owner = some u := by
  cases c with
  | acquireLoop f e p =>
    simp only [step]
    obtain ⟨hc, -⟩ | ⟨-, -, hr⟩ | ⟨-, -, -, hr⟩ | ⟨-, -, -, hr⟩ := acquireRegion_cases k m f e p
    · rw [(h.free_of_count hc).1] at ho
      cases ho
    all_goals
      rw [hr]
      exact ho
  | releaseRegion p =>
    obtain ⟨-, ht⟩ := hn
    exact absurd (Option.some.inj (ho.symm.trans ht)) hu
  | _ => rwa [step_mutex _ _ (by simp) (by simp)]

theorem step_names {k : Kernel} {m : Mutex} {t : TaskPtr} {c : Call} (hn : Names t (some c) m)
    (hcur : k.currentTask = t) : Names t (step k m c).2.2.call? (step k m c).2.1 := by
  cases c with
  | acquireLoop f e p =>
    have hp : p = t := hn
    simp only [step]
    obtain ⟨-, hr⟩ | ⟨-, -, hr⟩ | ⟨-, -, -, hr⟩ | ⟨-, -, -, hr⟩ := acquireRegion_cases k m f e p <;>
      rw [hr]
    · exact trivial
    · exact trivial
    · exact hp
    · exact hp
  | acquire n =>
    simp only [step]
    split_ifs
    · exact trivial
    · exact hcur
  | acquireStart n p =>
    have hp : p = t := hn
    simp only [step]
    split_ifs
    · exact trivial
    · exact hp
  | acquireYield f e p =>
    have hp : p = t := hn
    exact hp
  | release =>
    simp only [step]
    split_ifs <;> exact trivial
  | releaseOwner =>
    simp only [step]
    split_ifs with ho
    · exact ⟨hcur, hcur ▸ ho⟩
    · exact trivial
  | _ => exact trivial

theorem step_waits {k : Kernel} {m : Mutex} {t : TaskPtr} {c : Call} (hw : Waits t (some c))
    (hc : ∀ f e p, c ≠ .acquireLoop f e p) : Waits t (step k m c).2.2.call? := by
  obtain ⟨f, e, he | he⟩ := hw
  · obtain rfl := Option.some.inj he
    exact ⟨f, e, .inr rfl⟩
  · exact absurd (Option.some.inj he) (hc f e t)

theorem step_local {t : TaskPtr} {c : Call} {s : Shared}
    (h : Awaited s.kernel s.mutex s.pending) (hl : Local tasks t (some c) s)
    (hen : (protocol tasks).enabled t c s) :
    Local tasks t ((protocol tasks).step t c s).2.call? ((protocol tasks).step t c s).1 := by
  obtain ⟨hcur, hrun⟩ := hen
  rw [step_shared]
  constructor
  · exact fun _ => hl.member (by simp)
  · exact step_names hl.names hcur
  · intro hq
    rcases mem_step h.plain hq with hold | ⟨f, e, -, hnext⟩
    · refine step_waits (hl.queued hold) ?_
      rintro f e p rfl
      exact h.not_queued (hrun.resolve_right Bool.false_ne_true) hold
    · exact ⟨f, e, .inl (congrArg Outcome.call? hnext)⟩
  · intro hp
    have hno : ∀ f e p, c ≠ .acquireLoop f e p := by
      rintro f e p rfl
      dsimp only at hp
      rw [pendingAfter, Function.update_self] at hp
      cases hp
    rcases pendingAfter_mem h.plain hp with hold | hold
    · exact step_waits (hl.pending hold) hno
    · exact step_waits (hl.queued hold) hno

/-- A step of another task may queue or wake only where the task is at such a point. -/
theorem frame_local {t u : TaskPtr} {c : Call} {o : Option Call} {s : Shared}
    (h : Awaited s.kernel s.mutex s.pending) (hn : Names t (some c) s.mutex)
    (hl : Local tasks u o s) (hu : u ≠ t) : Local tasks u o ((protocol tasks).step t c s).1 := by
  rw [step_shared]
  constructor
  · exact hl.member
  · have hnames := hl.names
    unfold Names at hnames ⊢
    split at hnames <;> first | exact hnames | skip
    exact ⟨hnames.1, step_owner h hn hu hnames.2⟩
  · intro hq
    rcases mem_step h.plain hq with hold | ⟨f, e, rfl, -⟩
    · exact hl.queued hold
    · exact absurd hn hu
  · intro hp
    rcases pendingAfter_mem h.plain hp with hold | hold
    · exact hl.pending hold
    · exact hl.queued hold

/-! ## Runs -/

theorem Local.invoke {t : TaskPtr} {c : Call} {s : Shared} (h : Local tasks t none s)
    (ht : t ∈ tasks) (he : Call.isEntry c = true) : Local tasks t (some c) s := by
  have hout : ¬ Waits t none := by
    rintro ⟨f, e, he | he⟩ <;> cases he
  refine ⟨fun _ => ht, ?_, fun hq => absurd (h.queued hq) hout,
    fun hp => absurd (h.pending hp) hout⟩
  cases c <;> first | exact trivial | exact absurd he Bool.false_ne_true

def Shared.Awaited (s : Shared) : Prop := Waiting.Awaited s.kernel s.mutex s.pending

theorem awaited_reached (hc : tasks.card ≤ maxTasks) (k : Kernel) (es : List Event)
    (h : (protocol tasks).machine.Valid (start k) es) :
    Protocol.Holds Shared.Awaited (Local tasks) ((protocol tasks).machine.exec (start k) es) := by
  rw [← Machine.valid_restrict_true] at h
  refine Protocol.holds_of_run ?_ ?_ ?_ ?_ ?_ h
  · intro t c s _ hl ⟨_, ht, he⟩
    exact hl.invoke ht he
  · intro t c s hcall _ hs hen
    have hl := hs.2 t
    rw [hcall] at hl
    refine ⟨step_awaited hc hs.1 hl (fun u hu => (hs.2 u).member ?_) hen.2,
      step_local hs.1 hl hen⟩
    obtain ⟨f, e, hw | hw⟩ := (hs.2 u).queued hu <;>
      · rw [hw]
        simp
  · intro t c s u hcall _ hs _ hu
    have hl := hs.2 t
    rw [hcall] at hl
    exact frame_local hs.1 hl.names (hs.2 u) hu
  · intro k' s _ hs hblocked
    refine ⟨⟨hs.1.owned, hs.1.plain, hs.1.nodup, fun t ht => ?_, hs.1.wakeup⟩,
      fun u => ⟨(hs.2 u).member, (hs.2 u).names, (hs.2 u).queued, (hs.2 u).pending⟩⟩
    exact hblocked t ht (hs.1.blocked t ht)
  · refine ⟨⟨.inl ⟨rfl, rfl⟩, .new (by decide), List.nodup_nil, fun t ht => ?_, fun _ => .inl rfl⟩,
      fun t => ⟨fun hn => absurd rfl hn, trivial, fun ht => ?_, fun hp => ?_⟩⟩
    · cases ht
    · cases ht
    · cases hp

/-- The waiting tasks of a mutex in a reachable state. -/
structure NoneStranded (tasks : Finset TaskPtr) (s : State) : Prop where
  /-- The queue holds tasks, each once, and all of them are blocked. -/
  listed : s.shared.mutex.blockedTasks.toList = s.shared.mutex.blockedTasks.pointers.map some
  nodup : s.shared.mutex.blockedTasks.pointers.Nodup
  blocked : ∀ t ∈ s.shared.mutex.blockedTasks.pointers, s.shared.kernel.getState t = .eBlocked
  /-- A task that is about to queue itself finds room. -/
  room : ∀ t f e p, s.call t = some (.acquireLoop f e p) →
    (protocol tasks).enabled t (.acquireLoop f e p) s.shared →
    s.shared.mutex.blockedTasks.size < maxTasks
  /-- `release` removes the first task of the queue and makes it ready. -/
  woken : ∀ p u us, s.shared.mutex.blockedTasks.pointers = u :: us →
    (releaseRegion s.shared.kernel s.shared.mutex p).1.getState u = .eReady ∧
      (releaseRegion s.shared.kernel s.shared.mutex p).2.blockedTasks.pointers = us
  /-- While the mutex is free and tasks wait, one that was so woken is on its way to its
  test. -/
  awaited : s.shared.mutex.owner = none → s.shared.mutex.blockedTasks.pointers ≠ [] →
    ∃ u ∈ tasks, s.shared.pending u = true ∧ Waits u (s.call u)

theorem Awaited.woken {k : Kernel} {m : Mutex} {pending : TaskPtr → Bool}
    (h : Awaited k m pending) {p u : TaskPtr} {us : List TaskPtr}
    (hp : m.blockedTasks.pointers = u :: us) :
    (releaseRegion k m p).1.getState u = .eReady ∧
      (releaseRegion k m p).2.blockedTasks.pointers = us := by
  have hlen := h.plain.length_pointers
  rw [hp, List.length_cons] at hlen
  obtain ⟨v, hv, hp', -⟩ := h.plain.dequeue (by omega)
  obtain ⟨rfl, hus⟩ := List.cons.inj (hp.symm.trans hp')
  obtain ⟨hs, -⟩ | ⟨-, hn, -⟩ | ⟨-, w, hw, b, c, hwritten, hr⟩ := releaseRegion_cases k m p
  · omega
  · rw [hn] at hv
    cases hv
  · obtain rfl := Option.some.inj (hv.symm.trans hw)
    rw [hr, hwritten h.plain, Kernel.assert_true]
    exact ⟨(getState_release k p u b u).trans (if_pos rfl), hus.symm⟩

/-- No waiter of a mutex is stranded, in any state of any run in which at most `MAX_TASKS`
tasks acquire and release it. -/
theorem no_waiter_stranded (hc : tasks.card ≤ maxTasks) (k : Kernel) (es : List Event)
    (h : (protocol tasks).machine.Valid (start k) es) :
    NoneStranded tasks ((protocol tasks).machine.exec (start k) es) := by
  obtain ⟨hI, hA⟩ := awaited_reached hc k es h
  set s := (protocol tasks).machine.exec (start k) es
  have hin : ∀ u, Waits u (s.call u) → u ∈ tasks := by
    rintro u ⟨f, e, hw | hw⟩ <;>
      · refine (hA u).member ?_
        rw [hw]
        simp
  constructor
  · exact hI.plain.map_pointers.symm
  · exact hI.nodup
  · exact hI.blocked
  · intro t f e p hcall hen
    have hrun : s.shared.kernel.getState t = .eRunning :=
      hen.2.resolve_right Bool.false_ne_true
    refine Awaited.size_lt hI hc (fun u hu => hin u ((hA u).queued hu)) ((hA t).member ?_)
      (hI.not_queued hrun)
    rw [hcall]
    simp
  · exact fun p u us => hI.woken
  · intro hn hq
    obtain ⟨u, hu⟩ := (hI.wakeup hn).resolve_left hq
    have hw := (hA u).pending hu
    exact ⟨u, hin u hw, hu, hw⟩

/-- Task 1 holds the mutex while tasks 2 and 3 queue; it releases the mutex, takes it again
before task 2 has made its test, and task 2 gives up. -/
theorem no_waiter_stranded_barging :
    let k (t now : ℕ) (running : List ℕ) : Kernel :=
      { currentTask := t, idleTask := 0, port := { tickCount := now },
        taskData := fun u => { state := if u ∈ running then .eRunning else .eBlocked } }
    let es : List Event :=
      [.env (k 1 0 [1, 2, 3]), .invoke 1 (.acquire 5), .exec 1, .exec 1, .exec 1,
        .env (k 2 0 [1, 2, 3]), .invoke 2 (.acquire 5), .exec 2, .exec 2, .exec 2, .exec 2,
        .env (k 3 0 [1, 3]), .invoke 3 (.acquire 5), .exec 3, .exec 3, .exec 3, .exec 3,
        .env (k 1 0 [1]), .invoke 1 .release, .exec 1, .exec 1, .exec 1, .exec 1, .exec 1,
        .invoke 1 (.acquire 5), .exec 1, .exec 1, .exec 1,
        .env (k 2 6 [1, 2]), .exec 2]
    NoneStranded {1, 2, 3} ((protocol {1, 2, 3}).machine.exec (start (k 0 0 [])) es) :=
  no_waiter_stranded (by decide) _ _ (by decide +kernel)

end CppRtos.Mutex.Waiting
