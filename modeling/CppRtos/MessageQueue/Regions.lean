import CppRtos.Fifo.Refinement
import CppRtos.Library.Atomicity
import CppRtos.Library.Progress
import CppRtos.Library.Serial
import CppRtos.MessageQueue.Conservation

/-! The critical regions of a message queue under its spin lock, one statement at a time. The
interrupt mask is not relied on: every interleaving of the statements is a run. -/
namespace CppRtos

structure SpinLock where
  flag : Bool := false
deriving DecidableEq, Repr

namespace SpinLock

/-- `flag.exchange(true)`, with the value that it returns. -/
def exchange (l : SpinLock) : Bool × SpinLock := (l.flag, { l with flag := true })

def unlock (l : SpinLock) : SpinLock := { l with flag := false }

theorem exchange_of_set {l : SpinLock} (h : l.flag = true) : l.exchange = (true, l) := by
  cases l
  cases h
  rfl

end SpinLock

namespace MessageQueue
variable {α : Type*} {n : ℕ}

/-- A message queue with its spin lock, beside the kernel. -/
structure Guarded (α : Type*) (n : ℕ) where
  kernel : Kernel
  queue : MessageQueue α n
  spnLock : SpinLock := {}

def Guarded.setFifo (s : Guarded α n) (q : Fifo α n) : Guarded α n :=
  { s with queue := { s.queue with queue := q } }

/-- Points inside `send`, `receive` and `getNumMsg`: those outside of the regions that write the
buffer, the loop of `lock`, the statements of `enqueue` and `dequeue`, and the end of a region. -/
inductive Point (α : Type*) where
  | call (c : Call α)
  | lock (op : Fifo.Call α)
  | test (op : Fifo.Call α)
  | store (item : α)
  | moveTail (item : α)
  | grow (item : α)
  | load
  | moveHead (item : α)
  | shrink (item : α)
  | unlock (r : Result α)
  | leave (r : Result α)
deriving DecidableEq, Repr

namespace Point

def isEntry : Point α → Bool
  | .call c => c.isEntry
  | _ => false

/-- The points between `lock` and `unlock`. -/
def holding : Point α → Bool
  | .call _ | .lock _ | .leave _ => false
  | _ => true

/-- One statement. -/
def step [Inhabited α] (s : Guarded α n) : Point α → Guarded α n × Outcome (Point α) (Result α)
  | .call (.sendRegion message) =>
    ({ s with kernel := s.kernel.enterCritical }, .next (.lock (.enqueue message)))
  | .call .receiveRegion => ({ s with kernel := s.kernel.enterCritical }, .next (.lock .dequeue))
  | .call c =>
    let r := MessageQueue.step s.kernel s.queue c
    ({ s with kernel := r.1, queue := r.2.1 }, r.2.2.map .call id)
  | .lock op =>
    let r := s.spnLock.exchange
    ({ s with spnLock := r.2 }, .next (if r.1 then .lock op else .test op))
  | .test (.enqueue item) =>
    (s, .next (if s.queue.queue.size < n then .store item else .unlock (.sent .success)))
  | .test .dequeue =>
    (s, .next (if s.queue.queue.size > 0 then .load
      else .unlock (.received .success (some default))))
  | .store item =>
    let q := s.queue.queue
    (s.setFifo { q with buffer := Function.update q.buffer q.tail item }, .next (.moveTail item))
  | .moveTail item =>
    let q := s.queue.queue
    (s.setFifo { q with tail := (q.tail + 1) % n }, .next (.grow item))
  | .grow _ =>
    let q := s.queue.queue
    (s.setFifo { q with size := q.size + 1 }, .next (.unlock (.sent .success)))
  | .load => (s, .next (.moveHead (s.queue.queue.buffer s.queue.queue.head)))
  | .moveHead item =>
    let q := s.queue.queue
    (s.setFifo { q with head := (q.head + 1) % n }, .next (.shrink item))
  | .shrink item =>
    let q := s.queue.queue
    (s.setFifo { q with size := q.size - 1 }, .next (.unlock (.received .success (some item))))
  | .unlock r => ({ s with spnLock := s.spnLock.unlock }, .next (.leave r))
  | .leave r => ({ s with kernel := s.kernel.exitCritical }, .ret r)

/-- What an observer of atomic regions sees: a region takes effect when `size` is written, or
when its test fails. -/
def view : Point α → Outcome (Call α) (Result α)
  | .call c => .next c
  | .lock (.enqueue m) | .test (.enqueue m) | .store m | .moveTail m | .grow m =>
    .next (.sendRegion m)
  | .lock .dequeue | .test .dequeue | .load | .moveHead _ | .shrink _ => .next .receiveRegion
  | .unlock r | .leave r => .ret r

/-- The buffer `q` at a point inside the lock, given the buffer `q₀` as it is seen from
outside. -/
def Phase (q q₀ : Fifo α n) : Point α → Prop
  | .store _ => q₀.size < n ∧ q = q₀
  | .moveTail m => q₀.size < n ∧ q = { q₀ with buffer := Function.update q₀.buffer q₀.tail m }
  | .grow m => q₀.size < n ∧
      q = { q₀ with buffer := Function.update q₀.buffer q₀.tail m, tail := (q₀.tail + 1) % n }
  | .load => 0 < q₀.size ∧ q = q₀
  | .moveHead m => 0 < q₀.size ∧ q = q₀ ∧ m = q₀.buffer q₀.head
  | .shrink m => 0 < q₀.size ∧ q = { q₀ with head := (q₀.head + 1) % n } ∧ m = q₀.buffer q₀.head
  | _ => q = q₀

theorem Phase.size_eq {q q₀ : Fifo α n} {p : Point α} (h : p.Phase q q₀) : q.size = q₀.size := by
  cases p with
  | store m => rw [h.2]
  | moveTail m => rw [h.2]
  | grow m => rw [h.2]
  | load => rw [h.2]
  | moveHead m => rw [h.2.1]
  | shrink m => rw [h.2.1]
  | _ => rw [show q = q₀ from h]

end Point

/-- Threads whose regions are interleaved statement by statement. -/
def regions (α : Type*) (n : ℕ) [Inhabited α] :
    Protocol Thread (Guarded α n) (Point α) (Result α) Kernel where
  entry t p s := Executes t s.kernel ∧ p.isEntry = true
  enabled t _ s := Executes t s.kernel
  step _ p s := p.step s
  interferes _ _ := True
  interfere k s := { s with kernel := k }

/-- At most one thread is between `lock` and `unlock`, the flag says whether there is one, and
the buffer is as far as this thread has come. -/
structure Guards (s : Config Thread (Guarded α n) (Point α)) (s' : Shared α n) : Prop where
  mtx : s.shared.queue.mtx = s'.queue.mtx
  alone : Protocol.Serial Point.holding s
  flag : s.shared.spnLock.flag = true ↔ ∃ t, (s.call t).any Point.holding = true
  free : s.shared.spnLock.flag = false → s.shared.queue.queue = s'.queue.queue
  phase : ∀ t p, s.call t = some p → p.holding = true →
    p.Phase s.shared.queue.queue s'.queue.queue

namespace Guards
variable {s : Config Thread (Guarded α n) (Point α)} {s' : Shared α n}

section
variable {t : Thread} (halone : ∀ u, u ≠ t → (s.call u).any Point.holding = false)
  {g : Guarded α n} {p' : Point α} {s₁ : Shared α n}
include halone

/-- A step of the thread that holds the lock, or takes it while nobody does. -/
theorem of_inside (hh : p'.holding = true)
    (hm : g.queue.mtx = s₁.queue.mtx) (hf : g.spnLock.flag = true)
    (hphase : p'.Phase g.queue.queue s₁.queue.queue) :
    Guards ⟨g, Function.update s.call t (some p')⟩ s₁ := by
  have honly : ∀ u, (Function.update s.call t (some p') u).any Point.holding = true → u = t := by
    intro u hu
    by_contra hut
    rw [Function.update_of_ne hut, halone u hut] at hu
    cases hu
  refine ⟨hm, fun u v hu hv => (honly u hu).trans (honly v hv).symm, ?_, fun hf' => ?_,
    fun u q hu hq => ?_⟩
  · have hself : (Function.update s.call t (some p') t).any Point.holding = true := by
      rw [Function.update_self]
      exact hh
    exact iff_of_true hf ⟨t, hself⟩
  · exact absurd (hf.symm.trans hf') (by decide)
  · change Function.update s.call t (some p') u = some q at hu
    obtain rfl := honly u (by rw [hu]; exact hq)
    rw [Function.update_self] at hu
    exact Option.some.inj hu ▸ hphase

theorem of_unlock (hh : p'.holding = false)
    (hm : g.queue.mtx = s₁.queue.mtx) (hf : g.spnLock.flag = false)
    (hq : g.queue.queue = s₁.queue.queue) :
    Guards ⟨g, Function.update s.call t (some p')⟩ s₁ := by
  have hnone : ∀ u, (Function.update s.call t (some p') u).any Point.holding = false := by
    intro u
    by_cases hut : u = t
    · rw [hut, Function.update_self]
      exact hh
    · rw [Function.update_of_ne hut]
      exact halone u hut
  refine ⟨hm, fun u v hu hv => absurd hu (Bool.eq_false_iff.mp (hnone u)), ?_, fun _ => hq,
    fun u q hu hq => ?_⟩
  · refine iff_of_false (Bool.eq_false_iff.mp hf) ?_
    rintro ⟨u, hu⟩
    exact absurd hu (Bool.eq_false_iff.mp (hnone u))
  · change Function.update s.call t (some p') u = some q at hu
    have hu' := hnone u
    rw [hu] at hu'
    exact absurd hq (Bool.eq_false_iff.mp hu')

end

variable (h : Guards s s')
include h

theorem size_eq : s.shared.queue.queue.size = s'.queue.queue.size := by
  cases hf : s.shared.spnLock.flag with
  | false => rw [h.free hf]
  | true =>
    obtain ⟨t, ht⟩ := h.flag.mp hf
    obtain ⟨p, hp, hh⟩ := (Option.any_eq_true _ _).mp ht
    exact (h.phase t p hp hh).size_eq

theorem of_outside {t : Thread} {o : Option (Point α)} (hp : (s.call t).any Point.holding = false)
    (ho : o.any Point.holding = false) {k : Kernel} {q : MessageQueue α n} {s₁ : Shared α n}
    (hm : q.mtx = s₁.queue.mtx) (hq : q.queue = s.shared.queue.queue)
    (hq' : s₁.queue.queue = s'.queue.queue) :
    Guards ⟨⟨k, q, s.shared.spnLock⟩, Function.update s.call t o⟩ s₁ := by
  have hold : ∀ u, (Function.update s.call t o u).any Point.holding =
      (s.call u).any Point.holding := by
    intro u
    by_cases hu : u = t
    · rw [hu, Function.update_self, ho, hp]
    · rw [Function.update_of_ne hu]
  refine ⟨hm, fun u v hu hv => h.alone u v (hold u ▸ hu) (hold v ▸ hv), ?_, fun hf => ?_,
    fun u p' hu hh' => ?_⟩
  · simp only [hold]
    exact h.flag
  · rw [hq, hq']
    exact h.free hf
  · change Function.update s.call t o u = some p' at hu
    by_cases hut : u = t
    · rw [hut, Function.update_self] at hu
      rw [hu] at ho
      exact absurd hh' (Bool.eq_false_iff.mp ho)
    · rw [Function.update_of_ne hut] at hu
      change p'.Phase q.queue s₁.queue.queue
      rw [hq, hq']
      exact h.phase u p' hu hh'

theorem alone_of_holding {t : Thread} (hp : (s.call t).any Point.holding = true) :
    ∀ u, u ≠ t → (s.call u).any Point.holding = false := by
  intro u hu
  by_contra hany
  rw [Bool.not_eq_false] at hany
  exact hu (h.alone u t hany hp)

end Guards

/-! ## The refinement -/

/-- Outside of the regions a step depends on the buffer through its size. -/
theorem step_congr [Inhabited α] (k : Kernel) {q q' : MessageQueue α n} (hm : q.mtx = q'.mtx)
    (hsize : q.queue.size = q'.queue.size) {c : Call α} (hs : ∀ m, c ≠ .sendRegion m)
    (hr : c ≠ .receiveRegion) :
    (step k q c).2.1.mtx = (step k q' c).2.1.mtx ∧ (step k q c).2.2 = (step k q' c).2.2 := by
  have hfull : q.queue.isFull = q'.queue.isFull := by simp only [Fifo.isFull, hsize]
  have hempty : q.queue.isEmpty = q'.queue.isEmpty := by simp only [Fifo.isEmpty, hsize]
  cases c with
  | sendRegion m => exact absurd rfl (hs m)
  | receiveRegion => exact absurd rfl hr
  | send m t => exact ⟨hm, by simp only [step, sendStart, hfull]⟩
  | sendMutex m t use c => simp only [step, sendMutex, hm, and_self]
  | sendLoop m t e => simp only [step, hfull]; split_ifs <;> exact ⟨hm, rfl⟩
  | receive t => simp only [step, hempty]; split_ifs <;> exact ⟨hm, rfl⟩
  | receiveLoop t e => simp only [step, hempty]; split_ifs <;> exact ⟨hm, rfl⟩
  | sendTime m t e => simp only [step]; split_ifs <;> exact ⟨hm, rfl⟩
  | receiveTime t e => simp only [step]; split_ifs <;> exact ⟨hm, rfl⟩
  | getNumMsg => exact ⟨hm, by simp only [step, Fifo.getSize, hsize]⟩
  | sendEnd m t => exact ⟨hm, rfl⟩
  | sendYield m t e => exact ⟨hm, rfl⟩
  | receiveEnd t => exact ⟨hm, rfl⟩
  | receiveYield t e => exact ⟨hm, rfl⟩

theorem Point.bind_view_map (o : Outcome (Call α) (Result α)) :
    (o.map Point.call id).bind Point.view = o := by
  cases o <;> rfl

section
variable [Inhabited α]

theorem drifts_kernel (s : Shared α n) (k : Kernel) :
    (protocol α n).Drifts s { s with kernel := k } := .single ⟨k, trivial, rfl⟩

theorem Point.step_call (s : Guarded α n) {c : Call α} (hs : ∀ m, c ≠ .sendRegion m)
    (hr : c ≠ .receiveRegion) : (Point.call c).step s =
      (⟨(MessageQueue.step s.kernel s.queue c).1, (MessageQueue.step s.kernel s.queue c).2.1,
        s.spnLock⟩, (MessageQueue.step s.kernel s.queue c).2.2.map .call id) := by
  cases c with
  | sendRegion m => exact absurd rfl (hs m)
  | receiveRegion => exact absurd rfl hr
  | _ => rfl

theorem Guards.step_inside {s : Config Thread (Guarded α n) (Point α)} {s' s₁ : Shared α n}
    (h : Guards s s') {t : Thread} {p p' : Point α} (hp : s.call t = some p)
    (hh : p.holding = true) (hnext : (p.step s.shared).2 = .next p') (hh' : p'.holding = true)
    (hm : (p.step s.shared).1.queue.mtx = s₁.queue.mtx)
    (hl : (p.step s.shared).1.spnLock = s.shared.spnLock)
    (hphase : p'.Phase (p.step s.shared).1.queue.queue s₁.queue.queue) :
    Guards ((regions α n).machine.apply (.exec t) s) s₁ := by
  have hany : (s.call t).any Point.holding = true := by
    rw [hp]
    exact hh
  have happly : (regions α n).machine.apply (.exec t) s =
      ⟨(p.step s.shared).1, Function.update s.call t (some p')⟩ := by
    rw [Protocol.apply_exec hp]
    exact congrArg (fun o => Config.mk _ (Function.update s.call t (Outcome.call? o))) hnext
  rw [happly]
  refine of_inside (h.alone_of_holding hany) hh' hm ?_ hphase
  rw [hl]
  exact h.flag.mpr ⟨t, hany⟩

/-! ### The steps, by the point that the thread is at -/

/-- The step of the thread is not seen by an observer of atomic regions. -/
abbrev Unseen (t : Thread) (p : Point α) :
    Config Thread (Guarded α n) (Point α) → Shared α n → Prop :=
  (regions α n).Silent (protocol α n) Guards Point.view t p

/-- The region takes effect in the step of the thread. -/
abbrev Seen (t : Thread) (p : Point α) :
    Config Thread (Guarded α n) (Point α) → Shared α n → Prop :=
  (regions α n).Effective (protocol α n) Guards Point.view t p

namespace Guards
variable {s : Config Thread (Guarded α n) (Point α)} {s' : Shared α n} (h : Guards s s')
  {t : Thread} {p : Point α} (hp : s.call t = some p)
include h hp

omit [Inhabited α] h in
theorem outside (hh : p.holding = false) : (s.call t).any Point.holding = false := by
  rw [hp]
  exact hh

/-- A step outside of the lock that leaves the queue alone. -/
theorem unseen_outside (hh : p.holding = false) {k : Kernel} {o : Outcome (Point α) (Result α)}
    (hstep : p.step s.shared = ({ s.shared with kernel := k }, o))
    (ho : o.call?.any Point.holding = false) (hview : o.bind Point.view = p.view) :
    Unseen t p s s' := by
  refine ⟨?_, s', .refl, ?_⟩
  · change (p.step s.shared).2.bind Point.view = _
    rw [hstep, hview]
  · rw [Protocol.apply_exec hp]
    change Guards ⟨(p.step s.shared).1, Function.update s.call t (p.step s.shared).2.call?⟩ _
    rw [hstep]
    exact h.of_outside (outside hp hh) ho h.mtx rfl rfl

/-- A step outside of the regions is a step of the atomic protocol. -/
theorem seen_call {c : Call α} (hpc : p = .call c) (hen : Executes t s.shared.kernel)
    (hs : ∀ m, c ≠ .sendRegion m) (hr : c ≠ .receiveRegion) : Seen t p s s' := by
  subst hpc
  have hstep := Point.step_call s.shared hs hr
  obtain ⟨hm, hout⟩ := step_congr s.shared.kernel h.mtx h.size_eq hs hr
  have hq := step_queue s.shared.kernel s.shared.queue hs hr
  have hq' := step_queue s.shared.kernel s'.queue hs hr
  refine ⟨c, _, rfl, drifts_kernel s' s.shared.kernel, hen, ?_, ?_⟩
  · change ((Point.call c).step s.shared).2.bind Point.view = _
    rw [hstep, Point.bind_view_map, hout]
    rfl
  · rw [Protocol.apply_exec hp]
    change Guards ⟨((Point.call c).step s.shared).1,
      Function.update s.call t ((Point.call c).step s.shared).2.call?⟩ _
    rw [hstep]
    refine h.of_outside (outside hp rfl) ?_ hm hq hq'
    rw [Outcome.call?_map]
    cases (MessageQueue.step s.shared.kernel s.shared.queue c).2.2 <;> rfl

theorem unseen_lock {op : Fifo.Call α} (hpl : p = .lock op) : Unseen t p s s' := by
  subst hpl
  cases hf : s.shared.spnLock.flag with
  | true =>
    refine h.unseen_outside hp rfl (k := s.shared.kernel) (o := .next (.lock op)) ?_ rfl rfl
    simp only [Point.step, SpinLock.exchange_of_set hf, if_true]
  | false =>
    have hnobody : ∀ u, (s.call u).any Point.holding = false := by
      intro u
      by_contra hany
      rw [Bool.not_eq_false] at hany
      rw [h.flag.mpr ⟨u, hany⟩] at hf
      cases hf
    have hstep : (Point.lock op).step s.shared =
        ({ s.shared with spnLock := ⟨true⟩ }, .next (.test op)) := by
      simp only [Point.step, SpinLock.exchange, hf, Bool.false_eq_true, if_false]
    refine ⟨?_, s', .refl, ?_⟩
    · change ((Point.lock op).step s.shared).2.bind Point.view = _
      rw [hstep]
      cases op <;> rfl
    · rw [Protocol.apply_exec hp]
      change Guards ⟨((Point.lock op).step s.shared).1,
        Function.update s.call t ((Point.lock op).step s.shared).2.call?⟩ _
      rw [hstep]
      exact Guards.of_inside (fun u _ => hnobody u) rfl h.mtx rfl (h.free hf)

/-- A statement inside of the lock before the region takes effect. -/
theorem unseen_inside (hh : p.holding = true) {p' : Point α}
    (hnext : (p.step s.shared).2 = .next p') (hh' : p'.holding = true)
    (hm : (p.step s.shared).1.queue.mtx = s.shared.queue.mtx)
    (hl : (p.step s.shared).1.spnLock = s.shared.spnLock) (hview : p'.view = p.view)
    (hphase : p'.Phase (p.step s.shared).1.queue.queue s'.queue.queue) : Unseen t p s s' := by
  refine ⟨?_, s', .refl, h.step_inside hp hh hnext hh' (hm.trans h.mtx) hl hphase⟩
  exact (congrArg (·.bind Point.view) hnext).trans hview

/-- The statement inside of the lock in which the region `c` takes effect. -/
theorem seen_inside (hen : Executes t s.shared.kernel) (hh : p.holding = true) {r : Result α}
    (hnext : (p.step s.shared).2 = .next (.unlock r))
    (hm : (p.step s.shared).1.queue.mtx = s.shared.queue.mtx)
    (hl : (p.step s.shared).1.spnLock = s.shared.spnLock) {c : Call α} (hview : p.view = .next c)
    (hmtx : (MessageQueue.step s.shared.kernel s'.queue c).2.1.mtx = s'.queue.mtx)
    (hret : (MessageQueue.step s.shared.kernel s'.queue c).2.2 = .ret r)
    (hqueue : (p.step s.shared).1.queue.queue =
      (MessageQueue.step s.shared.kernel s'.queue c).2.1.queue) : Seen t p s s' := by
  refine ⟨c, _, hview, drifts_kernel s' s.shared.kernel, hen, ?_, ?_⟩
  · exact (congrArg (·.bind Point.view) hnext).trans hret.symm
  · exact h.step_inside hp hh hnext rfl ((hm.trans h.mtx).trans hmtx.symm) hl hqueue

theorem enqueue_or {m : α} (hpt : p = .test (.enqueue m)) (hen : Executes t s.shared.kernel) :
    Unseen t p s s' ∨ Seen t p s s' := by
  subst hpt
  have hq : s.shared.queue.queue = s'.queue.queue := h.phase t _ hp rfl
  by_cases hroom : s.shared.queue.queue.size < n
  · have hnext : ((Point.test (.enqueue m)).step s.shared).2 = .next (.store m) := by
      simp only [Point.step, if_pos hroom]
    exact .inl (h.unseen_inside hp rfl hnext rfl rfl rfl rfl ⟨hq ▸ hroom, hq⟩)
  · have hnext : ((Point.test (.enqueue m)).step s.shared).2 =
        .next (.unlock (.sent .success)) := by
      simp only [Point.step, if_neg hroom]
    refine .inr (h.seen_inside hp hen rfl hnext rfl rfl rfl rfl rfl ?_)
    exact hq.trans (Fifo.enqueue_of_full _ m (hq ▸ hroom)).symm

theorem dequeue_or (hpt : p = .test .dequeue) (hen : Executes t s.shared.kernel) :
    Unseen t p s s' ∨ Seen t p s s' := by
  subst hpt
  have hq : s.shared.queue.queue = s'.queue.queue := h.phase t _ hp rfl
  by_cases hpos : s.shared.queue.queue.size > 0
  · have hnext : ((Point.test (.dequeue : Fifo.Call α)).step s.shared).2 = .next .load := by
      simp only [Point.step, if_pos hpos]
    exact .inl (h.unseen_inside hp rfl hnext rfl rfl rfl rfl ⟨hq ▸ hpos, hq⟩)
  · have hnext : ((Point.test (.dequeue : Fifo.Call α)).step s.shared).2 =
        .next (.unlock (.received .success (some default))) := by
      simp only [Point.step, if_neg hpos]
    have hempty : s'.queue.queue.dequeue = (default, s'.queue.queue) :=
      Fifo.dequeue_of_empty (hq ▸ hpos)
    refine .inr (h.seen_inside hp hen rfl hnext rfl rfl rfl rfl ?_ ?_)
    · change Outcome.ret (Result.received .success (some s'.queue.queue.dequeue.1)) = _
      rw [hempty]
    · exact hq.trans (congrArg Prod.snd hempty).symm

theorem seen_grow {m : α} (hpg : p = .grow m) (hen : Executes t s.shared.kernel) :
    Seen t p s s' := by
  subst hpg
  obtain ⟨hroom, hq⟩ := h.phase t _ hp rfl
  refine h.seen_inside hp hen rfl rfl rfl rfl rfl rfl rfl ?_
  simp only [Point.step, Guarded.setFifo, hq, step, Fifo.enqueue, if_pos hroom]

theorem seen_shrink {m : α} (hps : p = .shrink m) (hen : Executes t s.shared.kernel) :
    Seen t p s s' := by
  subst hps
  obtain ⟨hpos, hq, rfl⟩ := h.phase t _ hp rfl
  refine h.seen_inside hp hen rfl rfl rfl rfl rfl rfl ?_ ?_
  · change Outcome.ret (Result.received .success (some s'.queue.queue.dequeue.1)) = _
    rw [Fifo.dequeue, if_pos hpos]
  · simp only [Point.step, Guarded.setFifo, hq, step, Fifo.dequeue, if_pos hpos]

theorem unseen_unlock {r : Result α} (hpu : p = .unlock r) : Unseen t p s s' := by
  subst hpu
  have hq : s.shared.queue.queue = s'.queue.queue := h.phase t _ hp rfl
  refine ⟨rfl, s', .refl, ?_⟩
  rw [Protocol.apply_exec hp]
  exact Guards.of_unlock (h.alone_of_holding (by rw [hp]; rfl)) rfl h.mtx rfl hq

end Guards

/-- The regions under the spin lock behave as atomic ones. -/
theorem regions_refines : (regions α n).Refines (protocol α n) Guards Point.view where
  entry t p s s' h hidle hentry := by
    obtain ⟨hexec, hentry⟩ := hentry
    cases p with
    | call c =>
      refine ⟨c, _, rfl, drifts_kernel s' s.shared.kernel, ⟨hexec, hentry⟩, ?_⟩
      exact h.of_outside (by rw [hidle]; rfl) rfl h.mtx rfl rfl
    | _ => exact absurd hentry Bool.false_ne_true
  env k s s' h _ := ⟨s', .refl, h.mtx, h.alone, h.flag, h.free, h.phase⟩
  step t p s s' h hp hen := by
    cases p with
    | call c =>
      by_cases hs : ∃ m, c = .sendRegion m
      · obtain ⟨m, rfl⟩ := hs
        exact .inl (h.unseen_outside hp rfl rfl rfl rfl)
      · by_cases hr : c = .receiveRegion
        · subst hr
          exact .inl (h.unseen_outside hp rfl rfl rfl rfl)
        · exact .inr (h.seen_call hp rfl hen (fun m hm => hs ⟨m, hm⟩) hr)
    | lock op => exact .inl (h.unseen_lock hp rfl)
    | test op =>
      cases op with
      | enqueue m => exact h.enqueue_or hp rfl hen
      | dequeue => exact h.dequeue_or hp rfl hen
    | store m | moveTail m =>
      obtain ⟨hroom, hq⟩ := h.phase t _ hp rfl
      refine .inl (h.unseen_inside hp rfl rfl rfl rfl rfl rfl ⟨hroom, ?_⟩)
      simp only [Point.step, Guarded.setFifo, hq]
    | grow m => exact .inr (h.seen_grow hp rfl hen)
    | load =>
      obtain ⟨hpos, hq⟩ := h.phase t _ hp rfl
      refine .inl (h.unseen_inside hp rfl rfl rfl rfl rfl rfl ⟨hpos, hq, ?_⟩)
      rw [hq]
    | moveHead m =>
      obtain ⟨hpos, hq, hm⟩ := h.phase t _ hp rfl
      refine .inl (h.unseen_inside hp rfl rfl rfl rfl rfl rfl ⟨hpos, ?_, hm⟩)
      simp only [Point.step, Guarded.setFifo, hq]
    | shrink m => exact .inr (h.seen_shrink hp rfl hen)
    | unlock r => exact .inl (h.unseen_unlock hp rfl)
    | leave r => exact .inl (h.unseen_outside hp rfl rfl rfl rfl)

/-- All threads outside of calls, the lock free and the buffer empty. -/
def begin (k : Kernel) : Config Thread (Guarded α n) (Point α) :=
  Protocol.start { kernel := k, queue := new }

theorem represents_begin (k : Kernel) :
    Protocol.Represents Guards Point.view (begin k : Config Thread (Guarded α n) (Point α))
      (start k) := by
  refine ⟨⟨rfl, Protocol.serial_start _ _, iff_of_false Bool.false_ne_true ?_, fun _ => rfl, nofun⟩,
    fun _ => rfl⟩
  rintro ⟨t, ht⟩
  cases ht

end

/-- The spin lock alone makes the regions atomic: every interleaving of their statements is a
run with atomic regions in which every thread gets the same results in the same order, up to one
that it is about to return. At most one thread is inside the lock, `size` is always that of the
atomic run, and so is the whole buffer whenever the lock is free. -/
theorem regions_atomic (α : Type*) [Inhabited α] (n : ℕ) (k : Kernel)
    (es : List (Protocol.Action Thread (Point α) Kernel))
    (hv : (regions α n).machine.Valid (begin k) es) :
    let s := (regions α n).machine.exec (begin k) es
    Protocol.Serial Point.holding s ∧
      ∃ fs, (protocol α n).machine.Valid (start k) fs ∧
        (∀ t, (protocol α n).results t (start k) fs =
          (regions α n).results t (begin k) es ++ Protocol.pending Point.view t s) ∧
        s.shared.queue.queue.size =
          ((protocol α n).machine.exec (start k) fs).shared.queue.queue.size ∧
        (s.shared.spnLock.flag = false →
          s.shared.queue = ((protocol α n).machine.exec (start k) fs).shared.queue) := by
  obtain ⟨fs, hfs, ⟨hguards, -⟩, hres⟩ := regions_refines.run (represents_begin k) hv
  refine ⟨hguards.alone, fs, hfs, hres, hguards.size_eq, fun hf => ?_⟩
  have hq := hguards.free hf
  have hm := hguards.mtx
  generalize (protocol α n).machine.exec (start k) fs = c at hq hm
  cases hs : ((regions α n).machine.exec (begin k) es).shared.queue
  cases hc : c.shared.queue
  simp_all

instance : ∀ (t : Thread) (p : Point ℕ) (s : Guarded ℕ n), Decidable ((regions ℕ n).entry t p s) :=
  fun t p s => inferInstanceAs (Decidable (Executes t s.kernel ∧ p.isEntry = true))

instance : ∀ (t : Thread) (p : Point ℕ) (s : Guarded ℕ n),
    Decidable ((regions ℕ n).enabled t p s) :=
  fun t _ s => inferInstanceAs (Decidable (Executes t s.kernel))

instance : ∀ (k : Kernel) (s : Guarded ℕ n), Decidable ((regions ℕ n).interferes k s) :=
  fun _ _ => inferInstanceAs (Decidable True)

/-- Task 1 is inside the lock when task 2 comes to it. -/
def spinRun : List (Protocol.Action Thread (Point ℕ) Kernel) :=
  [.invoke (.task 1) (.call (.send 7 0)), .exec (.task 1), .exec (.task 1), .exec (.task 1),
    .exec (.task 1), .exec (.task 1), .env (kernelOf 2), .invoke (.task 2) (.call (.send 8 0)),
    .exec (.task 2), .exec (.task 2), .exec (.task 2)]

def spinEnd : List (Protocol.Action Thread (Point ℕ) Kernel) :=
  [.env (kernelOf 1), .exec (.task 1), .exec (.task 1), .exec (.task 1), .env (kernelOf 2),
    .exec (.task 2), .exec (.task 2), .env (kernelOf 1), .exec (.task 1)]

theorem regions_atomic_spin :
    ∃ fs, (protocol ℕ 2).machine.Valid (start (kernelOf 1)) fs ∧
      (protocol ℕ 2).results (.task 1) (start (kernelOf 1)) fs = [.sent .success] := by
  obtain ⟨-, fs, hfs, hres, -⟩ := regions_atomic ℕ 2 (kernelOf 1) (spinRun ++ spinEnd)
    (by decide +kernel)
  refine ⟨fs, hfs, (hres (.task 1)).trans ?_⟩
  decide +kernel

/-- The statements up to the one that frees the lock. -/
def Point.remaining : Point α → ℕ
  | .call _ | .lock _ | .leave _ => 0
  | .test _ => 5
  | .store _ | .load => 4
  | .moveTail _ | .moveHead _ => 3
  | .grow _ | .shrink _ => 2
  | .unlock _ => 1

theorem Point.remaining_pos {p : Point α} (h : p.holding = true) : 0 < p.remaining := by
  cases p with
  | call c => cases h
  | lock op => cases h
  | leave r => cases h
  | _ => exact Nat.succ_pos _

/-- Each statement inside of the lock leads to the next one, the last one frees it. -/
theorem Point.step_remaining [Inhabited α] (s : Guarded α n) {p : Point α}
    (h : p.holding = true) : (p.step s).1.spnLock.flag = false ∨
      ∃ p', (p.step s).2.call? = some p' ∧ p'.holding = true ∧ p'.remaining < p.remaining := by
  cases p with
  | call c => cases h
  | lock op => cases h
  | leave r => cases h
  | test op =>
    cases op with
    | enqueue m =>
      refine .inr ⟨_, rfl, ?_⟩
      split_ifs
      · exact ⟨rfl, Nat.lt_succ_self 4⟩
      · exact ⟨rfl, Nat.one_lt_succ_succ 3⟩
    | dequeue =>
      refine .inr ⟨_, rfl, ?_⟩
      split_ifs
      · exact ⟨rfl, Nat.lt_succ_self 4⟩
      · exact ⟨rfl, Nat.one_lt_succ_succ 3⟩
  | unlock r => exact .inl rfl
  | store m => exact .inr ⟨_, rfl, rfl, Nat.lt_succ_self _⟩
  | moveTail m => exact .inr ⟨_, rfl, rfl, Nat.lt_succ_self _⟩
  | grow m => exact .inr ⟨_, rfl, rfl, Nat.lt_succ_self _⟩
  | load => exact .inr ⟨_, rfl, rfl, Nat.lt_succ_self _⟩
  | moveHead m => exact .inr ⟨_, rfl, rfl, Nat.lt_succ_self _⟩
  | shrink m => exact .inr ⟨_, rfl, rfl, Nat.lt_succ_self _⟩

theorem Point.remaining_le (p : Point α) : p.remaining ≤ 5 := by
  cases p <;> simp [remaining]

/-- A thread that spins waits for one other thread, and no longer than for five statements of
that thread: in any run that goes on, the lock has been free by then. -/
theorem lock_freed (α : Type*) [Inhabited α] (n : ℕ) (k : Kernel)
    (es fs : List (Protocol.Action Thread (Point α) Kernel))
    (hv : (regions α n).machine.Valid (begin k) (es ++ fs))
    (hf : ((regions α n).machine.exec (begin k) es).shared.spnLock.flag = true) :
    ∃ t, (∀ u, (((regions α n).machine.exec (begin k) es).call u).any Point.holding = true ↔
        u = t) ∧
      (5 ≤ Protocol.steps t fs → ∃ gs, gs <+: fs ∧
        ((regions α n).machine.exec (begin k) (es ++ gs)).shared.spnLock.flag = false) := by
  obtain ⟨hes, hfs⟩ := (Machine.valid_append _ _ _ _).mp hv
  obtain ⟨_, _, ⟨hguards, _⟩, _⟩ := regions_refines.run (represents_begin k) hes
  obtain ⟨t, ht⟩ := hguards.flag.mp hf
  refine ⟨t, fun u => ⟨fun hu => hguards.alone u t hu ht, fun hu => hu ▸ ht⟩, fun hn => ?_⟩
  obtain ⟨p, hp, hh⟩ := (Option.any_eq_true _ _).mp ht
  have hnext : ∀ p (s : Config Thread (Guarded α n) (Point α)), p.holding = true →
      s.call t = some p → (regions α n).enabled t p s.shared →
      ((regions α n).machine.apply (.exec t) s).shared.spnLock.flag = false ∨
        ∃ p', ((regions α n).step t p s.shared).2.call? = some p' ∧ p'.holding = true ∧
          p'.remaining < p.remaining := by
    intro p s hh hp _
    rw [Protocol.apply_exec hp]
    exact Point.step_remaining s.shared hh
  obtain ⟨gs, hgs, hfree⟩ := Protocol.reaches (fun s => s.shared.spnLock.flag = false)
    (fun p => p.holding = true) Point.remaining (fun _ => Point.remaining_pos) hnext hfs hp hh
    (p.remaining_le.trans hn)
  exact ⟨gs, hgs, by rwa [Machine.exec_append]⟩

theorem lock_freed_spin : ∃ gs, gs <+: (spinRun ++ spinEnd).drop 4 ∧
    ((regions ℕ 2).machine.exec (begin (kernelOf 1))
      ((spinRun ++ spinEnd).take 4 ++ gs)).shared.spnLock.flag = false := by
  obtain ⟨t, ht, hfree⟩ := lock_freed ℕ 2 (kernelOf 1) ((spinRun ++ spinEnd).take 4)
    ((spinRun ++ spinEnd).drop 4) (by decide +kernel) (by decide +kernel)
  obtain rfl := (ht (.task 1)).mp (by decide +kernel)
  exact hfree (by decide +kernel)

end MessageQueue

end CppRtos
