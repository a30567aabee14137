import CppRtos.Mutex.Waiting
import CppRtos.System.Clock
import CppRtos.System.NoTaskLost

/-! Who joins a wait queue, and when: the executing task only, with the step after which its
call goes on to yield. -/
namespace CppRtos

/-- The queue that the calling task joins with this step, if the call goes on after it. -/
def Call.waitsIn : Call → Option WaitQueue
  | .semaphore s (.waitRegion _ _) => some (.semaphore s)
  | .mutex m (.acquireLoop _ _ _) => some (.mutex m)
  | .eventGroup g (.waitForEvents _ _) => some (.eventGroup g)
  | _ => none

theorem Fifo.mem_pointers_enqueue {n : ℕ} {q : Fifo (Option TaskPtr) n} (h : q.WellFormed)
    {x y : TaskPtr} (hy : y ∈ (q.enqueue (some x)).pointers) : y ∈ q.pointers ∨ y = x := by
  by_cases hs : q.size < n
  · rw [pointers_enqueue h x hs, List.mem_append, List.mem_singleton] at hy
    exact hy
  · rw [enqueue_of_full q _ hs] at hy
    exact .inl hy

namespace Semaphore
variable {k : Kernel} {s : Semaphore} (h : s.waitingQueue.Plain)
include h

theorem mem_signalRegion {u : TaskPtr}
    (hu : u ∈ (signalRegion k s).2.waitingQueue.pointers) : u ∈ s.waitingQueue.pointers := by
  by_cases hs : s.waitingQueue.size = 0
  · rw [signalRegion_of_empty hs] at hu
    dsimp only at hu
    split_ifs at hu <;> exact hu
  · rw [signalRegion_of_queued (by omega)] at hu
    exact Fifo.mem_pointers_dequeue h.toWellFormed hu

theorem not_mem_flushRegion (u : TaskPtr) :
    u ∉ (flushRegion k s).2.1.waitingQueue.pointers := by
  obtain ⟨q, -, hnil, hr⟩ := flushRegion_eq k h.toWellFormed
  rw [hr]
  dsimp only
  rw [Fifo.pointers, hnil]
  exact List.not_mem_nil

theorem mem_step {c : Call} {u : TaskPtr} (hu : u ∈ (step k s c).2.1.waitingQueue.pointers) :
    u ∈ s.waitingQueue.pointers ∨
      (u = k.currentTask ∧ ∃ n e, c = .waitRegion n e ∧ (step k s c).2.2 = .next .waitYield) := by
  cases c with
  | wait n =>
    simp only [step] at hu
    split_ifs at hu <;> exact .inl hu
  | waitRegion n e =>
    simp only [step] at hu ⊢
    obtain ⟨-, hr⟩ | ⟨-, hr⟩ | ⟨-, hr⟩ := waitRegion_cases k s n e <;> rw [hr] at hu ⊢
    · exact .inl hu
    · exact .inl hu
    · rcases Fifo.mem_pointers_enqueue h.toWellFormed hu with hin | rfl
      · exact .inl hin
      · exact .inr ⟨rfl, n, e, rfl, rfl⟩
  | signal => exact .inl (mem_signalRegion h hu)
  | flush => exact absurd hu (not_mem_flushRegion h u)
  | waitYield | waitReturn | signalReady | signalWord | signalBitmap | signalYield
  | signalReturn => exact .inl hu

end Semaphore

namespace EventGroup
variable {k : Kernel} {g : EventGroup} (h : g.waitingTasks.Plain) (h0 : g.waitingTasks.head = 0)
include h h0

theorem mem_setRegion (hd : g.waitingTasks.pointers.Nodup) (f : BitVec 32) {u : TaskPtr}
    (hu : u ∈ (setRegion k g f).2.waitingTasks.pointers) : u ∈ g.waitingTasks.pointers := by
  obtain ⟨r, hr, hs⟩ := setRegion_swept k h h0 hd f
  rw [hr] at hu
  dsimp only at hu
  rw [hs.pointers, List.take_zero, List.drop_zero, List.nil_append] at hu
  exact List.mem_of_mem_filter hu

theorem mem_step (hd : g.waitingTasks.pointers.Nodup) {c : Call} {u : TaskPtr}
    (hu : u ∈ (step k g c).2.1.waitingTasks.pointers) : u ∈ g.waitingTasks.pointers ∨
      (u = k.currentTask ∧
        ∃ f n, c = .waitForEvents f n ∧ (step k g c).2.2.call?.isSome = true) := by
  cases c with
  | waitForEvents f n =>
    simp only [step] at hu ⊢
    obtain ⟨-, hr⟩ | ⟨-, -, hr⟩ | ⟨-, -, hr⟩ := waitRegion_cases k g f n <;> rw [hr] at hu ⊢
    · exact .inl hu
    · exact .inl hu
    · rcases Fifo.mem_pointers_enqueue h.toWellFormed hu with hin | rfl
      · exact .inl hin
      · exact .inr ⟨rfl, f, n, rfl, rfl⟩
  | waitLoop f e p =>
    simp only [step] at hu
    obtain ⟨b, -, -, hr⟩ | ⟨-, -, hr⟩ := loopRegion_cases k g f e p <;> rw [hr] at hu
    · obtain ⟨-, -, hp⟩ := removeTask_spec p g.waitingTasks.getSize 0 h h0 le_rfl (by simp)
      dsimp only at hu
      rw [hp] at hu
      exact .inl (List.mem_of_mem_erase hu)
    · exact .inl hu
  | setEvents f =>
    simp only [step] at hu
    exact .inl (mem_setRegion h h0 hd f hu)
  | waitYield | setYield | setReturn | clearEvents =>
    simp only [step, clearRegion] at hu
    exact .inl hu

end EventGroup

namespace Objects
variable {o : Objects} {t u : TaskPtr} {c : Call} {q : WaitQueue} {L : Set TaskPtr}

theorem mem_update {Q : Queues} {q' : WaitQueue} {f : Fifo (Option TaskPtr) maxTasks}
    (hu : u ∈ (Function.update Q q' f q).pointers) :
    (q = q' ∧ u ∈ f.pointers) ∨ u ∈ (Q q).pointers := by
  by_cases hq : q = q'
  · subst hq
    rw [Function.update_self] at hu
    exact .inl ⟨rfl, hu⟩
  · rw [Function.update_of_ne hq] at hu
    exact .inr hu

theorem mem_step (h : Placed o.kernel o.queues L) (hcur : o.kernel.currentTask = t)
    (hn : c.Names t) (hu : u ∈ ((o.step c).1.queues q).pointers) : u ∈ (o.queues q).pointers ∨
      (u = t ∧ c.waitsIn = some q ∧ (o.step c).2.call?.isSome = true) := by
  cases c with
  | task c => exact .inl hu
  | semaphore s c =>
    simp only [step, queues_setSemaphore, Outcome.call?_map] at hu ⊢
    rcases mem_update hu with ⟨rfl, hin⟩ | hin
    · rcases Semaphore.mem_step (h.plain (.semaphore s)) hin with hin | ⟨rfl, n, e, rfl, hr⟩
      · exact .inl hin
      · refine .inr ⟨hcur, rfl, ?_⟩
        rw [hr]
        rfl
    · exact .inl hin
  | mutex m c =>
    simp only [step, queues_setMutex, Outcome.call?_map] at hu ⊢
    rcases mem_update hu with ⟨rfl, hin⟩ | hin
    · rcases Mutex.Waiting.mem_step (h.plain (.mutex m)) hin with hin | ⟨f, e, rfl, hr⟩
      · exact .inl hin
      · refine .inr ⟨hn, rfl, ?_⟩
        rw [hr]
        rfl
    · exact .inl hin
  | eventGroup g c =>
    simp only [step, queues_setEventGroup, Outcome.call?_map] at hu ⊢
    rcases mem_update hu with ⟨rfl, hin⟩ | hin
    · rcases EventGroup.mem_step (h.plain (.eventGroup g)) (h.head g) (h.nodup (.eventGroup g)) hin
        with hin | ⟨rfl, f, n, rfl, hr⟩
      · exact .inl hin
      · refine .inr ⟨hcur, rfl, ?_⟩
        rw [Option.isSome_map]
        exact hr
    · exact .inl hin

theorem mem_isr (h : Placed o.kernel o.queues L) {c : IsrCall}
    (hu : u ∈ ((o.isr c).queues q).pointers) : u ∈ (o.queues q).pointers := by
  cases c with
  | signal s =>
    simp only [isr, queues_setSemaphore] at hu
    rcases mem_update hu with ⟨rfl, hin⟩ | hin
    · exact Semaphore.mem_signalRegion (h.plain (.semaphore s)) hin
    · exact hin
  | flush s =>
    simp only [isr, queues_setSemaphore] at hu
    rcases mem_update hu with ⟨rfl, hin⟩ | hin
    · exact absurd hin (Semaphore.not_mem_flushRegion (h.plain (.semaphore s)) u)
    · exact hin
  | setEvents g f =>
    simp only [isr, queues_setEventGroup] at hu
    rcases mem_update hu with ⟨rfl, hin⟩ | hin
    · exact EventGroup.mem_setRegion (h.plain (.eventGroup g)) (h.head g)
        (h.nodup (.eventGroup g)) f hin
    · exact hin
  | clearEvents g f =>
    simp only [isr, queues_setEventGroup] at hu
    rcases mem_update hu with ⟨rfl, hin⟩ | hin
    · exact hin
    · exact hin

theorem mem_interrupt (h : Placed o.kernel o.queues L) {e : Interrupt}
    (hu : u ∈ ((o.interrupt e).queues q).pointers) : u ∈ (o.queues q).pointers := by
  cases e with
  | isr c => exact mem_isr h hu
  | pendSV => exact hu
  | sysTick => exact hu
  | addTask t => exact hu

theorem queues_kernel (o : Objects) (k : Kernel) :
    ({ o with kernel := k } : Objects).queues = o.queues := by
  funext q
  cases q <;> rfl

/-- Before a `yield` the calling task may be in a queue; it stays there and goes on. -/
theorem step_beforeYield (o : Objects) {c : Call} (hb : c.beforeYield = true) :
    (o.step c).1.queues = o.queues ∧ c.waitsIn = none ∧ (o.step c).2.call?.isSome = true := by
  cases c with
  | task c =>
    simp only [step, queues_kernel]
    cases c <;> cases hb
    exact ⟨trivial, rfl, rfl⟩
  | semaphore s c =>
    simp only [step, queues_setSemaphore]
    cases c <;> cases hb <;> exact ⟨Function.update_eq_self (.semaphore s) o.queues, rfl, rfl⟩
  | mutex m c =>
    simp only [step, queues_setMutex]
    cases c <;> cases hb
    exact ⟨Function.update_eq_self (.mutex m) o.queues, rfl, rfl⟩
  | eventGroup g c =>
    simp only [step, queues_setEventGroup]
    cases c <;> cases hb
    exact ⟨Function.update_eq_self (.eventGroup g) o.queues, rfl, rfl⟩

theorem Governed.not_mem {s : system.State} (h : system.Governed s) (hc : s.call t = some c)
    (hr : Runs t s.shared) (hb : c.beforeYield = false) (q : WaitQueue) :
    t ∉ (s.shared.queues q).pointers := by
  obtain ⟨-, hpend | ⟨c', hc', hb'⟩ | hrun⟩ := h.proceeds hc hr
  · rw [hr.2] at hpend
    cases hpend
  · obtain rfl := Option.some.inj hc'
    rw [hb] at hb'
    cases hb'
  · refine h.placed.not_mem ?_ q
    rw [hrun]
    decide

end Objects

end CppRtos
