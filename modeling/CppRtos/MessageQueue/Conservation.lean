import CppRtos.MessageQueue

/-! Messages over runs of `send` and `receive` by tasks and interrupt handlers. The tests of
the buffer and the critical regions behind them are separate steps. -/
namespace CppRtos.MessageQueue
variable {α : Type*} {n : ℕ}

inductive Thread where
  | task (t : TaskPtr)
  | isr (number : ℕ)
deriving DecidableEq, Repr

/-- The messages whose `send` has returned success and those that `receive` has returned
with success, both in the order of these events. No step reads the lists. -/
structure Shared (α : Type*) (n : ℕ) where
  kernel : Kernel
  queue : MessageQueue α n
  sent : List α := []
  received : List α := []

def Call.message? : Call α → Option α
  | .send m _ | .sendMutex m _ _ _ | .sendEnd m _ | .sendLoop m _ _ | .sendTime m _ _
  | .sendYield m _ _ | .sendRegion m => some m
  | _ => none

def Call.isEntry : Call α → Bool
  | .send _ _ | .receive _ | .getNumMsg => true
  | _ => false

def sentAfter (sent : List α) (c : Call α) : Outcome (Call α) (Result α) → List α
  | .ret (.sent .success) => sent ++ c.message?.toList
  | _ => sent

def receivedAfter (received : List α) : Outcome (Call α) (Result α) → List α
  | .ret (.received .success m) => received ++ m.toList
  | _ => received

/-- Tasks execute when they are current and no interrupt is being handled. -/
def Executes : Thread → Kernel → Prop
  | .task t, k => k.currentTask = t ∧ k.isInsideInterrupt = false
  | .isr _, k => k.isInsideInterrupt = true

instance : ∀ t k, Decidable (Executes t k)
  | .task t, k => inferInstanceAs (Decidable (k.currentTask = t ∧ k.isInsideInterrupt = false))
  | .isr _, k => inferInstanceAs (Decidable (k.isInsideInterrupt = true))

/-- Between two steps the environment puts any kernel in place of the present one. -/
def protocol (α : Type*) (n : ℕ) [Inhabited α] :
    Protocol Thread (Shared α n) (Call α) (Result α) Kernel where
  entry t c s := Executes t s.kernel ∧ c.isEntry = true
  enabled t _ s := Executes t s.kernel
  step _ c s :=
    let r := step s.kernel s.queue c
    (⟨r.1, r.2.1, sentAfter s.sent c r.2.2, receivedAfter s.received r.2.2⟩, r.2.2)
  interferes _ _ := True
  interfere k s := { s with kernel := k }

abbrev State (α : Type*) (n : ℕ) := Config Thread (Shared α n) (Call α)
abbrev Event (α : Type*) := Protocol.Action Thread (Call α) Kernel

instance [Inhabited α] : ∀ t c s, Decidable ((protocol α n).entry t c s) := fun t c s =>
  inferInstanceAs (Decidable (Executes t s.kernel ∧ c.isEntry = true))

instance [Inhabited α] : ∀ t c s, Decidable ((protocol α n).enabled t c s) := fun t _ s =>
  inferInstanceAs (Decidable (Executes t s.kernel))

instance [Inhabited α] : ∀ k s, Decidable ((protocol α n).interferes k s) := fun _ _ =>
  inferInstanceAs (Decidable True)

def start [Inhabited α] (k : Kernel) : State α n := Protocol.start { kernel := k, queue := new }

/-- Every sent message has been received or is queued, none twice, and in order. -/
def Conserved (s : State α n) : Prop :=
  s.shared.sent = s.shared.received ++ s.shared.queue.queue.toList

instance [DecidableEq α] (s : State α n) : Decidable (Conserved s) :=
  inferInstanceAs (Decidable (_ = _))

/-- A critical region is entered with room for the message, or with a message to take. -/
def Fits : Event α → State α n → Prop
  | .exec t, s => match s.call t with
    | some (.sendRegion _) => s.shared.queue.queue.size < n
    | some .receiveRegion => 0 < s.shared.queue.queue.size
    | _ => True
  | _, _ => True

/-! ## One event -/

theorem step_lists [Inhabited α] (k : Kernel) (q : MessageQueue α n) {c : Call α}
    (hs : ∀ m, c ≠ .sendRegion m) (hr : c ≠ .receiveRegion) (sent received : List α) :
    sentAfter sent c (step k q c).2.2 = sent ∧
      receivedAfter received (step k q c).2.2 = received := by
  cases c with
  | sendRegion m => exact absurd rfl (hs m)
  | receiveRegion => exact absurd rfl hr
  | send m t =>
    simp only [step, sendStart]
    split_ifs <;> exact ⟨rfl, rfl⟩
  | sendMutex m t use c =>
    simp only [step, sendMutex]
    cases (Mutex.step k q.mtx c).2.2 with
    | next c' => exact ⟨rfl, rfl⟩
    | ret r =>
      cases use <;>
        · simp only [sendMutexReturn]
          split_ifs <;> exact ⟨rfl, rfl⟩
  | sendEnd m t => exact ⟨rfl, rfl⟩
  | sendLoop m t e => simp only [step]; split_ifs <;> exact ⟨rfl, rfl⟩
  | sendTime m t e => simp only [step]; split_ifs <;> exact ⟨rfl, rfl⟩
  | sendYield m t e => exact ⟨rfl, rfl⟩
  | receive t => simp only [step]; split_ifs <;> exact ⟨rfl, rfl⟩
  | receiveEnd t => exact ⟨rfl, rfl⟩
  | receiveLoop t e => simp only [step]; split_ifs <;> exact ⟨rfl, rfl⟩
  | receiveTime t e => simp only [step]; split_ifs <;> exact ⟨rfl, rfl⟩
  | receiveYield t e => exact ⟨rfl, rfl⟩
  | getNumMsg => exact ⟨rfl, rfl⟩

section
variable [Inhabited α] {s : State α n} {t : Thread} {c : Call α}

theorem exec_fields (hc : s.call t = some c) :
    ((protocol α n).machine.apply (.exec t) s).shared.queue =
        (step s.shared.kernel s.shared.queue c).2.1 ∧
      ((protocol α n).machine.apply (.exec t) s).shared.sent =
        sentAfter s.shared.sent c (step s.shared.kernel s.shared.queue c).2.2 ∧
      ((protocol α n).machine.apply (.exec t) s).shared.received =
        receivedAfter s.shared.received (step s.shared.kernel s.shared.queue c).2.2 := by
  simp only [Protocol.machine, Protocol.apply, hc]
  exact ⟨rfl, rfl, rfl⟩

theorem step_sendRegion (k : Kernel) (q : MessageQueue α n) (m : α) :
    (step k q (.sendRegion m)).2 =
      ({ q with queue := q.queue.enqueue m }, .ret (.sent .success)) := rfl

theorem step_receiveRegion (k : Kernel) (q : MessageQueue α n) :
    (step k q .receiveRegion).2 =
      ({ q with queue := q.queue.dequeue.2 },
        .ret (.received .success (some q.queue.dequeue.1))) := rfl

theorem wellFormed_apply (e : Event α) (hw : s.shared.queue.queue.WellFormed) :
    ((protocol α n).machine.apply e s).shared.queue.queue.WellFormed := by
  cases e with
  | invoke t c => exact hw
  | env k => exact hw
  | exec t =>
    cases hc : s.call t with
    | none => simpa only [Protocol.machine, Protocol.apply, hc] using hw
    | some c =>
      rw [(exec_fields hc).1]
      by_cases hs : ∃ m, c = .sendRegion m
      · obtain ⟨m, rfl⟩ := hs
        exact hw.enqueue m
      · by_cases hr : c = .receiveRegion
        · subst hr
          exact hw.dequeue
        · rw [step_queue _ _ (fun m hm => hs ⟨m, hm⟩) hr]
          exact hw

theorem conserved_send_iff (hw : s.shared.queue.queue.WellFormed) (h : Conserved s) (m : α)
    (hc : s.call t = some (.sendRegion m)) :
    Conserved ((protocol α n).machine.apply (.exec t) s) ↔ s.shared.queue.queue.size < n := by
  obtain ⟨h1, h2, h3⟩ := exec_fields hc
  rw [Conserved, h1, h2, h3, step_sendRegion]
  simp only [sentAfter, receivedAfter, Call.message?, Option.toList]
  rw [Conserved] at h
  constructor
  · intro he
    by_contra hfull
    rw [Fifo.enqueue_of_full _ _ hfull, ← h] at he
    simp at he
  · intro hroom
    rw [Fifo.toList_enqueue hw m hroom, h, List.append_assoc]

theorem conserved_receive_iff (hw : s.shared.queue.queue.WellFormed) (h : Conserved s)
    (hc : s.call t = some .receiveRegion) :
    Conserved ((protocol α n).machine.apply (.exec t) s) ↔ 0 < s.shared.queue.queue.size := by
  obtain ⟨h1, h2, h3⟩ := exec_fields hc
  rw [Conserved, h1, h2, h3, step_receiveRegion]
  simp only [sentAfter, receivedAfter, Option.toList]
  rw [Conserved] at h
  constructor
  · intro he
    by_contra hempty
    rw [Fifo.dequeue_of_empty hempty, h] at he
    simp at he
  · intro hsome
    rw [h, Fifo.toList_dequeue hw hsome, List.append_assoc, List.singleton_append]

theorem conserved_apply_iff (e : Event α) (hw : s.shared.queue.queue.WellFormed)
    (h : Conserved s) (hg : (protocol α n).machine.guard e s) :
    Conserved ((protocol α n).machine.apply e s) ↔ Fits e s := by
  cases e with
  | invoke t c => exact iff_of_true h trivial
  | env k => exact iff_of_true h trivial
  | exec t =>
    obtain ⟨c, hc, -⟩ := Protocol.call_of_guard hg
    by_cases hs : ∃ m, c = .sendRegion m
    · obtain ⟨m, rfl⟩ := hs
      rw [conserved_send_iff hw h m hc, Fits, hc]
    · by_cases hr : c = .receiveRegion
      · subst hr
        rw [conserved_receive_iff hw h hc, Fits, hc]
      · have hs' : ∀ m, c ≠ .sendRegion m := fun m hm => hs ⟨m, hm⟩
        obtain ⟨h1, h2, h3⟩ := exec_fields hc
        obtain ⟨hsent, hreceived⟩ := step_lists s.shared.kernel s.shared.queue hs' hr
          s.shared.sent s.shared.received
        refine iff_of_true ?_ ?_
        · rw [Conserved, h1, h2, h3, hsent, hreceived, step_queue _ _ hs' hr]
          exact h
        · rw [Fits, hc]
          cases c <;> simp_all

end

/-! ## Runs -/

/-- In every state of a run all messages are accounted for, if and only if every critical
region of the run is entered with room, or with a message, at that moment. -/
theorem messages_conserved_iff (α : Type*) [Inhabited α] (n : ℕ) (hn : 0 < n) (k : Kernel)
    (es : List (Event α)) (hv : (protocol α n).machine.Valid (start k) es) :
    (∀ fs, fs <+: es → Conserved ((protocol α n).machine.exec (start k) fs)) ↔
      ((protocol α n).machine.restrict Fits).Valid (start k) es :=
  Machine.forall_prefix_iff (I := fun s => s.shared.queue.queue.WellFormed)
    (fun e _ hw _ _ _ => wellFormed_apply e hw) (fun e _ hw h hg => conserved_apply_iff e hw h hg)
    (.new hn) rfl hv

def kernelOf (t : TaskPtr) : Kernel := { currentTask := t, idleTask := 0, taskData := fun _ => {} }

/-- Tasks 1 and 2 both see the last free place before either of them fills it. -/
def raceRun : List (Event ℕ) :=
  [.env (kernelOf 1), .invoke (.task 1) (.send 7 0), .exec (.task 1),
    .env (kernelOf 2), .invoke (.task 2) (.send 8 0), .exec (.task 2), .exec (.task 2),
    .env (kernelOf 1), .exec (.task 1)]

/-- Both of these calls return success, and one of the messages is lost. -/
theorem raceRun_not_conserved :
    (protocol ℕ 1).machine.Valid (start (kernelOf 0)) raceRun ∧
      ((protocol ℕ 1).machine.exec (start (kernelOf 0)) raceRun).shared.sent = [8, 7] ∧
      ((protocol ℕ 1).machine.exec (start (kernelOf 0)) raceRun).shared.received = [] ∧
      ((protocol ℕ 1).machine.exec (start (kernelOf 0)) raceRun).shared.queue.queue.toList = [8] ∧
      ¬ Conserved ((protocol ℕ 1).machine.exec (start (kernelOf 0)) raceRun) := by
  decide +kernel

/-- With two places the same run loses nothing. -/
theorem messages_conserved_two :
    (∀ fs, fs <+: raceRun → Conserved ((protocol ℕ 2).machine.exec (start (kernelOf 0)) fs)) ↔
      ((protocol ℕ 2).machine.restrict Fits).Valid (start (kernelOf 0)) raceRun :=
  messages_conserved_iff ℕ 2 (by decide) (kernelOf 0) raceRun (by decide +kernel)

end CppRtos.MessageQueue
