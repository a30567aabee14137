import CppRtos.Library.Serial
import CppRtos.MessageQueue.Conservation

/-! Message queues whose senders take turns, and whose receivers do. Senders and receivers still
run against each other; no message is lost then. -/
namespace CppRtos.MessageQueue
variable {α : Type*} {n : ℕ}

def Call.isSend (c : Call α) : Bool := c.message?.isSome

def Call.isReceive : Call α → Bool
  | .receive _ | .receiveEnd _ | .receiveLoop _ _ | .receiveTime _ _ | .receiveYield _ _
  | .receiveRegion => true
  | _ => false

/-- One `send` at a time and one `receive` at a time. -/
def TakeTurns (e : Event α) (s : State α n) : Prop :=
  Protocol.BeginsAlone Call.isSend e s ∧ Protocol.BeginsAlone Call.isReceive e s

/-- A region is entered after a test that found room, or a message. -/
def Call.Tested (q : MessageQueue α n) : Call α → Prop
  | .sendRegion _ => q.queue.isFull = false
  | .receiveRegion => q.queue.isEmpty = false
  | _ => True

/-- A call stays a call of its kind. -/
structure Leads (q : MessageQueue α n) (c c' : Call α) : Prop where
  isSend : c'.isSend = c.isSend
  isReceive : c'.isReceive = c.isReceive
  tested : c'.Tested q

theorem next_of_mutexReturn {m : α} {t : ℕ} {use : MutexUse} {r : Mutex.MutexResult} {c' : Call α}
    (h : (sendMutexReturn m t use r).call? = some c') : ∃ e, c' = .sendEnd m t ∨
      c' = .sendLoop m t e ∨ c' = .sendTime m t e ∨ c' = .sendYield m t e := by
  cases use with
  | firstAcquire =>
    simp only [sendMutexReturn] at h
    split_ifs at h
    · cases h
    · exact ⟨0, .inr (.inl (Option.some.inj h).symm)⟩
    · exact ⟨0, .inl (Option.some.inj h).symm⟩
  | release e =>
    simp only [sendMutexReturn] at h
    split_ifs at h
    · exact ⟨e, .inr (.inr (.inr (Option.some.inj h).symm))⟩
    · exact ⟨e, .inr (.inr (.inl (Option.some.inj h).symm))⟩
  | acquireAgain e =>
    simp only [sendMutexReturn] at h
    split_ifs at h
    · cases h
    · exact ⟨e, .inr (.inl (Option.some.inj h).symm)⟩

theorem leads_of_next [Inhabited α] (k : Kernel) (q : MessageQueue α n) {c c' : Call α}
    (h : (step k q c).2.2.call? = some c') : Leads q c c' := by
  cases c with
  | send m t =>
    simp only [step, sendStart] at h
    split_ifs at h with hi hf hf ht
    · cases h
    · obtain rfl := Option.some.inj h
      exact ⟨rfl, rfl, Bool.eq_false_iff.mpr hf⟩
    · cases h
    · obtain rfl := Option.some.inj h
      exact ⟨rfl, rfl, trivial⟩
    · obtain rfl := Option.some.inj h
      exact ⟨rfl, rfl, Bool.eq_false_iff.mpr hf⟩
  | sendMutex m t use mc =>
    simp only [step, sendMutex] at h
    cases hr : (Mutex.step k q.mtx mc).2.2 with
    | next mc' =>
      rw [hr] at h
      obtain rfl := Option.some.inj h
      exact ⟨rfl, rfl, trivial⟩
    | ret r =>
      rw [hr] at h
      obtain ⟨e, rfl | rfl | rfl | rfl⟩ := next_of_mutexReturn h <;>
        exact ⟨rfl, rfl, trivial⟩
  | sendLoop m t e =>
    simp only [step] at h
    split_ifs at h with hf
    · obtain rfl := Option.some.inj h
      exact ⟨rfl, rfl, trivial⟩
    · obtain rfl := Option.some.inj h
      exact ⟨rfl, rfl, Bool.eq_false_iff.mpr hf⟩
  | receive t =>
    simp only [step] at h
    split_ifs at h with hi he ht hw
    · cases h
    · cases h
    · obtain rfl := Option.some.inj h
      exact ⟨rfl, rfl, trivial⟩
    · obtain rfl := Option.some.inj h
      exact ⟨rfl, rfl, trivial⟩
    · obtain rfl := Option.some.inj h
      exact ⟨rfl, rfl, Bool.eq_false_iff.mpr he⟩
  | receiveLoop t e =>
    simp only [step] at h
    split_ifs at h with he hw
    · obtain rfl := Option.some.inj h
      exact ⟨rfl, rfl, trivial⟩
    · obtain rfl := Option.some.inj h
      exact ⟨rfl, rfl, trivial⟩
    · obtain rfl := Option.some.inj h
      exact ⟨rfl, rfl, Bool.eq_false_iff.mpr he⟩
  | sendTime m t e | receiveTime t e =>
    simp only [step] at h
    split_ifs at h
    · cases h
    · obtain rfl := Option.some.inj h
      exact ⟨rfl, rfl, trivial⟩
  | sendRegion m | receiveRegion | getNumMsg => cases h
  | sendEnd m t | sendYield m t e | receiveEnd t | receiveYield t e =>
    obtain rfl := Option.some.inj h
    exact ⟨rfl, rfl, trivial⟩

/-- A region is about to be entered with room for its message, or with a message to take. -/
def Call.Fitting (n size : ℕ) : Call α → Prop
  | .sendRegion _ => size < n
  | .receiveRegion => 0 < size
  | _ => True

/-- While senders and receivers take turns, what a test has found stays true until the region
behind it. -/
structure Turns (s : State α n) : Prop where
  wellFormed : s.shared.queue.queue.WellFormed
  senders : Protocol.Serial Call.isSend s
  receivers : Protocol.Serial Call.isReceive s
  fitting : ∀ t c, s.call t = some c → c.Fitting n s.shared.queue.queue.size

theorem Turns.fits {s : State α n} (h : Turns s) (e : Event α) : Fits e s := by
  cases e with
  | exec t =>
    cases hc : s.call t with
    | none => simp only [Fits, hc]
    | some c =>
      have hfit := h.fitting t c hc
      cases c with
      | sendRegion m => simpa only [Fits, hc, Call.Fitting] using hfit
      | receiveRegion => simpa only [Fits, hc, Call.Fitting] using hfit
      | _ => simp only [Fits, hc]
  | _ => trivial

section
variable [Inhabited α] {s : State α n} {t u : Thread} {c d : Call α}

theorem fitting_of_next (k : Kernel) {q : MessageQueue α n} (hw : q.queue.WellFormed)
    (h : (step k q c).2.2.call? = some d) : d.Fitting n (step k q c).2.1.queue.size := by
  have hl := leads_of_next k q h
  have hq : (step k q c).2.1.queue = q.queue := by
    refine step_queue k q ?_ ?_
    · rintro m rfl
      cases h
    · rintro rfl
      cases h
  rw [hq]
  cases d with
  | sendRegion m =>
    have hfull : ¬ q.queue.size = n := by simpa [Call.Tested, Fifo.isFull] using hl.tested
    have hle := hw.size_le
    change q.queue.size < n
    omega
  | receiveRegion =>
    have hempty : ¬ q.queue.size = 0 := by simpa [Call.Tested, Fifo.isEmpty] using hl.tested
    change 0 < q.queue.size
    omega
  | _ => trivial

/-- Other threads only make room for a sender, and only bring messages for a receiver. -/
theorem Turns.fitting_other (h : Turns s) (hc : s.call t = some c) (hd : s.call u = some d)
    (hu : u ≠ t) : d.Fitting n (step s.shared.kernel s.shared.queue c).2.1.queue.size := by
  have hfit := h.fitting u d hd
  have hw := h.wellFormed.size_le
  by_cases hs : ∃ m, c = .sendRegion m
  · obtain ⟨m, rfl⟩ := hs
    have hroom : s.shared.queue.queue.size < n := h.fitting t _ hc
    rw [step_sendRegion, Fifo.enqueue, if_pos hroom]
    cases d with
    | sendRegion m' => exact absurd (h.senders u t (by rw [hd]; rfl) (by rw [hc]; rfl)) hu
    | receiveRegion => exact Nat.succ_pos _
    | _ => trivial
  · by_cases hr : c = .receiveRegion
    · subst hr
      have hpos : 0 < s.shared.queue.queue.size := h.fitting t _ hc
      rw [step_receiveRegion, Fifo.dequeue, if_pos hpos]
      cases d with
      | sendRegion m' =>
        change s.shared.queue.queue.size - 1 < n
        omega
      | receiveRegion => exact absurd (h.receivers u t (by rw [hd]; rfl) (by rw [hc]; rfl)) hu
      | _ => trivial
    · rwa [step_queue _ _ (fun m hm => hs ⟨m, hm⟩) hr]

theorem turns_apply {e : Event α} (h : Turns s) (hg : (protocol α n).machine.guard e s)
    (ht : TakeTurns e s) : Turns ((protocol α n).machine.apply e s) := by
  have hnext : ∀ t c (s : Shared α n) c', ((protocol α n).step t c s).2.call? = some c' →
      Leads s.queue c c' := fun t c s c' hc => leads_of_next s.kernel s.queue hc
  have hsenders := Protocol.serial_apply (P := protocol α n) (K := Call.isSend)
    (fun t c s c' hc hK => (hnext t c s c' hc).isSend ▸ hK) h.senders ht.1
  have hreceivers := Protocol.serial_apply (P := protocol α n) (K := Call.isReceive)
    (fun t c s c' hc hK => (hnext t c s c' hc).isReceive ▸ hK) h.receivers ht.2
  refine ⟨wellFormed_apply e h.wellFormed, hsenders, hreceivers, fun u d hu => ?_⟩
  cases e with
  | invoke v c =>
    change Function.update s.call v (some c) u = some d at hu
    by_cases huv : u = v
    · subst huv
      rw [Function.update_self] at hu
      obtain rfl := Option.some.inj hu
      have hentry : c.isEntry = true := hg.2.2
      cases c with
      | sendRegion m => exact absurd hentry Bool.false_ne_true
      | receiveRegion => exact absurd hentry Bool.false_ne_true
      | _ => trivial
    · rw [Function.update_of_ne huv] at hu
      exact h.fitting u d hu
  | env k => exact h.fitting u d hu
  | exec v =>
    obtain ⟨c, hc, -⟩ := Protocol.call_of_guard hg
    rw [(exec_fields hc).1]
    simp only [Protocol.machine, Protocol.apply, hc] at hu
    by_cases huv : u = v
    · subst huv
      rw [Function.update_self] at hu
      exact fitting_of_next _ h.wellFormed hu
    · rw [Function.update_of_ne huv] at hu
      exact h.fitting_other hc hu huv

end

/-- While senders take turns and receivers take turns, no message is lost, duplicated or
reordered, whatever the interleaving of a sender with a receiver: the messages received are a
prefix of those sent, and at most `n` are still on their way. -/
theorem conserved_of_turns (α : Type*) [Inhabited α] (n : ℕ) (hn : 0 < n) (k : Kernel)
    (es : List (Event α)) (hv : ((protocol α n).machine.restrict TakeTurns).Valid (start k) es) :
    let s := ((protocol α n).machine.exec (start k) es).shared
    s.sent = s.received ++ s.queue.queue.toList ∧ s.sent.length ≤ s.received.length + n := by
  intro s
  have hall : Turns ((protocol α n).machine.exec (start k) es) ∧
      Conserved ((protocol α n).machine.exec (start k) es) := by
    refine Machine.invariant (M := (protocol α n).machine.restrict TakeTurns)
      (I := fun s => Turns s ∧ Conserved s) ?_ ⟨?_, rfl⟩ hv
    · rintro e s ⟨ht, hc⟩ ⟨hg, htake⟩
      exact ⟨turns_apply ht hg htake, (conserved_apply_iff e ht.wellFormed hc hg).mpr (ht.fits e)⟩
    · exact ⟨.new hn, Protocol.serial_start _ _, Protocol.serial_start _ _, nofun⟩
  have hsent : s.sent = s.received ++ s.queue.queue.toList := hall.2
  refine ⟨hsent, ?_⟩
  have hsize : s.queue.queue.size ≤ n := hall.1.wellFormed.size_le
  rw [hsent, List.length_append, Fifo.length_toList]
  omega

/-- Task 2 waits for the message that task 1 is about to send. -/
def turnsRun : List (Event ℕ) :=
  [.invoke (.task 1) (.send 7 0), .exec (.task 1), .env (kernelOf 2),
    .invoke (.task 2) (.receive waitForever), .exec (.task 2), .env (kernelOf 1), .exec (.task 1),
    .env (kernelOf 2), .exec (.task 2), .exec (.task 2)]

theorem conserved_of_turns_two :
    ((protocol ℕ 1).machine.exec (start (kernelOf 1)) turnsRun).shared.received = [7] ∧
      ((protocol ℕ 1).machine.exec (start (kernelOf 1)) turnsRun).shared.sent =
        [7] ++ ((protocol ℕ 1).machine.exec (start (kernelOf 1))
          turnsRun).shared.queue.queue.toList := by
  have hv : ((protocol ℕ 1).machine.restrict TakeTurns).Valid (start (kernelOf 1)) turnsRun := by
    have hboth : ∀ {e : Event ℕ} {s : State ℕ 1}, (∀ t c, e ≠ .invoke t c) → TakeTurns e s := by
      intro e s he
      cases e with
      | invoke t c => exact absurd rfl (he t c)
      | _ => exact ⟨trivial, trivial⟩
    refine ⟨⟨by decide, fun _ _ => rfl, nofun⟩, ⟨by decide, hboth nofun⟩, ⟨by decide, hboth nofun⟩,
      ⟨by decide, nofun, fun _ u => ?_⟩, ⟨by decide, hboth nofun⟩, ⟨by decide, hboth nofun⟩,
      ⟨by decide, hboth nofun⟩, ⟨by decide, hboth nofun⟩, ⟨by decide, hboth nofun⟩,
      ⟨by decide, hboth nofun⟩, trivial⟩
    by_cases hu : u = .task 1
    · subst hu
      decide
    · change (Function.update (Function.update (fun _ => none) (.task 1) _) (.task 1) _ u).any _ = _
      rw [Function.update_of_ne hu, Function.update_of_ne hu]
      rfl
  exact ⟨by decide +kernel, (conserved_of_turns ℕ 1 (by decide) (kernelOf 1) turnsRun hv).1⟩

end CppRtos.MessageQueue
