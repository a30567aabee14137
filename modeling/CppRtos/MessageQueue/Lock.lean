import CppRtos.MessageQueue.Conservation
import CppRtos.Mutex.Exclusion

/-! The mutex of a message queue. A `send` that finds the queue full takes it, and frees and
takes it again in every round of its loop; it does not free it when the loop ends. -/
namespace CppRtos.MessageQueue
variable {α : Type*} {n : ℕ}

/-- The points of `send` between a success of `acquire` and the release that follows in the same
round of the loop. -/
def Call.holdsMutex : Call α → Bool
  | .sendEnd _ _ | .sendLoop _ _ _ | .sendMutex _ _ _ .release | .sendMutex _ _ _ .releaseOwner
  | .sendMutex _ _ _ (.releaseRegion _) => true
  | _ => false

def Call.inInterrupt : Call α → Bool
  | .send _ _ | .sendRegion _ | .receive _ | .getNumMsg => true
  | _ => false

def MutexUse.isRelease : MutexUse → Bool
  | .release _ => true
  | _ => false

/-- The points of the mutex that `send` comes to for task `t`, with its locals. -/
def MutexPoint (t : TaskPtr) (use : MutexUse) : Mutex.Call → Prop
  | .acquire _ => use.isRelease = false
  | .acquireStart _ p | .acquireLoop _ _ p | .acquireYield _ _ p => use.isRelease = false ∧ p = t
  | .release | .releaseOwner | .releaseYield | .releaseReturn => use.isRelease = true
  | .releaseRegion p => use.isRelease = true ∧ p = t

/-- The owner of the mutex is inside a `send`, before a release that this call still makes, and
without an owner the mutex is free. -/
structure Released (s : State α n) : Prop where
  owner : ∀ t, s.shared.queue.mtx.owner = some t →
    (s.call (.task t)).any Call.holdsMutex = true
  count : 0 < s.shared.queue.mtx.count → s.shared.queue.mtx.owner ≠ none

def Call.isLoop : Call α → Bool
  | .sendLoop _ _ _ => true
  | _ => false

/-- A `send` that has found the queue full finds it full whenever it tests it again. -/
def StillFull : Event α → State α n → Prop
  | .exec t, s => (s.call t).any Call.isLoop = true → s.shared.queue.queue.isFull = true
  | _, _ => True

instance : ∀ (e : Event α) (s : State α n), Decidable (StillFull e s)
  | .exec t, s => inferInstanceAs (Decidable
      ((s.call t).any Call.isLoop = true → s.shared.queue.queue.isFull = true))
  | .invoke _ _, _ => inferInstanceAs (Decidable True)
  | .env _, _ => inferInstanceAs (Decidable True)

/-! ## The invariant -/

def Counted (s : Shared α n) : Prop :=
  (s.queue.mtx.count = 0 ∧ s.queue.mtx.owner = none) ∨
    (s.queue.mtx.count = 1 ∧ ∃ t, s.queue.mtx.owner = some t)

/-- A task owns the mutex exactly at the points that hold it. -/
def Local : Thread → Option (Call α) → Shared α n → Prop
  | .task t, c, s =>
    (s.queue.mtx.owner = some t ↔ c.any Call.holdsMutex = true) ∧
      ∀ m timeout use mc, c = some (.sendMutex m timeout use mc) → MutexPoint t use mc
  | .isr _, c, _ => ∀ c', c = some c' → c'.inInterrupt = true

theorem step_mtx [Inhabited α] (k : Kernel) (q : MessageQueue α n) {c : Call α}
    (h : ∀ m timeout use mc, c ≠ .sendMutex m timeout use mc) : (step k q c).2.1.mtx = q.mtx := by
  cases c with
  | sendMutex m timeout use mc => exact absurd rfl (h m timeout use mc)
  | send m t => rfl
  | sendEnd m t => rfl
  | sendLoop m t e => simp only [step]; split_ifs <;> rfl
  | sendTime m t e => simp only [step]; split_ifs <;> rfl
  | sendYield m t e => rfl
  | sendRegion m => rfl
  | receive t => simp only [step]; split_ifs <;> rfl
  | receiveEnd t => rfl
  | receiveLoop t e => simp only [step]; split_ifs <;> rfl
  | receiveTime t e => simp only [step]; split_ifs <;> rfl
  | receiveYield t e => rfl
  | receiveRegion => rfl
  | getNumMsg => rfl

/-- A round of `acquire` takes the free mutex or leaves it. -/
theorem acquireLoop_cases (k : Kernel) (m : Mutex) (f : Bool) (e : ℕ) (p : TaskPtr) :
    (m.count ≤ 0 ∧ (Mutex.step k m (.acquireLoop f e p)).2.1.count = m.count + 1 ∧
      (Mutex.step k m (.acquireLoop f e p)).2.1.owner = some p ∧
      (Mutex.step k m (.acquireLoop f e p)).2.2 = .ret .success) ∨
    (0 < m.count ∧ (Mutex.step k m (.acquireLoop f e p)).2.1.count = m.count ∧
      (Mutex.step k m (.acquireLoop f e p)).2.1.owner = m.owner ∧
      ((Mutex.step k m (.acquireLoop f e p)).2.2 = .ret .timeout ∨
        (Mutex.step k m (.acquireLoop f e p)).2.2 = .next (.acquireYield f e p))) := by
  simp only [Mutex.step]
  obtain ⟨hc, hr⟩ | ⟨hc, -, hr⟩ | ⟨hc, -, -, hr⟩ | ⟨hc, -, -, hr⟩ :=
    Mutex.acquireRegion_cases k m f e p
  · rw [hr]
    exact .inl ⟨hc, rfl, rfl, rfl⟩
  · rw [hr]
    exact .inr ⟨hc, rfl, rfl, .inl rfl⟩
  · rw [hr]
    exact .inr ⟨hc, rfl, rfl, .inr rfl⟩
  · rw [hr]
    exact .inr ⟨hc, rfl, rfl, .inr rfl⟩

/-- What the mutex, the owner and the call of the executing task are after a step of it. -/
structure Stepped (t : TaskPtr) (s s' : Shared α n) (c : Option (Call α)) : Prop where
  counted : Counted s'
  others : ∀ u, u ≠ t → (s'.queue.mtx.owner = some u ↔ s.queue.mtx.owner = some u)
  keeps : Local (.task t) c s'

theorem Stepped.of_same {t : TaskPtr} {s s' : Shared α n} {c c' : Option (Call α)}
    (hI : Counted s) (hL : Local (.task t) c s)
    (hm : s'.queue.mtx.count = s.queue.mtx.count ∧ s'.queue.mtx.owner = s.queue.mtx.owner)
    (hh : c'.any Call.holdsMutex = c.any Call.holdsMutex)
    (hp : ∀ m timeout use mc, c' = some (.sendMutex m timeout use mc) → MutexPoint t use mc) :
    Stepped t s s' c' := by
  refine ⟨?_, ?_, ?_, hp⟩
  · unfold Counted at hI ⊢
    rwa [hm.1, hm.2]
  · intro u _
    rw [hm.2]
  · rw [hm.2, hh]
    exact hL.1

/-! ## The calls of the mutex -/

theorem sendMutexReturn_holds (m : α) (timeout : ℕ) (use : MutexUse) (r : Mutex.MutexResult) :
    (sendMutexReturn m timeout use r).call?.any Call.holdsMutex =
      (!use.isRelease && decide (r = .success)) := by
  cases use with
  | firstAcquire =>
    unfold sendMutexReturn
    dsimp only
    split_ifs <;> simp_all [MutexUse.isRelease, Call.holdsMutex]
  | release e =>
    unfold sendMutexReturn
    dsimp only
    split_ifs <;> rfl
  | acquireAgain e =>
    unfold sendMutexReturn
    dsimp only
    split_ifs <;> simp_all [MutexUse.isRelease, Call.holdsMutex]

theorem sendMutexReturn_next (m : α) (timeout : ℕ) (use : MutexUse) (r : Mutex.MutexResult)
    (m' : α) (timeout' : ℕ) (use' : MutexUse) (mc : Mutex.Call) :
    (sendMutexReturn m timeout use r).call? ≠ some (.sendMutex m' timeout' use' mc) := by
  cases use <;> unfold sendMutexReturn <;> dsimp only <;> split_ifs <;> simp

section
variable [Inhabited α] {s : Shared α n} {t : TaskPtr} {m : α} {timeout : ℕ} {use : MutexUse}
  {mc mc' : Mutex.Call} {r : Mutex.MutexResult}

theorem step_sendMutex_next (h : (Mutex.step s.kernel s.queue.mtx mc).2.2 = .next mc') :
    ((protocol α n).step (.task t) (.sendMutex m timeout use mc) s).2.call? =
      some (.sendMutex m timeout use mc') := by
  simp only [protocol, step, sendMutex, h, Outcome.call?_next]

theorem step_sendMutex_ret (h : (Mutex.step s.kernel s.queue.mtx mc).2.2 = .ret r) :
    ((protocol α n).step (.task t) (.sendMutex m timeout use mc) s).2.call? =
      (sendMutexReturn m timeout use r).call? := by
  simp only [protocol, step, sendMutex, h]

theorem mtx_sendMutex :
    ((protocol α n).step (.task t) (.sendMutex m timeout use mc) s).1.queue.mtx =
      (Mutex.step s.kernel s.queue.mtx mc).2.1 := rfl

theorem Stepped.of_next (hI : Counted s)
    (hL : Local (.task t) (some (.sendMutex m timeout use mc)) s)
    (hm : (Mutex.step s.kernel s.queue.mtx mc).2.1.count = s.queue.mtx.count ∧
      (Mutex.step s.kernel s.queue.mtx mc).2.1.owner = s.queue.mtx.owner)
    (hr : (Mutex.step s.kernel s.queue.mtx mc).2.2 = .next mc')
    (hh : (Call.sendMutex m timeout use mc').holdsMutex =
      (Call.sendMutex m timeout use mc).holdsMutex) (hp : MutexPoint t use mc') :
    Stepped t s ((protocol α n).step (.task t) (.sendMutex m timeout use mc) s).1
      ((protocol α n).step (.task t) (.sendMutex m timeout use mc) s).2.call? := by
  rw [step_sendMutex_next hr]
  refine .of_same hI hL hm hh ?_
  rintro m' timeout' use' mc'' heq
  cases heq
  exact hp

theorem Stepped.of_ret (hI : Counted s)
    (hL : Local (.task t) (some (.sendMutex m timeout use mc)) s)
    (hm : (Mutex.step s.kernel s.queue.mtx mc).2.1.count = s.queue.mtx.count ∧
      (Mutex.step s.kernel s.queue.mtx mc).2.1.owner = s.queue.mtx.owner)
    (hr : (Mutex.step s.kernel s.queue.mtx mc).2.2 = .ret r)
    (hh : (!use.isRelease && decide (r = .success)) =
      (Call.sendMutex m timeout use mc).holdsMutex) :
    Stepped t s ((protocol α n).step (.task t) (.sendMutex m timeout use mc) s).1
      ((protocol α n).step (.task t) (.sendMutex m timeout use mc) s).2.call? := by
  rw [step_sendMutex_ret hr]
  refine .of_same hI hL hm ?_ ?_
  · rw [sendMutexReturn_holds, hh]
    rfl
  · intro m' timeout' use' mc' heq
    exact absurd heq (sendMutexReturn_next m timeout use r m' timeout' use' mc')

theorem stepped_acquireLoop {f : Bool} {e : ℕ} {p : TaskPtr} (hI : Counted s)
    (hL : Local (.task t) (some (.sendMutex m timeout use (.acquireLoop f e p))) s) :
    Stepped t s
      ((protocol α n).step (.task t) (.sendMutex m timeout use (.acquireLoop f e p)) s).1
      ((protocol α n).step (.task t)
        (.sendMutex m timeout use (.acquireLoop f e p)) s).2.call? := by
  obtain ⟨huse, hpt⟩ := hL.2 _ _ _ _ rfl
  obtain ⟨hc, hc', ho, hr⟩ | ⟨hc, hc', ho, hr | hr⟩ :=
    acquireLoop_cases s.kernel s.queue.mtx f e p
  · obtain ⟨h0, hnone⟩ : s.queue.mtx.count = 0 ∧ s.queue.mtx.owner = none := by
      rcases hI with h0 | h1
      · exact h0
      · omega
    rw [step_sendMutex_ret hr]
    constructor
    · refine .inr ⟨?_, p, ho⟩
      rw [mtx_sendMutex, hc', h0]
      rfl
    · intro u hu
      rw [mtx_sendMutex, ho, hnone, hpt]
      simp [Ne.symm hu]
    · constructor
      · rw [sendMutexReturn_holds, huse, mtx_sendMutex, ho, hpt]
        simp
      · intro m' timeout' use' mc' heq
        exact absurd heq (sendMutexReturn_next m timeout use _ m' timeout' use' mc')
  · refine .of_ret hI hL ⟨hc', ho⟩ hr ?_
    rw [huse]
    rfl
  · exact .of_next hI hL ⟨hc', ho⟩ hr rfl ⟨huse, hpt⟩

theorem stepped_releaseRegion {p : TaskPtr} (hI : Counted s)
    (hL : Local (.task t) (some (.sendMutex m timeout use (.releaseRegion p))) s) :
    Stepped t s
      ((protocol α n).step (.task t) (.sendMutex m timeout use (.releaseRegion p)) s).1
      ((protocol α n).step (.task t) (.sendMutex m timeout use (.releaseRegion p)) s).2.call? := by
  obtain ⟨huse, hpt⟩ := hL.2 _ _ _ _ rfl
  have howner : s.queue.mtx.owner = some t := hL.1.mpr rfl
  have hone : s.queue.mtx.count = 1 := by
    rcases hI with ⟨-, hnone⟩ | ⟨h1, -⟩
    · rw [hnone] at howner
      cases howner
    · exact h1
  obtain ⟨hc, ho⟩ := Mutex.releaseRegion_fields s.kernel s.queue.mtx p
  have hr : (Mutex.step s.kernel s.queue.mtx (.releaseRegion p)).2.2 = .next .releaseYield := rfl
  have hfree : ((protocol α n).step (.task t) (.sendMutex m timeout use (.releaseRegion p))
      s).1.queue.mtx.owner = none := ho
  rw [step_sendMutex_next hr]
  constructor
  · refine .inl ⟨?_, ho⟩
    rw [mtx_sendMutex]
    simp only [Mutex.step, hc, hone]
    rfl
  · intro u hu
    rw [hfree, howner]
    simp [Ne.symm hu]
  · constructor
    · rw [hfree]
      simp [Call.holdsMutex]
    · rintro m' timeout' use' mc' heq
      cases heq
      exact huse

theorem same_of_quiet (k : Kernel) (q : Mutex) {c : Mutex.Call}
    (ha : ∀ f e p, c ≠ .acquireLoop f e p) (hr : ∀ p, c ≠ .releaseRegion p) :
    (Mutex.step k q c).2.1.count = q.count ∧ (Mutex.step k q c).2.1.owner = q.owner := by
  rw [Mutex.step_mutex k q ha hr]
  exact ⟨rfl, rfl⟩

theorem stepped_sendMutex (hI : Counted s)
    (hL : Local (.task t) (some (.sendMutex m timeout use mc)) s)
    (he : Executes (.task t) s.kernel) :
    Stepped t s ((protocol α n).step (.task t) (.sendMutex m timeout use mc) s).1
      ((protocol α n).step (.task t) (.sendMutex m timeout use mc) s).2.call? := by
  obtain ⟨hcur, hinside⟩ := he
  have hpoint := hL.2 _ _ _ _ rfl
  cases mc with
  | acquire ticks =>
    have howner : s.queue.mtx.owner ≠ some s.kernel.currentTask := by
      rw [hcur]
      exact fun ho => absurd (hL.1.mp ho) Bool.false_ne_true
    have hr : (Mutex.step s.kernel s.queue.mtx (.acquire ticks)).2.2 =
        .next (.acquireStart ticks s.kernel.currentTask) := by
      simp only [Mutex.step]
      have hsame : ∀ b, (s.kernel.assert b).currentTask = s.kernel.currentTask := fun _ => rfl
      rw [hsame, if_neg howner]
    exact .of_next hI hL (same_of_quiet _ _ (by simp) (by simp)) hr rfl ⟨hpoint, hcur⟩
  | acquireStart ticks p =>
    have hr : (Mutex.step s.kernel s.queue.mtx (.acquireStart ticks p)).2.2 =
        .next (.acquireLoop (ticks == waitForever)
          ((ticks + s.kernel.getTickCount) % 2 ^ 64) p) := by
      simp only [Mutex.step]
      rw [hinside, if_neg Bool.false_ne_true]
    exact .of_next hI hL (same_of_quiet _ _ (by simp) (by simp)) hr rfl hpoint
  | acquireLoop f e p => exact stepped_acquireLoop hI hL
  | acquireYield f e p =>
    exact .of_next hI hL (same_of_quiet _ _ (by simp) (by simp)) rfl rfl hpoint
  | release =>
    have howner : s.queue.mtx.owner = some t := hL.1.mpr rfl
    have hr : (Mutex.step s.kernel s.queue.mtx .release).2.2 = .next .releaseOwner := by
      simp only [Mutex.step]
      have hsame : ∀ b, (s.kernel.assert b).isInsideInterrupt = s.kernel.isInsideInterrupt :=
        fun _ => rfl
      rw [hsame, hinside, howner, if_neg (by simp), if_neg Bool.false_ne_true]
    exact .of_next hI hL (same_of_quiet _ _ (by simp) (by simp)) hr rfl hpoint
  | releaseOwner =>
    have howner : s.queue.mtx.owner = some t := hL.1.mpr rfl
    have hr : (Mutex.step s.kernel s.queue.mtx .releaseOwner).2.2 =
        .next (.releaseRegion s.kernel.currentTask) := by
      simp only [Mutex.step]
      rw [hcur, if_pos howner]
    exact .of_next hI hL (same_of_quiet _ _ (by simp) (by simp)) hr rfl ⟨hpoint, hcur⟩
  | releaseRegion p => exact stepped_releaseRegion hI hL
  | releaseYield =>
    exact .of_next hI hL (same_of_quiet _ _ (by simp) (by simp)) rfl rfl hpoint
  | releaseReturn =>
    have huse : use.isRelease = true := hpoint
    refine .of_ret hI hL (same_of_quiet _ _ (by simp) (by simp)) rfl ?_
    rw [huse]
    rfl

/-! ## The other steps -/

theorem step_enters (k : Kernel) (q : MessageQueue α n) {c : Call α} {t : TaskPtr}
    (hc : ∀ m timeout use mc, c ≠ .sendMutex m timeout use mc)
    (h : (step k q c).2.2.call? = some (.sendMutex m timeout use mc)) : MutexPoint t use mc := by
  cases c with
  | sendMutex m timeout use mc => exact absurd rfl (hc m timeout use mc)
  | send m' timeout' =>
    simp only [step, sendStart] at h
    split_ifs at h <;> cases h
    rfl
  | sendLoop m' timeout' e =>
    simp only [step] at h
    split_ifs at h <;> cases h
    rfl
  | sendYield m' timeout' e =>
    cases h
    rfl
  | sendTime m' timeout' e => simp only [step] at h; split_ifs at h <;> cases h
  | receive timeout' => simp only [step] at h; split_ifs at h <;> cases h
  | receiveLoop timeout' e => simp only [step] at h; split_ifs at h <;> cases h
  | receiveTime timeout' e => simp only [step] at h; split_ifs at h <;> cases h
  | sendEnd _ _ | sendRegion _ | receiveEnd _ | receiveYield _ _ | receiveRegion | getNumMsg =>
    cases h

/-- Outside the mutex a call keeps to the points that hold it, or to those that do not, as long
as the loop finds the queue full. -/
theorem step_holds (k : Kernel) {q : MessageQueue α n} {c : Call α}
    (hc : ∀ m timeout use mc, c ≠ .sendMutex m timeout use mc)
    (hfull : ∀ m timeout e, c = .sendLoop m timeout e → q.queue.isFull = true) :
    (step k q c).2.2.call?.any Call.holdsMutex = c.holdsMutex := by
  cases c with
  | sendMutex m timeout use mc => exact absurd rfl (hc m timeout use mc)
  | sendLoop m timeout e =>
    simp only [step]
    rw [if_pos (hfull m timeout e rfl)]
    rfl
  | send m timeout => simp only [step, sendStart]; split_ifs <;> rfl
  | sendTime m timeout e => simp only [step]; split_ifs <;> rfl
  | receive timeout => simp only [step]; split_ifs <;> rfl
  | receiveLoop timeout e => simp only [step]; split_ifs <;> rfl
  | receiveTime timeout e => simp only [step]; split_ifs <;> rfl
  | sendEnd _ _ | sendYield _ _ _ | sendRegion _ | receiveEnd _ | receiveYield _ _
  | receiveRegion | getNumMsg => rfl

theorem stepped {c : Call α} (hI : Counted s) (hL : Local (.task t) (some c) s)
    (he : Executes (.task t) s.kernel)
    (hfull : ∀ m timeout e, c = .sendLoop m timeout e → s.queue.queue.isFull = true) :
    Stepped t s ((protocol α n).step (.task t) c s).1
      ((protocol α n).step (.task t) c s).2.call? := by
  by_cases hc : ∃ m timeout use mc, c = .sendMutex m timeout use mc
  · obtain ⟨m, timeout, use, mc, rfl⟩ := hc
    exact stepped_sendMutex hI hL he
  · have hne : ∀ m timeout use mc, c ≠ .sendMutex m timeout use mc :=
      fun m timeout use mc heq => hc ⟨m, timeout, use, mc, heq⟩
    have hmtx := step_mtx s.kernel s.queue hne
    refine .of_same hI hL ⟨congrArg Mutex.count hmtx, congrArg Mutex.owner hmtx⟩ ?_ ?_
    · exact step_holds s.kernel hne hfull
    · intro m timeout use mc hcall
      exact step_enters s.kernel s.queue hne hcall

theorem step_isr {c : Call α} {i : ℕ} (hc : c.inInterrupt = true)
    (he : Executes (.isr i) s.kernel) :
    (step s.kernel s.queue c).2.1.mtx = s.queue.mtx ∧
      ∀ c', (step s.kernel s.queue c).2.2.call? = some c' → c'.inInterrupt = true := by
  have hinside : s.kernel.isInsideInterrupt = true := he
  cases c with
  | send m timeout =>
    refine ⟨rfl, ?_⟩
    intro c' h
    simp only [step, sendStart] at h
    rw [hinside, if_pos rfl] at h
    split_ifs at h <;> cases h
    rfl
  | receive timeout =>
    refine ⟨step_mtx _ _ (by simp), ?_⟩
    intro c' h
    simp only [step] at h
    rw [hinside, if_pos rfl] at h
    cases h
  | sendRegion m =>
    refine ⟨rfl, ?_⟩
    intro c' h
    cases h
  | getNumMsg =>
    refine ⟨rfl, ?_⟩
    intro c' h
    cases h
  | sendMutex _ _ _ _ | sendEnd _ _ | sendLoop _ _ _ | sendTime _ _ _ | sendYield _ _ _
  | receiveEnd _ | receiveLoop _ _ | receiveTime _ _ | receiveYield _ _ | receiveRegion =>
    cases hc

end

/-! ## Runs -/

theorem Local.of_owner {t : Thread} {c : Option (Call α)} {s s' : Shared α n} (h : Local t c s)
    (ho : ∀ u, t = .task u → (s'.queue.mtx.owner = some u ↔ s.queue.mtx.owner = some u)) :
    Local t c s' := by
  cases t with
  | task u =>
    refine ⟨?_, h.2⟩
    rw [ho u rfl]
    exact h.1
  | isr i => exact h

/-- The invariant: the assertions on the mutex and on every thread. -/
def Synced (s : State α n) : Prop := Protocol.Holds Counted Local s

theorem Synced.released {s : State α n} (h : Synced s) : Released s := by
  refine ⟨fun t ho => (h.2 (.task t)).1.mp ho, ?_⟩
  intro hpos hnone
  rcases h.1 with ⟨hc, -⟩ | ⟨-, t, ht⟩
  · omega
  · rw [hnone] at ht
    cases ht

variable {s : State α n} {t : Thread} {c : Call α}

theorem stillFull_exec (hc : s.call t = some c) :
    StillFull (.exec t) s ↔ (c.isLoop = true → s.shared.queue.queue.isFull = true) := by
  rw [StillFull, hc, Option.any_some]

theorem isLoop_iff : c.isLoop = true ↔ ∃ m timeout e, c = .sendLoop m timeout e := by
  constructor
  · intro h
    cases c <;> first | exact ⟨_, _, _, rfl⟩ | cases h
  · rintro ⟨m, timeout, e, rfl⟩
    rfl

variable [Inhabited α]

/-- What a step of any thread leaves: its own assertion, and the other owners. -/
theorem synced_exec (h : Synced s) (hc : s.call t = some c) (he : Executes t s.shared.kernel)
    (hfull : StillFull (.exec t) s) :
    Counted ((protocol α n).step t c s.shared).1 ∧
      Local t ((protocol α n).step t c s.shared).2.call? ((protocol α n).step t c s.shared).1 ∧
      ∀ u, t ≠ .task u → (((protocol α n).step t c s.shared).1.queue.mtx.owner = some u ↔
        s.shared.queue.mtx.owner = some u) := by
  have hL := h.2 t
  rw [hc] at hL
  cases t with
  | task t =>
    have hloop : ∀ m timeout e, c = .sendLoop m timeout e → s.shared.queue.queue.isFull = true := by
      rintro m timeout e rfl
      exact (stillFull_exec hc).mp hfull rfl
    have hstep := stepped h.1 hL he hloop
    refine ⟨hstep.counted, hstep.keeps, ?_⟩
    intro u hu
    exact hstep.others u fun hut => hu (congrArg Thread.task hut.symm)
  | isr i =>
    obtain ⟨hmtx, hnext⟩ := step_isr (hL c rfl) he
    have howner : ((protocol α n).step (.isr i) c s.shared).1.queue.mtx = s.shared.queue.mtx := hmtx
    refine ⟨?_, hnext, ?_⟩
    · have hI := h.1
      unfold Counted at hI ⊢
      rwa [howner]
    · intro u _
      rw [howner]

theorem synced_apply {e : Event α} (h : Synced s) (hg : (protocol α n).machine.guard e s)
    (hfull : StillFull e s) : Synced ((protocol α n).machine.apply e s) := by
  refine Protocol.holds_apply (C := StillFull) ?_ ?_ ?_ ?_ h hg hfull
  · rintro t c s - hL ⟨-, hentry⟩
    cases t with
    | task t =>
      constructor
      · rw [hL.1]
        cases c <;> first | rfl | cases hentry
      · rintro m timeout use mc heq
        cases heq
        cases hentry
    | isr i =>
      rintro c' heq
      cases heq
      cases c <;> first | rfl | cases hentry
  · intro t c s hc hfull hs he
    obtain ⟨hcount, hlocal, -⟩ := synced_exec hs hc he hfull
    exact ⟨hcount, hlocal⟩
  · intro t c s u hc hfull hs he hu
    obtain ⟨-, -, hothers⟩ := synced_exec hs hc he hfull
    refine (hs.2 u).of_owner ?_
    rintro v rfl
    exact hothers v (Ne.symm hu)
  · intro k s _ hs _
    exact ⟨hs.1, fun u => (hs.2 u).of_owner fun _ _ => Iff.rfl⟩

theorem synced_start (k : Kernel) : Synced (start (α := α) (n := n) k) := by
  refine ⟨.inl ⟨rfl, rfl⟩, ?_⟩
  intro t
  cases t with
  | task t =>
    constructor
    · simp [start, Protocol.start, MessageQueue.new, Mutex.new]
    · rintro m timeout use mc heq
      cases heq
  | isr i =>
    rintro c heq
    cases heq

/-- A loop that finds room ends with the mutex in its hands. -/
theorem not_released_of_room {m : α} {timeout e : ℕ} {u : TaskPtr} (h : Synced s)
    (hc : s.call (.task u) = some (.sendLoop m timeout e))
    (hroom : ¬ s.shared.queue.queue.isFull = true) :
    ¬ Released ((protocol α n).machine.apply (.exec (.task u)) s) := by
  have hL := h.2 (.task u)
  rw [hc] at hL
  have howner : s.shared.queue.mtx.owner = some u := hL.1.mpr rfl
  have hstep : step s.shared.kernel s.shared.queue (.sendLoop m timeout e) =
      (s.shared.kernel, s.shared.queue, .next (.sendRegion m)) := by
    simp only [step]
    rw [if_neg hroom]
  intro hr
  have hholds := hr.owner u
  rw [(exec_fields hc).1, hstep] at hholds
  have hcall : ((protocol α n).machine.apply (.exec (.task u)) s).call (.task u) =
      some (.sendRegion m) := by
    simp only [Protocol.machine, Protocol.apply, hc, protocol, hstep, Function.update_self,
      Outcome.call?_next]
  rw [hcall] at hholds
  exact absurd (hholds howner) Bool.false_ne_true

theorem released_apply_iff {e : Event α} (h : Synced s) (hg : (protocol α n).machine.guard e s) :
    Released ((protocol α n).machine.apply e s) ↔ StillFull e s := by
  constructor
  · intro hr
    cases e with
    | invoke t c => trivial
    | env k => trivial
    | exec t =>
      intro hloop
      obtain ⟨c, hc, hc'⟩ := (Option.any_eq_true _ _).mp hloop
      obtain ⟨m, timeout, e, rfl⟩ := isLoop_iff.mp hc'
      cases t with
      | task u =>
        by_contra hroom
        exact not_released_of_room h hc hroom hr
      | isr i =>
        have hinterrupt := h.2 (.isr i) _ hc
        cases hinterrupt
  · intro hfull
    exact (synced_apply h hg hfull).released

/-- In every state of a run the owner of the mutex is a `send` that still releases it, exactly
if no `send` that has found the queue full ever finds room in its loop. -/
theorem released_iff (α : Type*) [Inhabited α] (n : ℕ) (k : Kernel) (es : List (Event α))
    (hv : (protocol α n).machine.Valid (start k) es) :
    (∀ fs, fs <+: es → Released ((protocol α n).machine.exec (start k) fs)) ↔
      ((protocol α n).machine.restrict StillFull).Valid (start k) es :=
  Machine.forall_prefix_iff (I := Synced)
    (fun _ _ h _ hg hr => synced_apply h hg ((released_apply_iff h hg).mp hr))
    (fun _ _ h _ hg => released_apply_iff h hg) (synced_start k) (synced_start k).released hv

/-- Task 1 fills the queue and waits for room. -/
def fillRun : List (Event ℕ) :=
  [.env (kernelOf 1), .invoke (.task 1) (.send 7 0), .exec (.task 1), .exec (.task 1),
    .invoke (.task 1) (.send 8 waitForever), .exec (.task 1), .exec (.task 1), .exec (.task 1),
    .exec (.task 1)]

/-- Task 2 makes room, and task 1 returns from `send`. -/
def roomRun : List (Event ℕ) :=
  fillRun ++ [.env (kernelOf 2), .invoke (.task 2) (.receive 0), .exec (.task 2),
    .exec (.task 2), .env (kernelOf 1), .exec (.task 1), .exec (.task 1)]

/-- As long as the queue stays full the mutex is released in every round. -/
theorem released_waiting :
    Released ((protocol ℕ 1).machine.exec (start (kernelOf 0))
      (fillRun ++ [.exec (.task 1), .exec (.task 1), .exec (.task 1)])) := by
  have hvalid : (protocol ℕ 1).machine.Valid (start (kernelOf 0))
      (fillRun ++ [.exec (.task 1), .exec (.task 1), .exec (.task 1)]) := by decide +kernel
  exact (released_iff ℕ 1 (kernelOf 0) _ hvalid).mpr (by decide +kernel) _ List.prefix_rfl

/-- Both messages have been sent, task 1 is outside any call and owns the mutex. Its next `send`
on the full queue is refused at once, although it would wait forever, and one of task 2 blocks. -/
theorem roomRun_keeps_mutex :
    let s := (protocol ℕ 1).machine.exec (start (kernelOf 0)) roomRun
    (protocol ℕ 1).machine.Valid (start (kernelOf 0)) roomRun ∧ s.shared.sent = [7, 8] ∧
      s.call (.task 1) = none ∧ s.shared.queue.mtx.owner = some 1 ∧
      (step s.shared.kernel s.shared.queue
        (.sendMutex 9 waitForever .firstAcquire (.acquire waitForever))).2.2 =
          .ret (.sent .timeout) ∧
      (step (kernelOf 2) s.shared.queue
        (.sendMutex 9 waitForever .firstAcquire (.acquireLoop true 0 2))).2.2 =
          .next (.sendMutex 9 waitForever .firstAcquire (.acquireYield true 0 2)) := by
  decide +kernel

end CppRtos.MessageQueue
