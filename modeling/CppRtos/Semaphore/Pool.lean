import CppRtos.Semaphore.Conservation
import Mathlib.Algebra.BigOperators.Group.Finset.Piecewise
import Mathlib.Algebra.Order.BigOperators.Group.Finset

/-! A semaphore whose tokens stand for resources: every task gives a token back only after it has
got one. -/
namespace CppRtos.Semaphore
open scoped BigOperators

/-- The tokens of each task: those of its successful waits less those it has signalled. -/
abbrev Holding := TaskPtr → ℕ

def Holding.after (h : Holding) (t : TaskPtr) (c : Call) (o : Outcome Call SemResult) : Holding :=
  match c with
  | .waitRegion _ _ | .waitReturn =>
    if o = .ret .success then Function.update h t (h t + 1) else h
  | .signal => Function.update h t (h t - 1)
  | _ => h

def observeHolding (e : Event) (s _s' : State) (h : Holding) : Holding :=
  match e with
  | .exec t =>
    match s.call t with
    | some c => h.after t c (step s.shared.kernel s.shared.semaphore c).2.2
    | none => h
  | _ => h

/-- Runs of the tasks with the tokens that they hold. -/
def pooling (tasks : Finset TaskPtr) : Machine (State × Holding) Event :=
  (protocol tasks).machine.withHistory observeHolding

instance (tasks : Finset TaskPtr) : ∀ e s, Decidable ((pooling tasks).guard e s) := fun e s =>
  inferInstanceAs (Decidable ((protocol tasks).machine.guard e s.1))

/-- A task signals only while it holds a token; nothing flushes, and no interrupt signals. -/
def Returns (e : Event) (s : State × Holding) : Prop :=
  match e with
  | .invoke t c => c ≠ .flush ∧ (c = .signal → 0 < s.2 t)
  | .exec _ => True
  | .env (.schedule _) => True
  | .env _ => False

instance : ∀ e s, Decidable (Returns e s)
  | .invoke t c, s => inferInstanceAs (Decidable (c ≠ .flush ∧ (c = .signal → 0 < s.2 t)))
  | .exec _, _ => inferInstanceAs (Decidable True)
  | .env (.schedule _), _ => inferInstanceAs (Decidable True)
  | .env .signal, _ => inferInstanceAs (Decidable False)
  | .env .flush, _ => inferInstanceAs (Decidable False)

/-- The tokens that a task holds, with a place in the queue or a token on its way to it. -/
def claims (s : State × Holding) (t : TaskPtr) : ℕ :=
  s.2 t + (s.1.shared.history.inWait t).toNat

/-- Every token is held, on its way or free; a place in the queue is a claim without a token. -/
structure Pooled (tasks : Finset TaskPtr) (initialCount : ℕ) (s : State × Holding) : Prop where
  balance : ∑ t ∈ tasks, claims s t + s.1.shared.semaphore.count =
    initialCount + s.1.shared.semaphore.waitingQueue.size
  signals : ∀ t, s.1.call t = some .signal → 0 < s.2 t
  no_flush : ∀ t, s.1.call t ≠ some .flush

theorem step_not_entry (k : Kernel) (sem : Semaphore) {c c' : Call}
    (h : (step k sem c).2.2.call? = some c') : c'.isEntry = false := by
  cases c with
  | wait n =>
    simp only [step] at h
    split_ifs at h
    · cases h
    · obtain rfl := Option.some.inj h
      rfl
  | waitRegion n e =>
    simp only [step] at h
    obtain ⟨-, hr⟩ | ⟨-, hr⟩ | ⟨-, hr⟩ := waitRegion_cases k sem n e <;> rw [hr] at h
    · cases h
    · cases h
    · obtain rfl := Option.some.inj h
      rfl
  | signal =>
    simp only [step] at h
    split_ifs at h
    · cases h
    · obtain rfl := Option.some.inj h
      rfl
  | flush =>
    simp only [step] at h
    split_ifs at h
    · obtain rfl := Option.some.inj h
      rfl
    · cases h
  | signalWord p =>
    simp only [step] at h
    split_ifs at h <;>
      · obtain rfl := Option.some.inj h
        rfl
  | waitYield | signalReady | signalBitmap | signalYield =>
    obtain rfl := Option.some.inj h
    rfl
  | waitReturn | signalReturn => cases h

/-- The invariant of the semaphore and of every task that uses it. -/
abbrev Served (tasks : Finset TaskPtr) (maxCount initialCount : ℕ) (s : State) : Prop :=
  Protocol.Holds (fun s => ∃ order, Queued tasks maxCount initialCount s order) (Local tasks) s

theorem sum_change {tasks : Finset TaskPtr} {t : TaskPtr} (ht : t ∈ tasks) {f g : TaskPtr → ℕ}
    (h : ∀ u, u ≠ t → g u = f u) : ∑ u ∈ tasks, g u + f t = ∑ u ∈ tasks, f u + g t := by
  have hrest : ∑ u ∈ tasks \ {t}, g u = ∑ u ∈ tasks \ {t}, f u :=
    Finset.sum_congr rfl fun u hu => h u fun he => (Finset.mem_sdiff.mp hu).2
      (Finset.mem_singleton.mpr he)
  rw [Finset.sum_eq_add_sum_sdiff_singleton_of_mem ht g,
    Finset.sum_eq_add_sum_sdiff_singleton_of_mem ht f, hrest]
  omega

section
variable {tasks : Finset TaskPtr} {maxCount initialCount : ℕ} {s : State × Holding} {t : TaskPtr}

theorem Holding.after_of_ne (h : Holding) {u : TaskPtr} (c : Call) (o : Outcome Call SemResult)
    (hu : u ≠ t) : h.after t c o u = h u := by
  unfold after
  split
  · split_ifs
    · exact Function.update_of_ne hu _ _
    · rfl
  · split_ifs
    · exact Function.update_of_ne hu _ _
    · rfl
  · exact Function.update_of_ne hu _ _
  · rfl

/-- A step changes the claims of its task as much as the tokens that are free and the places in
the queue. -/
theorem balance_step (hcard : tasks.card ≤ maxTasks) (hmax : initialCount ≤ maxCount)
    {order : List TaskPtr} (hq : Queued tasks maxCount initialCount s.1.shared order) {c : Call}
    (hl : Local tasks t (some c) s.1.shared)
    (hbal : ∑ u ∈ tasks, claims s u + s.1.shared.semaphore.count =
      initialCount + s.1.shared.semaphore.waitingQueue.size)
    (hsig : c = .signal → 0 < s.2 t) (hflush : c ≠ .flush)
    {r : Kernel × Semaphore × Outcome Call SemResult}
    (hr : step s.1.shared.kernel s.1.shared.semaphore c = r) :
    s.2.after t c r.2.2 t +
        ((s.1.shared.history.after t s.1.shared.semaphore c r.2.2).inWait t).toNat +
        r.2.1.count + s.1.shared.semaphore.waitingQueue.size =
      claims s t + s.1.shared.semaphore.count + r.2.1.waitingQueue.size := by
  have hmem : t ∈ tasks := hl.2 (by simp)
  unfold claims
  cases c with
  | wait n =>
    simp only [step] at hr
    split_ifs at hr <;> subst hr
    · rfl
    · rfl
  | waitRegion n e =>
    have hout : s.1.shared.history.inWait t = false :=
      hl.inWait_eq_false (by simp) (by simp)
    obtain ⟨hc, hw⟩ | ⟨hc, hw⟩ | ⟨hc, hw⟩ :=
      waitRegion_cases s.1.shared.kernel s.1.shared.semaphore n e
    · obtain rfl := hr.symm.trans hw
      simp [Holding.after, History.after]
      omega
    · obtain rfl := hr.symm.trans hw
      simp [Holding.after, History.after]
    · have hnot : t ∉ order := fun hm => by simp [((hq.blocked t).mp hm).1] at hout
      have hroom := hq.room hcard hmem hnot
      obtain rfl := hr.symm.trans hw
      simp [Holding.after, History.after, History.block, Fifo.enqueue, hroom, hout]
      omega
  | waitYield | signalReady | signalWord | signalBitmap | signalYield | signalReturn =>
    subst hr
    rfl
  | waitReturn =>
    have htrue : s.1.shared.history.inWait t = true := hl.1.mpr (.inr rfl)
    subst hr
    simp [step, Holding.after, History.after, htrue]
  | signal =>
    have hheld : 0 < s.2 t := hsig rfl
    have hr₁ : r.2.1 = (signalRegion s.1.shared.kernel s.1.shared.semaphore).2 := by
      subst hr
      rfl
    rw [hr₁]
    by_cases hs : 0 < s.1.shared.semaphore.waitingQueue.size
    · rw [signalRegion_of_queued hs]
      simp [Holding.after, History.after, History.signal, Fifo.dequeue, hs]
      omega
    · have hempty : s.1.shared.semaphore.waitingQueue.size = 0 := by omega
      have hone := Finset.single_le_sum (fun u _ => Nat.zero_le (claims s u)) hmem
      have hroom : s.1.shared.semaphore.count < s.1.shared.semaphore.maxCount := by
        have hclaims : s.2 t ≤ claims s t := Nat.le_add_right _ _
        rw [hq.maxCount_eq]
        omega
      rw [signalRegion_of_empty hempty, if_pos hroom]
      simp [Holding.after, History.after, History.signal]
      omega
  | flush => exact absurd rfl hflush

theorem Pooled.apply (hcard : tasks.card ≤ maxTasks) (hmax : initialCount ≤ maxCount)
    (hs : Served tasks maxCount initialCount s.1) (h : Pooled tasks initialCount s) {e : Event}
    (hg : (pooling tasks).guard e s) (he : Returns e s) :
    Pooled tasks initialCount ((pooling tasks).apply e s) := by
  cases e with
  | invoke t c =>
    refine ⟨h.balance, fun u hu => ?_, fun u hu => ?_⟩
    · change Function.update s.1.call t (some c) u = some .signal at hu
      by_cases hut : u = t
      · subst hut
        rw [Function.update_self] at hu
        exact he.2 (Option.some.inj hu)
      · rw [Function.update_of_ne hut] at hu
        exact h.signals u hu
    · change Function.update s.1.call t (some c) u = some .flush at hu
      by_cases hut : u = t
      · subst hut
        rw [Function.update_self] at hu
        exact he.1 (Option.some.inj hu)
      · rw [Function.update_of_ne hut] at hu
        exact h.no_flush u hu
  | env e =>
    cases e with
    | schedule k' => exact ⟨h.balance, h.signals, h.no_flush⟩
    | signal => exact he.elim
    | flush => exact he.elim
  | exec t =>
    obtain ⟨order, hq⟩ := hs.1
    obtain ⟨c, hc, -⟩ := Protocol.call_of_guard (P := protocol tasks) hg
    have hl := hs.2 t
    rw [hc] at hl
    have hstep := balance_step hcard hmax hq hl h.balance (fun hsig => h.signals t (hsig ▸ hc))
      (fun hf => h.no_flush t (hf ▸ hc)) rfl
    have hnext : (pooling tasks).apply (.exec t) s =
        (⟨((protocol tasks).step t c s.1.shared).1,
          Function.update s.1.call t ((protocol tasks).step t c s.1.shared).2.call?⟩,
        s.2.after t c (step s.1.shared.kernel s.1.shared.semaphore c).2.2) := by
      simp only [pooling, Machine.withHistory, Protocol.machine, Protocol.apply, observeHolding,
        hc]
    have hcall : ∀ u d, d.isEntry = true →
        Function.update s.1.call t ((protocol tasks).step t c s.1.shared).2.call? u = some d →
        u ≠ t ∧ s.1.call u = some d := by
      intro u d hd hu
      by_cases hut : u = t
      · subst hut
        rw [Function.update_self] at hu
        rw [step_not_entry _ _ hu] at hd
        cases hd
      · rw [Function.update_of_ne hut] at hu
        exact ⟨hut, hu⟩
    rw [hnext]
    refine ⟨?_, fun u hu => ?_, fun u hu => ?_⟩
    · have hsum := sum_change (t := t) (hl.2 (by simp)) (f := claims s)
        (g := claims ((pooling tasks).apply (.exec t) s)) fun u hu => by
          rw [hnext]
          exact congrArg₂ (· + ·) (s.2.after_of_ne c _ hu)
            (congrArg Bool.toNat (inWait_after _ t u _ c _ hu))
      rw [hnext] at hsum
      have hbal := h.balance
      change ∑ u ∈ tasks, claims s u + s.1.shared.semaphore.count = _ at hbal
      change ∑ u ∈ tasks, claims _ u + (step s.1.shared.kernel s.1.shared.semaphore c).2.1.count =
        initialCount + (step s.1.shared.kernel s.1.shared.semaphore c).2.1.waitingQueue.size
      change _ = _ + (s.2.after t c (step s.1.shared.kernel s.1.shared.semaphore c).2.2 t +
        ((s.1.shared.history.after t s.1.shared.semaphore c
          (step s.1.shared.kernel s.1.shared.semaphore c).2.2).inWait t).toNat) at hsum
      omega
    · obtain ⟨hut, hold⟩ := hcall u .signal rfl hu
      change 0 < s.2.after t c _ u
      rw [s.2.after_of_ne c _ hut]
      exact h.signals u hold
    · exact h.no_flush u (hcall u .flush rfl hu).2

theorem pooled_reached (hcard : tasks.card ≤ maxTasks) (hmax : initialCount ≤ maxCount) (k : Kernel)
    {es : List Event}
    (h : ((pooling tasks).restrict Returns).Valid (start maxCount initialCount k, fun _ => 0) es) :
    let s := (pooling tasks).exec (start maxCount initialCount k, fun _ => 0) es
    Served tasks maxCount initialCount s.1 ∧ Pooled tasks initialCount s := by
  have hserved : ∀ fs, ((pooling tasks).restrict Returns).Valid
      (start maxCount initialCount k, fun _ => 0) fs → Served tasks maxCount initialCount
        ((pooling tasks).exec (start maxCount initialCount k, fun _ => 0) fs).1 := by
    intro fs hfs
    have hfree := (Machine.valid_restrict_true _ _ _).mp (hfs.imp fun _ _ _ => trivial)
    unfold pooling
    rw [Machine.exec_withHistory_fst]
    exact queued_reached hcard k ((Machine.valid_withHistory _ _ _ _).mp hfree)
  refine ⟨hserved es h, Machine.invariant_of_reached (M := (pooling tasks).restrict Returns)
    (J := fun s => Served tasks maxCount initialCount s.1) hserved ?_ ?_ h⟩
  · rintro e s hs hp ⟨hg, he⟩
    exact hp.apply hcard hmax hs hg he
  · refine ⟨?_, nofun, nofun⟩
    simp [claims, start, Protocol.start, new, Fifo.new]

end

/-- A token is on its way to a task that has been woken and has not gone on yet. -/
def OnItsWay (s : State) (t : TaskPtr) : Prop :=
  (s.call t = some .waitYield ∨ s.call t = some .waitReturn) ∧
    s.shared.kernel.getState t ≠ .eBlocked

instance (s : State) : DecidablePred (OnItsWay s) := fun _ =>
  inferInstanceAs (Decidable (_ ∧ _))

/-- The tasks in the points behind the region are the queued ones and those with a token on its
way. -/
theorem inWait_eq_size {tasks : Finset TaskPtr} {maxCount initialCount : ℕ} {s : State}
    (h : Served tasks maxCount initialCount s) :
    ∑ t ∈ tasks, (s.shared.history.inWait t).toNat =
      s.shared.semaphore.waitingQueue.size + (tasks.filter (OnItsWay s)).card := by
  obtain ⟨⟨order, hq⟩, hl⟩ := h
  have hin : ∑ t ∈ tasks, (s.shared.history.inWait t).toNat =
      (tasks.filter fun t => s.shared.history.inWait t = true).card := by
    rw [Finset.card_filter]
    refine Finset.sum_congr rfl fun t _ => ?_
    cases s.shared.history.inWait t <;> rfl
  have hqueued : ((tasks.filter fun t => s.shared.history.inWait t = true).filter
      fun t => s.shared.kernel.getState t = .eBlocked) = order.toFinset := by
    ext t
    rw [Finset.mem_filter, Finset.mem_filter, List.mem_toFinset, hq.blocked t, and_assoc]
    exact and_iff_right_of_imp fun ht => hq.members t ((hq.blocked t).mpr ht)
  have hway : ((tasks.filter fun t => s.shared.history.inWait t = true).filter
      fun t => ¬ s.shared.kernel.getState t = .eBlocked) = tasks.filter (OnItsWay s) := by
    rw [Finset.filter_filter]
    refine Finset.filter_congr fun t _ => ?_
    unfold OnItsWay
    rw [(hl t).1]
  rw [hin, ← Finset.card_filter_add_card_filter_not
    (fun t => s.shared.kernel.getState t = .eBlocked), hqueued, hway,
    List.toFinset_card_of_nodup hq.nodup, hq.size]

/-- If every task signals only while it holds a token, the tokens that are held, those on their
way to a woken task and the free ones are always those of the beginning: no more tasks than that
are ever inside the sections between `wait` and `signal`, no token is lost, and a task is left
blocked only while none is free. -/
theorem pool_conserved (tasks : Finset TaskPtr) (hcard : tasks.card ≤ maxTasks)
    (maxCount initialCount : ℕ) (hmax : initialCount ≤ maxCount) (k : Kernel) (es : List Event)
    (h : ((pooling tasks).restrict Returns).Valid (start maxCount initialCount k, fun _ => 0) es) :
    let s := (pooling tasks).exec (start maxCount initialCount k, fun _ => 0) es
    ∑ t ∈ tasks, s.2 t + (tasks.filter (OnItsWay s.1)).card + s.1.shared.semaphore.count =
        initialCount ∧
      ∀ t, Blocked s.1 t → s.1.shared.semaphore.count = 0 := by
  obtain ⟨hserved, hpooled⟩ := pooled_reached hcard hmax k h
  intro s
  constructor
  · have hbal : ∑ t ∈ tasks, (s.2 t + (s.1.shared.history.inWait t).toNat) +
        s.1.shared.semaphore.count = initialCount + s.1.shared.semaphore.waitingQueue.size :=
      hpooled.balance
    have hwait : ∑ t ∈ tasks, (s.1.shared.history.inWait t).toNat =
        s.1.shared.semaphore.waitingQueue.size + (tasks.filter (OnItsWay s.1)).card :=
      inWait_eq_size hserved
    rw [Finset.sum_add_distrib, hwait] at hbal
    omega
  · intro t ht
    obtain ⟨⟨order, hq⟩, hl⟩ := hserved
    have hm : t ∈ order := (hq.blocked t).mpr ⟨(hl t).1.mpr ht.1, ht.2⟩
    exact hq.count_zero (List.ne_nil_of_mem hm)

/-- Task 1 has the only token, and gives it to task 2. -/
theorem pool_conserved_handoff :
    let k (t : TaskPtr) : Kernel := { currentTask := t, idleTask := 0, taskData := fun _ => {} }
    let blocked : Kernel :=
      { currentTask := 1, idleTask := 0
        taskData := fun t => if t = 2 then { state := .eBlocked } else {} }
    let es : List Event :=
      [.invoke 1 (.wait 9), .exec 1, .exec 1, .env (.schedule (k 2)), .invoke 2 (.wait 9), .exec 2,
        .exec 2, .env (.schedule blocked), .invoke 1 .signal, .exec 1]
    let s := (pooling {1, 2}).exec (start 1 1 (k 1), fun _ => 0) es
    ∑ t ∈ {1, 2}, s.2 t + (({1, 2} : Finset TaskPtr).filter (OnItsWay s.1)).card +
        s.1.shared.semaphore.count = 1 ∧
      ∀ t, Blocked s.1 t → s.1.shared.semaphore.count = 0 :=
  pool_conserved {1, 2} (by decide) 1 1 le_rfl _ _ (by decide +kernel)

end CppRtos.Semaphore
