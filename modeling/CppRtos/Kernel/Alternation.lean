import CppRtos.Kernel.TimeSlice
import CppRtos.Library.Machine
import Mathlib.Algebra.Ring.Parity

/-! Which tasks get the processor while all of them only compute: ticks lead to switches, and
every switch leaves the task that was running. -/
namespace CppRtos.Kernel

/-- The next tick wakes no task, and no alarm is registered. -/
def Quiet (k : Kernel) : Prop :=
  (∀ i < 32, k.alarms i = none) ∧
    ∀ i < maxTasks, k.sleepingTasksBitmap.getLsbD i = true →
      k.port.incrementTickCount.tickCount < k.taskWakeUpTimes i

instance (k : Kernel) : Decidable k.Quiet := inferInstanceAs (Decidable (_ ∧ _))

/-- What interrupts tasks that only compute. -/
inductive Interruption where
  | sysTick
  | pendSV
deriving DecidableEq, Repr

def computing : Machine Kernel Interruption where
  guard
    | .sysTick, k => k.Quiet
    | .pendSV, _ => True
  apply
    | .sysTick, k => k.sysTickHandler
    | .pendSV, k => k.pendSVHandler

instance : ∀ e k, Decidable (computing.guard e k)
  | .sysTick, k => inferInstanceAs (Decidable k.Quiet)
  | .pendSV, _ => inferInstanceAs (Decidable True)

/-- A registered task above the idle level that is ready, or is running now. -/
structure Contends (k : Kernel) (t : TaskPtr) : Prop where
  registered : k.Registered t
  aboveIdle : k.AboveIdle t
  runnable : k.getState t = .eReady ∨ k.getState k.currentTask = .eRunning ∧ t = k.currentTask

/-! ## Steps that leave the schedule alone -/
section
variable {k k' : Kernel} {t u : TaskPtr}

theorem SameParameters.precedes (h : SameParameters k k') :
    k'.Precedes t u ↔ k.Precedes t u := by
  unfold Precedes
  rw [h.priority, h.priority, h.id, h.id]

theorem SameParameters.aboveIdle (h : SameParameters k k') : k'.AboveIdle t ↔ k.AboveIdle t := by
  unfold AboveIdle
  rw [h.priority]

theorem SameSchedule.next (h : SameSchedule k k') (hn : k.Next t) : k'.Next t where
  registered := (h.registered t).mpr hn.registered
  ready := (h.getState t).trans hn.ready
  aboveIdle := h.aboveIdle.mpr hn.aboveIdle
  first u hu hready := by
    rw [h.getState] at hready
    exact h.precedes.mpr (hn.first u ((h.registered u).mp hu) hready)

theorem SameSchedule.contends (h : SameSchedule k k') : k'.Contends t ↔ k.Contends t := by
  have hrun : k'.getState t = .eReady ∨
      k'.getState k'.currentTask = .eRunning ∧ t = k'.currentTask ↔
      k.getState t = .eReady ∨ k.getState k.currentTask = .eRunning ∧ t = k.currentTask := by
    rw [h.getState, h.getState, h.currentTask]
  exact ⟨fun hc => ⟨(h.registered t).mp hc.registered, h.aboveIdle.mp hc.aboveIdle,
      hrun.mp hc.runnable⟩,
    fun hc => ⟨(h.registered t).mpr hc.registered, h.aboveIdle.mpr hc.aboveIdle,
      hrun.mpr hc.runnable⟩⟩

theorem wakeUps_of_quiet {now : ℕ} (h : ∀ i < maxTasks, k.sleepingTasksBitmap.getLsbD i = true →
    now < k.taskWakeUpTimes i) : (List.range maxTasks).foldl (wakeUp now) k = k := by
  refine List.foldlRecOn (motive := fun k' => k' = k) _ _ rfl ?_
  rintro k' rfl i hi
  unfold wakeUp
  refine if_neg fun hdue => ?_
  rw [Bool.and_eq_true, decide_eq_true_eq] at hdue
  have hlt := h i (List.mem_range.mp hi) hdue.1
  omega

theorem forSlots_of_empty {slots : ℕ → Option ℕ} (h : ∀ i < 32, slots i = none)
    (f : Kernel → ℕ → Kernel) (k : Kernel) : forSlots slots f k = k := by
  unfold forSlots
  refine List.foldlRecOn (motive := fun k' => k' = k) _ _ rfl ?_
  rintro k' rfl i hi
  rw [h i (List.mem_range.mp hi)]
  rfl

theorem Quiet.sysTick (h : k.Quiet) : SameSchedule k k.sysTickHandler := by
  obtain ⟨halarms, hdue⟩ := h
  unfold sysTickHandler
  set k₁ : Kernel := { k with port :=
    ({ k.port with masked := true, insideInterrupt := true } : Port).incrementTickCount }
  have hwake : (List.range maxTasks).foldl (wakeUp k₁.getTickCount) k₁ = k₁ :=
    wakeUps_of_quiet (k := k₁) hdue
  have htables : SameSchedule k₁ k₁.updateTimers.incrementCounters :=
    (sameSchedule_updateTimers k₁).trans (sameSchedule_incrementCounters _)
  have htick : k₁.tick = k₁.updateTimers.incrementCounters := by
    unfold tick
    dsimp only
    rw [hwake]
    exact forSlots_of_empty (fun i hi => (congrFun htables.alarms i).trans (halarms i hi)) _ _
  have hsame : SameSchedule k₁ k₁.tick := by
    rw [htick]
    exact htables
  exact ((sameSchedule_port k _).trans hsame).trans (sameSchedule_port k₁.tick _)

end

/-! ## Two tasks take turns -/

/-- Task `a` runs and `b` is next, and no other ready task comes before one of the two. -/
structure Shares (k : Kernel) (a b : TaskPtr) : Prop where
  agrees : k.Agrees
  currentTask : k.currentTask = a
  running : k.getState a = .eRunning
  aboveIdle : k.AboveIdle a
  next : k.Next b
  first : ∀ t, k.Registered t → k.getState t = .eReady → t ≠ b → k.Precedes a t

namespace Shares
variable {k k' : Kernel} {a b : TaskPtr} (h : Shares k a b)
include h

theorem same (hs : SameSchedule k k') : Shares k' a b where
  agrees := h.agrees.same hs
  currentTask := hs.currentTask.trans h.currentTask
  running := (hs.getState a).trans h.running
  aboveIdle := hs.aboveIdle.mpr h.aboveIdle
  next := hs.next h.next
  first t ht hready htb := by
    rw [hs.getState] at hready
    exact hs.precedes.mpr (h.first t ((hs.registered t).mp ht) hready htb)

theorem ne : a ≠ b := by
  rintro rfl
  have hready := h.next.ready
  rw [h.running] at hready
  cases hready

theorem select : Shares k.selectHighestPriorityTask b a ∧
    ∀ t, t ≠ a → t ≠ b → k.getState t = .eReady →
      k.selectHighestPriorityTask.getState t = .eReady := by
  obtain ⟨u, hu, hd, hagrees⟩ :=
    h.agrees.select_next h.next.registered h.next.ready h.next.aboveIdle
  obtain rfl : u = b := hu.unique h.agrees.toTabled h.next
  have hrun : k.getState k.currentTask = .eRunning := by
    rw [h.currentTask]
    exact h.running
  have hothers : ∀ t, t ≠ a → k.selectHighestPriorityTask.getState t = .eReady →
      t ≠ u ∧ k.getState t = .eReady := by
    intro t hta hready
    obtain ⟨htu, hr⟩ := (hd.ready_iff t).mp hready
    exact ⟨htu, hr.resolve_right fun hc => hta (hc.2.trans h.currentTask)⟩
  refine ⟨⟨hagrees, hd.currentTask, hd.running, hd.parameters.aboveIdle.mpr hu.aboveIdle, ?_, ?_⟩,
    ?_⟩
  · constructor
    · have hcurrent := h.agrees.current
      rw [h.currentTask] at hcurrent
      exact (hd.registered a).mpr hcurrent
    · exact (hd.ready_iff a).mpr ⟨h.ne, .inr ⟨hrun, h.currentTask.symm⟩⟩
    · exact hd.parameters.aboveIdle.mpr h.aboveIdle
    · intro t ht hready
      rw [hd.precedes]
      by_cases hta : t = a
      · rw [hta]
        exact .inr ⟨rfl, le_rfl⟩
      · obtain ⟨htu, hr⟩ := hothers t hta hready
        exact h.first t ((hd.registered t).mp ht) hr htu
  · intro t ht hready hta
    rw [hd.precedes]
    exact hu.first t ((hd.registered t).mp ht) (hothers t hta hready).2
  · exact fun t _ htb hready => (hd.ready_iff t).mpr ⟨htb, .inl hready⟩

end Shares

theorem Shares.run {k : Kernel} {a b : TaskPtr} (h : Shares k a b) {es : List Interruption}
    (hes : computing.Valid k es) :
    (computing.exec k es).currentTask = (if Even (es.count .pendSV) then a else b) ∧
      ∀ t, t ≠ a → t ≠ b → k.getState t = .eReady →
        (computing.exec k es).getState t = .eReady := by
  induction es generalizing k a b with
  | nil => exact ⟨h.currentTask.trans (if_pos Even.zero).symm, fun _ _ _ hready => hready⟩
  | cons e es ih =>
    obtain ⟨hg, hes⟩ := hes
    cases e with
    | sysTick =>
      have hs : SameSchedule k k.sysTickHandler := Quiet.sysTick hg
      obtain ⟨hcurrent, hothers⟩ := ih (h.same hs) hes
      rw [List.count_cons_of_ne (by decide)]
      exact ⟨hcurrent, fun t hta htb hready => hothers t hta htb ((hs.getState t).trans hready)⟩
    | pendSV =>
      obtain ⟨hshares, hready⟩ := (h.same (sameSchedule_port k _)).select
      obtain ⟨hcurrent, hothers⟩ := ih (hshares.same (sameSchedule_port _ _)) hes
      refine ⟨hcurrent.trans ?_, fun t hta htb hr => hothers t htb hta (hready t hta htb hr)⟩
      rw [← ite_not]
      refine if_congr ?_ rfl rfl
      rw [List.count_cons_self, Nat.even_add_one]

/-! ## The two tasks -/

/-- Task `a` is next, and `b` is the first of the other contenders. -/
structure Pair (k : Kernel) (a b : TaskPtr) : Prop where
  agrees : k.Agrees
  next : k.Next a
  contends : k.Contends b
  ne : b ≠ a
  first : ∀ t, k.Contends t → t ≠ a → k.Precedes b t

/-- With two contenders there is such a pair: what the next two switches would choose. -/
theorem Agrees.pair {k : Kernel} (h : k.Agrees) {t u : TaskPtr} (ht : k.Contends t)
    (hu : k.Contends u) (htu : t ≠ u) : ∃ a b, Pair k a b := by
  obtain ⟨v, hv, hvready⟩ : ∃ v, k.Contends v ∧ k.getState v = .eReady := by
    rcases ht.runnable with hready | ⟨-, hc⟩
    · exact ⟨t, ht, hready⟩
    · exact ⟨u, hu, hu.runnable.resolve_right fun hr => htu (hc.trans hr.2.symm)⟩
  obtain ⟨a, ha, hd, hagrees⟩ := h.select_next hv.registered hvready hv.aboveIdle
  set k₁ := k.selectHighestPriorityTask
  have hrest : ∀ v, k.Contends v → v ≠ a → k₁.getState v = .eReady :=
    fun v hv hva => (hd.ready_iff v).mpr ⟨hva, hv.runnable⟩
  obtain ⟨w, hw, hwa⟩ : ∃ w, k.Contends w ∧ w ≠ a := by
    by_cases hta : t = a
    · exact ⟨u, hu, fun hua => htu (hta.trans hua.symm)⟩
    · exact ⟨t, ht, hta⟩
  obtain ⟨b, hb, -, -⟩ := hagrees.select_next ((hd.registered w).mpr hw.registered)
    (hrest w hw hwa) (hd.parameters.aboveIdle.mpr hw.aboveIdle)
  obtain ⟨hba, hrun⟩ := (hd.ready_iff b).mp hb.ready
  have hcontends : k.Contends b :=
    ⟨(hd.registered b).mp hb.registered, hd.parameters.aboveIdle.mp hb.aboveIdle, hrun⟩
  refine ⟨a, b, h, ha, hcontends, hba, fun v hv hva => ?_⟩
  rw [← hd.precedes]
  exact hb.first v ((hd.registered v).mpr hv.registered) (hrest v hv hva)

namespace Pair
variable {k k' : Kernel} {a b : TaskPtr} (h : Pair k a b)
include h

theorem same (hs : SameSchedule k k') : Pair k' a b where
  agrees := h.agrees.same hs
  next := hs.next h.next
  contends := hs.contends.mpr h.contends
  ne := h.ne
  first t ht hta := hs.precedes.mpr (h.first t (hs.contends.mp ht) hta)

theorem next_first {t : TaskPtr} (ht : k.Contends t) (htb : t ≠ b) (hta : t ≠ a) :
    k.Precedes a t := by
  rcases ht.runnable with hready | ⟨-, hc⟩
  · exact h.next.first t ht.registered hready
  · have hready : k.getState b = .eReady :=
      h.contends.runnable.resolve_right fun hr => htb (hc.trans hr.2.symm)
    exact (h.next.first b h.contends.registered hready).trans (h.first t ht hta)

theorem select : Shares k.selectHighestPriorityTask a b ∧
    ∀ t, k.Contends t → t ≠ a → k.selectHighestPriorityTask.getState t = .eReady := by
  obtain ⟨u, hu, hd, hagrees⟩ :=
    h.agrees.select_next h.next.registered h.next.ready h.next.aboveIdle
  obtain rfl : u = a := hu.unique h.agrees.toTabled h.next
  have hrest : ∀ t, k.Contends t → t ≠ u → k.selectHighestPriorityTask.getState t = .eReady :=
    fun t ht htu => (hd.ready_iff t).mpr ⟨htu, ht.runnable⟩
  have hcontends : ∀ t, k.selectHighestPriorityTask.Registered t →
      k.selectHighestPriorityTask.getState t = .eReady → k.AboveIdle t →
        k.Contends t ∧ t ≠ u := by
    intro t ht hready hl
    obtain ⟨htu, hr⟩ := (hd.ready_iff t).mp hready
    exact ⟨⟨(hd.registered t).mp ht, hl, hr⟩, htu⟩
  refine ⟨⟨hagrees, hd.currentTask, hd.running, hd.parameters.aboveIdle.mpr hu.aboveIdle, ?_, ?_⟩,
    hrest⟩
  · refine ⟨(hd.registered b).mpr h.contends.registered, hrest b h.contends h.ne,
      hd.parameters.aboveIdle.mpr h.contends.aboveIdle, fun t ht hready => ?_⟩
    rw [hd.precedes]
    by_cases hl : k.AboveIdle t
    · obtain ⟨hc, htu⟩ := hcontends t ht hready hl
      exact h.first t hc htu
    · have hlevel := h.contends.aboveIdle
      unfold AboveIdle at hl hlevel
      exact .inl (by omega)
  · intro t ht hready htb
    rw [hd.precedes]
    by_cases hl : k.AboveIdle t
    · obtain ⟨hc, htu⟩ := hcontends t ht hready hl
      exact h.next_first hc htb htu
    · have hlevel := hu.aboveIdle
      unfold AboveIdle at hl hlevel
      exact .inl (by omega)

theorem run {es : List Interruption} (hes : computing.Valid k es)
    (hpos : 0 < es.count .pendSV) :
    (computing.exec k es).currentTask = (if Odd (es.count .pendSV) then a else b) ∧
      ∀ t, k.Contends t → t ≠ a → t ≠ b → (computing.exec k es).getState t = .eReady := by
  induction es generalizing k with
  | nil => exact absurd hpos (lt_irrefl 0)
  | cons e es ih =>
    obtain ⟨hg, hes⟩ := hes
    cases e with
    | sysTick =>
      have hs : SameSchedule k k.sysTickHandler := Quiet.sysTick hg
      rw [List.count_cons_of_ne (by decide)] at hpos ⊢
      obtain ⟨hcurrent, hothers⟩ := ih (h.same hs) hes hpos
      exact ⟨hcurrent, fun t ht => hothers t (hs.contends.mpr ht)⟩
    | pendSV =>
      have hs := sameSchedule_port k { k.port with pendSV := false, masked := true }
      obtain ⟨hshares, hready⟩ := (h.same hs).select
      obtain ⟨hcurrent, hothers⟩ := (hshares.same (sameSchedule_port _ _)).run hes
      refine ⟨hcurrent.trans ?_, fun t ht hta htb =>
        hothers t hta htb (hready t (hs.contends.mpr ht) hta)⟩
      refine if_congr ?_ rfl rfl
      rw [List.count_cons_self, Nat.odd_add_one, Nat.not_odd_iff_even]

end Pair

/-- From a state in which ready bits, states and priorities agree, and while the tasks only
compute, the two first of those that contend for the processor, in the order of levels and ids,
take turns from the first switch on: a task of lower priority runs in every other time slice, and
no third task ever runs, of whatever priority. -/
theorem two_share {k : Kernel} (h : k.Agrees) {t u : TaskPtr} (ht : k.Contends t)
    (hu : k.Contends u) (htu : t ≠ u) : ∃ a b, a ≠ b ∧ k.Contends a ∧ k.Contends b ∧
      (∀ v, k.Contends v → v ≠ a → v ≠ b → k.Precedes a v ∧ k.Precedes b v) ∧
      ∀ es, computing.Valid k es → 0 < es.count .pendSV →
        (computing.exec k es).currentTask = (if Odd (es.count .pendSV) then a else b) ∧
          ∀ v, k.Contends v → v ≠ a → v ≠ b → (computing.exec k es).getState v = .eReady := by
  obtain ⟨a, b, hp⟩ := h.pair ht hu htu
  have ha : k.Contends a := ⟨hp.next.registered, hp.next.aboveIdle, .inl hp.next.ready⟩
  exact ⟨a, b, hp.ne.symm, ha, hp.contends,
    fun v hv hva hvb => ⟨hp.next_first hv hvb hva, hp.first v hv hva⟩,
    fun es hes hpos => hp.run hes hpos⟩

theorem contends_started {n : ℕ} (hn : n < maxTasks) {t : TaskPtr} (ht : 1 ≤ t) (hle : t ≤ n) :
    (started n).Contends t where
  registered := ((started_spec hn).registered t).mpr hle
  aboveIdle := (equalGroup_started hn).above (Finset.mem_Icc.mpr ⟨ht, hle⟩)
  runnable := .inl ((started_spec hn).state t)

/-- Of three equal tasks two take turns for ever. -/
theorem two_share_started : ∃ a b, ∀ es, computing.Valid (started 3) es → 0 < es.count .pendSV →
    (computing.exec (started 3) es).currentTask = if Odd (es.count .pendSV) then a else b := by
  obtain ⟨a, b, -, -, -, -, hrun⟩ := two_share (t := 1) (u := 2)
    (agrees_started (n := 3) (by decide))
    (contends_started (by decide) le_rfl (by decide))
    (contends_started (by decide) (by decide) (by decide)) (by decide)
  exact ⟨a, b, fun es hes hpos => (hrun es hes hpos).1⟩

end CppRtos.Kernel
