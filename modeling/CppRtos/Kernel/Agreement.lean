import CppRtos.Kernel.Dispatch
import CppRtos.Kernel.Standing

/-! Kernels whose ready table lists exactly the ready tasks: waking keeps this, and the
scheduler takes the first ready task in the order of levels and ids. -/
namespace CppRtos

namespace Standing

/-- The table lists exactly the ready tasks, each at its level. -/
def Exact (v : Standing) : Prop := ∀ p, p ∈ v.listed ↔ v.state = .eReady ∧ p = v.level

theorem closed_exact : Closed (fun v => v.state ≠ .eReady) (fun _ => False) Exact where
  ready v hv p := by
    simp only [Standing.ready, Set.mem_insert_iff, true_and]
    constructor
    · rintro (rfl | hp)
      · rfl
      · exact ((hv p).mp hp).2
    · exact .inl
  block v hv p := by
    simp only [Standing.block, reduceCtorEq, false_and, iff_false]
    split_ifs with hs
    · rintro ⟨hp, hne⟩
      exact hne ((hv p).mp hp).2
    · exact fun hp => hs ((hv p).mp hp).1
  suspend v hv hs p := by
    simp only [Standing.suspend, reduceCtorEq, false_and, iff_false]
    exact fun hp => hs ((hv p).mp hp).1
  sleep v hv hs p := by
    simp only [Standing.sleep, reduceCtorEq, false_and, iff_false]
    exact fun hp => hs ((hv p).mp hp).1
  wake v hv p := by
    simp only [Standing.wake, Standing.ready, Set.mem_insert_iff, true_and]
    constructor
    · rintro (rfl | hp)
      · rfl
      · exact ((hv p).mp hp).2
    · exact .inl
  boost v l hv hf := hf.elim
  run v p hv hp q := by
    simp only [Standing.run, reduceCtorEq, false_and, iff_false]
    rintro ⟨hq, hne⟩
    exact hne (((hv q).mp hq).2.trans ((hv p).mp hp).2.symm)
  added l _ p := by simp

end Standing

namespace Kernel

/-- Ready bits, states and priorities agree, and `highestTaskPriority` bounds the levels. -/
structure Agrees (k : Kernel) : Prop extends Tabled k where
  listed : k.Listed
  readyListed : k.ReadyListed
  highest_le : ∀ t, k.Registered t → k.highestTaskPriority.level ≤ (k.getPriority t).level

/-- The order in which the scan meets the tasks. -/
def Precedes (k : Kernel) (t u : TaskPtr) : Prop :=
  (k.getPriority t).level < (k.getPriority u).level ∨
    (k.getPriority t).level = (k.getPriority u).level ∧ (k.taskData t).id ≤ (k.taskData u).id

/-- The ready task above the idle level that the scan meets first. -/
structure Next (k : Kernel) (t : TaskPtr) : Prop where
  registered : k.Registered t
  ready : k.getState t = .eReady
  aboveIdle : k.AboveIdle t
  first : ∀ u, k.Registered u → k.getState u = .eReady → k.Precedes t u

theorem Precedes.antisymm {k : Kernel} (h : k.Tabled) {t u : TaskPtr} (ht : k.Registered t)
    (hu : k.Registered u) (htu : k.Precedes t u) (hut : k.Precedes u t) : t = u := by
  unfold Precedes at htu hut
  exact h.id_inj ht hu (by omega)

theorem Next.unique {k : Kernel} (h : k.Tabled) {t u : TaskPtr} (ht : k.Next t) (hu : k.Next u) :
    t = u :=
  Precedes.antisymm h ht.registered hu.registered (ht.first u hu.registered hu.ready)
    (hu.first t ht.registered ht.ready)

/-- Registration and switches give exact standings; in such a kernel the tables agree. -/
theorem Registry.agrees {k : Kernel} (h : Registry k) (hs : Stands Standing.Exact k) :
    Agrees k where
  toTabled := h.tabled
  listed p i hbit := by
    obtain ⟨t, ht⟩ := h.bits p i hbit
    have hmem : p ∈ (k.standing t).listed := by
      rw [← h.slot_id i t ht] at hbit
      exact hbit
    obtain ⟨hready, hp⟩ := (hs t ⟨i, ht⟩ p).mp hmem
    exact ⟨t, ht, hready, hp.symm⟩
  readyListed t ht hready := (hs t ht (k.getPriority t).level).mpr ⟨hready, rfl⟩
  highest_le := h.highest_le

namespace Agrees
variable {k : Kernel} (h : Agrees k)
include h

theorem same {k' : Kernel} (hs : SameSchedule k k') : Agrees k' where
  toTabled := by
    refine h.toTabled.congr hs.tasks hs.toSameParameters ?_
    rw [hs.currentTask]
    exact h.current
  listed p i hbit := by
    rw [hs.readyBit] at hbit
    obtain ⟨t, ht, hready, hlevel⟩ := h.listed p i hbit
    refine ⟨t, ?_, ?_, ?_⟩
    · rw [hs.tasks]
      exact ht
    · rw [hs.getState]
      exact hready
    · rw [hs.priority]
      exact hlevel
  readyListed t ht hready := by
    have hslot : k'.slot t = k.slot t := by
      unfold Kernel.slot
      rw [hs.priority, hs.id]
    rw [hslot, hs.readyBit]
    exact h.readyListed t ((hs.registered t).mp ht) ((hs.getState t).symm.trans hready)
  highest_le t ht := by
    rw [hs.highestTaskPriority, hs.priority]
    exact h.highest_le t ((hs.registered t).mp ht)

theorem setTaskReady {t : TaskPtr} (ht : k.Registered t) : Agrees (k.setTaskReady (some t)) := by
  have htab := sameTable_setTaskReady k (some t)
  have hpar := sameParameters_setTaskReady k (some t)
  have hslot : ∀ u, (k.setTaskReady (some t)).slot u = k.slot u := by
    intro u
    unfold Kernel.slot
    rw [hpar.priority, hpar.id]
  constructor
  · refine h.toTabled.congr htab.tasks hpar ?_
    rw [htab.currentTask]
    exact h.current
  · intro p i hbit
    rw [readyBit_setTaskReady_of_slot (h.slot_lt_table ht), Bool.or_eq_true,
      decide_eq_true_eq] at hbit
    simp only [htab.tasks, hpar.priority, getState_setTaskReady]
    rcases hbit with hbit | hbit
    · obtain ⟨u, hu, hready, hlevel⟩ := h.listed p i hbit
      refine ⟨u, hu, ?_, hlevel⟩
      rw [hready, ite_self]
    · have hi : i = (k.taskData t).id := congrArg Prod.snd hbit
      refine ⟨t, ?_, if_pos rfl, (congrArg Prod.fst hbit).symm⟩
      rw [hi]
      exact h.tasks_id ht
  · intro u hu hready
    rw [hslot, readyBit_setTaskReady_of_slot (h.slot_lt_table ht), Bool.or_eq_true,
      decide_eq_true_eq]
    by_cases hut : u = t
    · exact .inr (by rw [hut])
    · rw [getState_setTaskReady, if_neg hut] at hready
      exact .inl (h.readyListed u ((htab.registered u).mp hu) hready)
  · intro u hu
    rw [htab.highestTaskPriority, hpar.priority]
    exact h.highest_le u ((htab.registered u).mp hu)

theorem foldl_setTaskReady (ts : List (Option TaskPtr)) (ht : ∀ t ∈ ts, k.RegisteredOrNull t) :
    Agrees (ts.foldl (fun k t => k.setTaskReady t) k) := by
  induction ts generalizing k with
  | nil => exact h
  | cons t ts ih =>
    have hhead := ht t List.mem_cons_self
    have hk : Agrees (k.setTaskReady t) := by
      cases t with
      | none => exact h
      | some t => exact h.setTaskReady (hhead t rfl)
    refine ih hk fun u hu => ?_
    rw [(sameTable_setTaskReady k t).registeredOrNull]
    exact ht u (List.mem_cons_of_mem t hu)

theorem resetTaskReady {t : TaskPtr} (ht : k.Registered t) {s : TaskStateType}
    (hs : s ≠ .eReady) : Agrees (k.resetTaskReady (some t) s) := by
  have htab := sameTable_resetTaskReady k t s
  have hpar := sameParameters_resetTaskReady k t s
  have hslot : ∀ u, (k.resetTaskReady (some t) s).slot u = k.slot u := by
    intro u
    unfold Kernel.slot
    rw [hpar.priority, hpar.id]
  have hlevel := (h.slot_lt_table ht).1
  refine ⟨h.toTabled.congr htab.tasks hpar ?_, fun p i hbit => ?_, fun u hu hready => ?_,
    fun u hu => ?_⟩
  · rw [htab.currentTask]
    exact h.current
  · rw [readyBit_resetTaskReady, Bool.and_eq_true, Bool.not_eq_true', decide_eq_false_iff_not]
      at hbit
    obtain ⟨u, hu, hready, hp⟩ := h.listed p i hbit.1
    simp only [htab.tasks, hpar.priority, getState_resetTaskReady]
    refine ⟨u, hu, ?_, hp⟩
    have hut : u ≠ t := by
      rintro rfl
      exact hbit.2 ⟨⟨hready, hlevel⟩, Prod.ext hp.symm (h.slot_id i u hu).symm⟩
    rw [if_neg hut, hready]
  · have hut : u ≠ t := by
      rintro rfl
      rw [getState_resetTaskReady, if_pos rfl] at hready
      exact hs hready
    have hu' := (htab.registered u).mp hu
    rw [getState_resetTaskReady, if_neg hut] at hready
    rw [hslot, readyBit_resetTaskReady, h.readyListed u hu' hready, Bool.true_and,
      Bool.not_eq_true', decide_eq_false_iff_not]
    exact fun he => hut (h.id_inj hu' ht (congrArg Prod.snd he.2))
  · rw [htab.highestTaskPriority, hpar.priority]
    exact h.highest_le u ((htab.registered u).mp hu)

theorem dispatched {p i : ℕ} {t : TaskPtr} {k' : Kernel} (hd : Dispatched k k' p i t)
    (hbit : k.readyBit p i = true) (hh : k'.highestTaskPriority = k.highestTaskPriority) :
    Agrees k' := by
  have hreg : ∀ u, k'.Registered u ↔ k.Registered u := by
    intro u
    unfold Registered
    rw [hd.tasks]
  constructor
  · refine h.toTabled.congr hd.tasks hd.parameters ?_
    rw [hd.currentTask]
    exact ⟨i, hd.slot⟩
  · exact hd.listed hbit h.toSeated h.listed
  · exact hd.readyListed h.toSeated h.readyListed
  · intro u hu
    rw [hh, hd.parameters.priority]
    exact h.highest_le u ((hreg u).mp hu)

theorem select_next {t : TaskPtr} (ht : k.Registered t) (hready : k.getState t = .eReady)
    (hl : k.AboveIdle t) : ∃ u, k.Next u ∧
      Dispatched k k.selectHighestPriorityTask (k.slot u).1 (k.slot u).2 u ∧
      Agrees k.selectHighestPriorityTask := by
  have hscan : k.Scanned (k.slot t).1 (k.slot t).2 :=
    ⟨h.highest_le t ht, hl, h.readyListed t ht hready⟩
  cases hf : k.findReady with
  | none => exact absurd hscan (scanned_findReady_none hf _ _)
  | some r =>
    obtain ⟨p, i⟩ := r
    obtain ⟨u, hv, hvready, hlevel⟩ := h.listed p i (findReady_some hf).bit
    have hs := h.select_some hf hv
    have hleast := least_findReady hf
    have hd := hs.dispatched h.toSeated h.listed fun _ => h.level_lt _ h.current
    have hslot : k.slot u = (p, i) := Prod.ext hlevel (h.slot_id i u hv)
    refine ⟨u, ⟨⟨i, hv⟩, hvready, ?_, fun w hw hwready => ?_⟩, ?_,
      h.dispatched hd hs.first.bit hs.highestTaskPriority⟩
    · unfold AboveIdle
      rw [hlevel]
      exact hs.first.level_lt
    · have hp : (k.getPriority u).level = p := congrArg Prod.fst hslot
      have hi : (k.taskData u).id = i := congrArg Prod.snd hslot
      unfold Precedes
      rw [hp, hi]
      by_cases hidle : (k.getPriority w).level < 15
      · exact hleast.least _ _ ⟨h.highest_le w hw, hidle, h.readyListed w hw hwready⟩
      · have hlt := hs.first.level_lt
        rw [TaskPriority.level_idle] at hlt
        omega
    · rw [hslot]
      exact hd

end Agrees

/-! ## Kernels with equal tasks -/

/-- The kernel after the registration of tasks `1` to `n`, all of average priority. -/
def started : ℕ → Kernel
  | 0 => new 0 fun _ => .average
  | n + 1 => (started n).addTask (n + 1)

structure Started (n : ℕ) : Prop where
  registry : (started n).Registry
  exact : Stands Standing.Exact (started n)
  taskCount : (started n).taskCount = n + 1
  registered : ∀ t, (started n).Registered t ↔ t ≤ n
  state : ∀ t, (started n).getState t = .eReady
  priority : ∀ t, t ≠ 0 → (started n).getPriority t = .average
  idle : (started n).getPriority 0 = .idle

theorem started_spec {n : ℕ} (hn : n < maxTasks) : Started n := by
  induction n with
  | zero =>
    have ha := adds_new 0 fun _ => .average
    constructor
    · exact registry_new _ _
    · exact stands_new (Standing.closed_exact.added 15 le_rfl) _ _
    · exact ha.taskCount
    · intro t
      exact (registered_new _ _ t).trans Nat.le_zero.symm
    · intro t
      exact (ha.getState t).trans (priorities_initial _ _ t).2.2
    · intro t ht
      refine (ha.priority t).trans ?_
      unfold initial getPriority
      simp only [Function.update_of_ne ht]
      decide
    · exact (ha.priority 0).trans rfl
  | succ n ih =>
    have h := ih (by omega)
    have hroom : (started n).taskCount < maxTasks := by
      rw [h.taskCount]
      exact hn
    have hnew : ¬ (started n).Registered (n + 1) := by
      rw [h.registered]
      exact Nat.not_succ_le_self n
    have ha := adds_addTask hroom (n + 1) ((h.registry.level_le _).trans_lt (by decide))
    constructor
    · exact h.registry.addTask hnew
    · exact fun u hu =>
        h.registry.keeps_adds Standing.closed_exact hnew ha hu (h.exact u)
    · exact ha.taskCount.trans (by rw [h.taskCount])
    · intro t
      refine (h.registry.registered_adds ha t).trans ?_
      rw [h.registered]
      exact or_comm.trans Nat.le_succ_iff.symm
    · intro t
      exact (ha.getState t).trans (h.state t)
    · intro t ht
      exact (ha.priority t).trans (h.priority t ht)
    · exact (ha.priority 0).trans h.idle

theorem agrees_started {n : ℕ} (hn : n < maxTasks) : Agrees (started n) :=
  (started_spec hn).registry.agrees (started_spec hn).exact

/-! ## The choice -/

/-- Nothing happens without a ready task above the idle level, and else the task at the least
position becomes the current one, and bits, states and priorities still agree. -/
structure SelectsCorrectly (k : Kernel) : Prop where
  empty : (∀ p i, ¬ k.Scanned p i) → Untouched k k.selectHighestPriorityTask
  least : ∀ p i, k.Least p i → ∃ t, Dispatched k k.selectHighestPriorityTask p i t ∧
    k.selectHighestPriorityTask.Listed ∧
    (k.ReadyListed → k.selectHighestPriorityTask.ReadyListed)

theorem Least.unique {k : Kernel} {p i q j : ℕ} (h : k.Least p i) (h' : k.Least q j) :
    p = q ∧ i = j := by
  have hle := h.least q j h'.scanned
  have hge := h'.least p i h.scanned
  omega

theorem Scanned.findReady {k : Kernel} {p i : ℕ} (h : k.Scanned p i) :
    ∃ q j, k.findReady = some (q, j) ∧ k.Least q j := by
  cases hf : k.findReady with
  | none => exact absurd h (scanned_findReady_none hf p i)
  | some r => exact ⟨r.1, r.2, rfl, least_findReady hf⟩

theorem readyBit_select_of_le {k : Kernel} {q j : ℕ} (hq : maxPrioryLevels ≤ q)
    (hbit : k.selectHighestPriorityTask.readyBit q j = true) : k.readyBit q j = true := by
  have hout : ¬ (q < maxPrioryLevels ∧ j < 32 ∧
      (q, j) = k.enterCritical.slot k.enterCritical.currentTask) := fun hin => by omega
  obtain ⟨-, hs⟩ | ⟨p, i, -, hs⟩ := k.select_cases
  · rwa [hs, (sameSchedule_region k).readyBit] at hbit
  · rw [hs, (sameSchedule_exitCritical _).readyBit] at hbit
    cases ht : k.enterCritical.tasks i with
    | none =>
      unfold switchTo at hbit
      rw [ht] at hbit
      exact ((sameSchedule_enterCritical k).trans (sameSchedule_assert _ false)).readyBit q j ▸ hbit
    | some t =>
      rw [switchTo_eq ht] at hbit
      have hset : (k.enterCritical.readyRunning.clearReadyBit p i).readyBit q j = true := hbit
      rw [readyBit_clearReadyBit, Bool.and_eq_true] at hset
      unfold readyRunning at hset
      split_ifs at hset
      · rw [readyBit_setTaskReady, decide_eq_false hout, Bool.or_false] at hset
        exact hset.1
      · exact hset.1

/-- A running task that is preempted has got its bit only if its level is one of the table. -/
theorem SelectsCorrectly.level_lt {k : Kernel} (h : k.SelectsCorrectly) (hs : k.Seated)
    (hl : k.Listed) {p i : ℕ} (hscan : k.Scanned p i)
    (hrun : k.getState k.currentTask = .eRunning) :
    (k.getPriority k.currentTask).level < maxPrioryLevels := by
  by_contra hlevel
  obtain ⟨q, j, -, hleast⟩ := hscan.findReady
  obtain ⟨t, hd, -⟩ := h.least q j hleast
  have hbit : k.readyBit (k.slot k.currentTask).1 (k.slot k.currentTask).2 = true :=
    readyBit_select_of_le (not_lt.mp hlevel) (hd.preempted hrun).2
  obtain ⟨u, hu, hready, -⟩ := hl _ _ hbit
  obtain rfl : k.currentTask = u := Option.some.inj ((hs.tasks_id hs.current).symm.trans hu)
  rw [hrun] at hready
  cases hready

/-- In a kernel whose set bits name ready tasks of their level, the choice is correct exactly if
there is none to make, or the current task is not running or has a level of the table. -/
theorem select_correct_iff {k : Kernel} (hs : k.Seated) (hl : k.Listed) :
    k.SelectsCorrectly ↔ ((∃ p i, k.Scanned p i) → k.getState k.currentTask = .eRunning →
      (k.getPriority k.currentTask).level < maxPrioryLevels) := by
  constructor
  · rintro h ⟨p, i, hscan⟩ hrun
    exact h.level_lt hs hl hscan hrun
  · intro hlevel
    constructor
    · intro hnone
      refine select_none ?_
      by_contra hf
      obtain ⟨r, hr⟩ := Option.ne_none_iff_exists'.mp hf
      exact hnone _ _ (least_findReady (p := r.1) (i := r.2) hr).scanned
    · intro p i hleast
      obtain ⟨q, j, hf, hleast'⟩ := hleast.scanned.findReady
      obtain ⟨rfl, rfl⟩ := hleast.unique hleast'
      obtain ⟨t, ht, -⟩ := hl p i hleast.scanned.2.2
      have hsw := hs.select_some hf ht
      have hd := hsw.dispatched hs hl (hlevel ⟨p, i, hleast.scanned⟩)
      exact ⟨t, hd, hd.listed hsw.first.bit hs hl, hd.readyListed hs⟩

theorem select_correct_iff_started : (started 1).SelectsCorrectly := by
  have h := agrees_started (n := 1) (by decide)
  exact (select_correct_iff h.toSeated h.listed).mpr fun _ _ => h.level_lt _ h.current

/-- Task 1 is running, and task 2 is ready. An application has called `setPriority` for task 1
with `PRIORITY_RESERVED`, and `release` has reset its priority to that. -/
def reserved : Kernel :=
  ((started 2).selectHighestPriorityTask.modifyTask 1 (·.setPriority .reserved)).modifyTask 1
    (·.resetPriority)

/-- Task 2 is chosen, and task 1 is left ready in no word of the ready table. -/
theorem select_not_correct_reserved : reserved.Seated ∧ reserved.Listed ∧
    ¬ reserved.SelectsCorrectly ∧ reserved.selectHighestPriorityTask.getState 1 = .eReady ∧
    ∀ p < maxPrioryLevels, reserved.selectHighestPriorityTask.readyBit p 1 = false := by
  have hn : (2 : ℕ) < maxTasks := by decide
  have h := agrees_started hn
  have hreg : (started 2).Registered 1 := ((started_spec hn).registered 1).mpr (by decide)
  obtain ⟨-, -, -, hagrees⟩ := h.select_next hreg ((started_spec hn).state 1)
    (by unfold AboveIdle; decide +kernel)
  set k := (started 2).selectHighestPriorityTask with hk
  have hrun : k.getState 1 = .eRunning := by decide +kernel
  have hother : ∀ t, t ≠ 1 → reserved.taskData t = k.taskData t := by
    intro t ht
    unfold reserved modifyTask
    dsimp only
    rw [Function.update_of_ne ht, Function.update_of_ne ht]
  have hseated : reserved.Seated := by
    refine ⟨hagrees.slot_lt, fun i t ht => ?_, hagrees.current⟩
    by_cases hone : t = 1
    · rw [hone] at ht ⊢
      exact hagrees.slot_id i 1 ht
    · rw [hother t hone]
      exact hagrees.slot_id i t ht
  have hlisted : reserved.Listed := by
    intro p i hbit
    obtain ⟨t, ht, hready, hlevel⟩ := hagrees.listed p i hbit
    have hone : t ≠ 1 := by
      rintro rfl
      rw [hrun] at hready
      cases hready
    unfold getState at hready
    unfold getPriority at hlevel
    refine ⟨t, ht, ?_, ?_⟩
    · unfold getState
      rw [hother t hone]
      exact hready
    · unfold getPriority
      rw [hother t hone]
      exact hlevel
  refine ⟨hseated, hlisted, fun hcorrect => ?_, by decide +kernel, by decide +kernel⟩
  have hscan : reserved.Scanned 7 2 := by
    unfold Scanned
    decide +kernel
  have hlevel := hcorrect.level_lt hseated hlisted hscan (by decide +kernel)
  exact absurd hlevel (by decide +kernel)

end Kernel

end CppRtos
