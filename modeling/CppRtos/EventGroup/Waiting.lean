import CppRtos.EventGroup
import Mathlib.Data.List.Nodup

/-! The two loops over the wait queue of an event group: the one by which a task removes
itself, and the one of `setEvents`, which removes entries while it advances over them. -/
namespace CppRtos.EventGroup

/-- A task in the queue that one of the set flags concerns. -/
def Matches (flags : BitVec 32) (k : Kernel) (t : TaskPtr) : Prop :=
  flags &&& (k.taskData t).flagsToWaitFor ≠ 0

instance (flags : BitVec 32) (k : Kernel) : DecidablePred (Matches flags k) := fun t =>
  inferInstanceAs (Decidable (flags &&& (k.taskData t).flagsToWaitFor ≠ 0))

def wake (k : Kernel) (t : TaskPtr) : Kernel :=
  (k.setTaskReady (some t)).modifyTask t (·.setFlagsToWaitFor 0)

/-- The tasks that the loop of `setEvents` passes to `setTaskReady`, in this order. -/
def setLoopWakes : ℕ → ℕ → Kernel → EventGroup → List TaskPtr
  | 0, _, _, _ => []
  | rounds + 1, i, k, g =>
    if i < g.waitingTasks.getSize then
      match g.waitingTasks.getAt i with
      | none => setLoopWakes rounds (i + 1) (k.assert false) g
      | some task =>
        if Matches g.eventFlags k task then
          task :: setLoopWakes rounds i (wake k task)
            { g with waitingTasks := g.waitingTasks.removeAt i }
        else setLoopWakes rounds (i + 1) k g
    else []

def setWakes (k : Kernel) (g : EventGroup) (flagsToSet : BitVec 32) : List TaskPtr :=
  setLoopWakes g.waitingTasks.getSize 0 k.enterCritical
    { g with eventFlags := g.eventFlags ||| flagsToSet }

/-- The loop of `setEvents` without a bound on its rounds: from index `i` on it ends with
the given kernel and event group, and meets no null pointer. -/
inductive SetLoopEnds : ℕ → Kernel → EventGroup → Kernel × EventGroup → Prop
  | done {i k g} (hi : ¬ i < g.waitingTasks.getSize) : SetLoopEnds i k g (k, g)
  | woken {i k g r} (task : TaskPtr) (hi : i < g.waitingTasks.getSize)
    (hget : g.waitingTasks.getAt i = some task) (hm : Matches g.eventFlags k task)
    (next : SetLoopEnds i (wake k task) { g with waitingTasks := g.waitingTasks.removeAt i } r) :
    SetLoopEnds i k g r
  | passed {i k g r} (task : TaskPtr) (hi : i < g.waitingTasks.getSize)
    (hget : g.waitingTasks.getAt i = some task) (hm : ¬ Matches g.eventFlags k task)
    (next : SetLoopEnds (i + 1) k g r) : SetLoopEnds i k g r

/-! ## The critical regions of `waitForEvents` -/

/-- `waitForEvents` finds a flag, may not wait, or queues the current task. -/
theorem waitRegion_cases (k : Kernel) (g : EventGroup) (f : BitVec 32) (timeout : ℕ) :
    (g.eventFlags &&& f ≠ 0 ∧ waitRegion k g f timeout =
      (k.enterCritical.exitCritical, g, .ret (.value true))) ∨
    (g.eventFlags &&& f = 0 ∧ timeout = 0 ∧ waitRegion k g f timeout =
      (k.enterCritical.exitCritical, g, .ret (.value false))) ∨
    (g.eventFlags &&& f = 0 ∧ timeout ≠ 0 ∧ waitRegion k g f timeout =
      (((k.enterCritical.setState k.currentTask .eBlocked).modifyTask k.currentTask
          (·.setFlagsToWaitFor f)).exitCritical,
        { g with waitingTasks := g.waitingTasks.enqueue (some k.currentTask) },
        .next (.waitYield f ((k.getTickCount + timeout) % 2 ^ 64) k.currentTask))) := by
  have hnow : k.enterCritical.getTickCount = k.getTickCount := Port.tickCount_enterCritical k.port
  have hcur : k.enterCritical.currentTask = k.currentTask := rfl
  unfold waitRegion
  dsimp only
  rw [hnow, hcur]
  by_cases hf : g.eventFlags &&& f ≠ 0
  · exact .inl ⟨hf, if_pos hf⟩
  · rw [if_neg hf]
    by_cases h0 : timeout = 0
    · exact .inr (.inl ⟨not_not.mp hf, h0, if_pos h0⟩)
    · exact .inr (.inr ⟨not_not.mp hf, h0, if_neg h0⟩)

/-- The polling loop finds a flag, is too late, or goes round. -/
theorem loopRegion_cases (k : Kernel) (g : EventGroup) (f : BitVec 32) (endTime : ℕ)
    (t : TaskPtr) :
    (∃ b, (b = true ↔ g.eventFlags &&& f ≠ 0) ∧
      (g.eventFlags &&& f ≠ 0 ∨ endTime ≤ k.getTickCount) ∧ loopRegion k g f endTime t =
        (k.enterCritical.exitCritical,
          { g with waitingTasks := removeTask t g.waitingTasks.getSize 0 g.waitingTasks },
          .ret (.value b))) ∨
    (g.eventFlags &&& f = 0 ∧ k.getTickCount < endTime ∧ loopRegion k g f endTime t =
      (k.enterCritical.exitCritical, g, .next (.waitYield f endTime t))) := by
  have hnow : k.enterCritical.getTickCount = k.getTickCount := Port.tickCount_enterCritical k.port
  unfold loopRegion
  dsimp only
  rw [hnow]
  by_cases hf : g.eventFlags &&& f ≠ 0
  · exact .inl ⟨true, iff_of_true rfl hf, .inl hf, if_pos hf⟩
  · rw [if_neg hf]
    by_cases he : k.getTickCount ≥ endTime
    · exact .inl ⟨false, iff_of_false Bool.false_ne_true hf, .inr he, if_pos he⟩
    · exact .inr ⟨not_not.mp hf, Nat.lt_of_not_le he, if_neg he⟩

/-! ## Waking -/

theorem taskData_wake (k : Kernel) (t u : TaskPtr) :
    (wake k t).taskData u = if u = t then
      { k.taskData t with state := .eReady, flagsToWaitFor := 0 } else k.taskData u := by
  unfold wake
  rw [Kernel.taskData_modifyTask, Kernel.taskData_setTaskReady, Kernel.taskData_setTaskReady,
    if_pos rfl]
  split_ifs <;> rfl

theorem taskData_foldl_wake (ts : List TaskPtr) (k : Kernel) {u : TaskPtr} (hu : u ∉ ts) :
    (ts.foldl wake k).taskData u = k.taskData u := by
  induction ts generalizing k with
  | nil => rfl
  | cons t ts ih =>
    rw [List.mem_cons, not_or] at hu
    rw [List.foldl_cons, ih (wake k t) hu.2, taskData_wake, if_neg hu.1]

theorem getState_foldl_wake (ts : List TaskPtr) (k : Kernel) {u : TaskPtr} (hu : u ∈ ts) :
    (ts.foldl wake k).getState u = .eReady := by
  induction ts generalizing k with
  | nil => cases hu
  | cons t ts ih =>
    rw [List.foldl_cons]
    by_cases hts : u ∈ ts
    · exact ih (wake k t) hts
    · have hut : u = t := (List.mem_cons.mp hu).resolve_right hts
      unfold Kernel.getState
      rw [taskData_foldl_wake ts _ hts, taskData_wake, if_pos hut]

theorem matches_wake {flags : BitVec 32} {k : Kernel} {t u : TaskPtr} (hu : u ≠ t) :
    Matches flags (wake k t) u ↔ Matches flags k u := by
  unfold Matches
  rw [taskData_wake, if_neg hu]

/-! ## A task removes itself -/

/-- The queue after `removeTask`, from an index before which the task does not occur. -/
theorem removeTask_spec (t : TaskPtr) (n j : ℕ) {q : Fifo (Option TaskPtr) maxTasks}
    (h : q.Plain) (h0 : q.head = 0) (hn : q.size ≤ n + j) (ht : t ∉ q.pointers.take j) :
    (removeTask t n j q).Plain ∧ (removeTask t n j q).head = 0 ∧
      (removeTask t n j q).pointers = q.pointers.erase t := by
  induction n generalizing j with
  | zero =>
    have hlen := h.length_pointers
    rw [List.take_of_length_le (by omega)] at ht
    exact ⟨h, h0, (List.erase_of_not_mem ht).symm⟩
  | succ n ih =>
    have hlen := h.length_pointers
    unfold removeTask
    split_ifs with hj hg
    · have hlt : j < q.pointers.length := by rwa [hlen]
      have hat : q.pointers[j] = t := by
        have hget := h.getAt h0 hj
        rw [hg] at hget
        exact (Option.some.inj hget).symm
      refine ⟨h.plain_removeAt h0 hj, h0, ?_⟩
      rw [h.pointers_removeAt h0 hj]
      have hsplit : q.pointers = q.pointers.take j ++ t :: q.pointers.drop (j + 1) := by
        rw [← hat, List.getElem_cons_drop, List.take_append_drop]
      conv_rhs => rw [hsplit, List.erase_append_right _ ht, List.erase_cons_head]
      exact List.eraseIdx_eq_take_drop_succ _ _
    · have hlt : j < q.pointers.length := by rwa [hlen]
      refine ih (j + 1) (by omega) ?_
      rw [List.take_add_one, List.getElem?_eq_getElem hlt, List.mem_append, not_or]
      refine ⟨ht, fun hmem => hg ?_⟩
      have hget := h.getAt h0 hj
      rw [hget, List.get_eq_getElem]
      rw [Option.mem_toList] at hmem
      exact hmem
    · have hsize : ¬ j < q.pointers.length := by rwa [hlen]
      rw [List.take_of_length_le (by omega)] at ht
      exact ⟨h, h0, (List.erase_of_not_mem ht).symm⟩

/-! ## The loop of `setEvents` -/

/-- What the loop has done from index `i` on: it has woken the tasks that the flags concern
and kept the others in their order. -/
structure Swept (i : ℕ) (k : Kernel) (g : EventGroup) (r : Kernel × EventGroup)
    (ts : List TaskPtr) : Prop where
  ends : SetLoopEnds i k g r
  tasks : ts = (g.waitingTasks.pointers.drop i).filter (Matches g.eventFlags k)
  kernel : r.1 = ts.foldl wake k
  flags : r.2.eventFlags = g.eventFlags
  plain : r.2.waitingTasks.Plain
  head : r.2.waitingTasks.head = 0
  pointers : r.2.waitingTasks.pointers = g.waitingTasks.pointers.take i ++
    (g.waitingTasks.pointers.drop i).filter (¬ Matches g.eventFlags k ·)

section
variable {i : ℕ} {k : Kernel} {g : EventGroup} {r : Kernel × EventGroup} {ts : List TaskPtr}
  (h : g.waitingTasks.Plain) (h0 : g.waitingTasks.head = 0)
include h h0

theorem Swept.end_of_queue (hi : ¬ i < g.waitingTasks.size) : Swept i k g (k, g) [] := by
  have hlen := h.length_pointers
  have hdrop : g.waitingTasks.pointers.drop i = [] := List.drop_of_length_le (by omega)
  have htake : g.waitingTasks.pointers.take i = g.waitingTasks.pointers :=
    List.take_of_length_le (by omega)
  constructor
  · exact .done hi
  · rw [hdrop, List.filter_nil]
  · rfl
  · rfl
  · exact h
  · exact h0
  · rw [hdrop, List.filter_nil, List.append_nil, htake]

theorem Swept.woken (hd : g.waitingTasks.pointers.Nodup) (hi : i < g.waitingTasks.size)
    {t : TaskPtr} (hget : g.waitingTasks.getAt i = some t) (hm : Matches g.eventFlags k t)
    (hr : Swept i (wake k t) { g with waitingTasks := g.waitingTasks.removeAt i } r ts) :
    Swept i k g r (t :: ts) := by
  have hlt : i < g.waitingTasks.pointers.length := by rwa [h.length_pointers]
  obtain rfl : t = g.waitingTasks.pointers[i] :=
    Option.some.inj (hget.symm.trans (h.getAt h0 hi))
  have hdrop := List.drop_eq_getElem_cons hlt
  have hlen : (g.waitingTasks.pointers.take i).length = i := List.length_take_of_le hlt.le
  have hrest : (g.waitingTasks.removeAt i).pointers =
      g.waitingTasks.pointers.take i ++ g.waitingTasks.pointers.drop (i + 1) := by
    rw [h.pointers_removeAt h0 hi, List.eraseIdx_eq_take_drop_succ]
  have hout : g.waitingTasks.pointers[i] ∉ g.waitingTasks.pointers.drop (i + 1) := by
    have hsub := hd.sublist (List.drop_sublist i _)
    rw [hdrop] at hsub
    exact (List.nodup_cons.mp hsub).1
  have hsame : ∀ u ∈ g.waitingTasks.pointers.drop (i + 1),
      (Matches g.eventFlags (wake k g.waitingTasks.pointers[i]) u ↔ Matches g.eventFlags k u) :=
    fun u hu => matches_wake fun he => hout (he ▸ hu)
  obtain ⟨hends, htasks, hkernel, hflags, hplain, hhead, hpointers⟩ := hr
  constructor
  · exact .woken _ hi hget hm hends
  · rw [htasks, hdrop, List.filter_cons_of_pos (by simpa using hm), hrest, List.drop_left' hlen]
    congr 1
    exact List.filter_congr fun u hu => by simpa using hsame u hu
  · exact hkernel
  · exact hflags
  · exact hplain
  · exact hhead
  · rw [hpointers, hdrop, List.filter_cons_of_neg (by simpa using hm), hrest,
      List.take_left' hlen, List.drop_left' hlen]
    congr 1
    exact List.filter_congr fun u hu => by simpa using hsame u hu

theorem Swept.passed (hi : i < g.waitingTasks.size) {t : TaskPtr}
    (hget : g.waitingTasks.getAt i = some t) (hm : ¬ Matches g.eventFlags k t)
    (hr : Swept (i + 1) k g r ts) : Swept i k g r ts := by
  have hlt : i < g.waitingTasks.pointers.length := by rwa [h.length_pointers]
  obtain rfl : t = g.waitingTasks.pointers[i] :=
    Option.some.inj (hget.symm.trans (h.getAt h0 hi))
  have hdrop := List.drop_eq_getElem_cons hlt
  obtain ⟨hends, htasks, hkernel, hflags, hplain, hhead, hpointers⟩ := hr
  constructor
  · exact .passed _ hi hget hm hends
  · rw [hdrop, List.filter_cons_of_neg (by simpa using hm)]
    exact htasks
  · exact hkernel
  · exact hflags
  · exact hplain
  · exact hhead
  · rw [hdrop, List.filter_cons_of_pos (by simpa using hm), hpointers,
      List.take_add_one, List.getElem?_eq_getElem hlt, List.append_assoc]
    rfl

end

/-- Every round removes an entry or advances the index. -/
theorem setLoop_swept (n i : ℕ) (k : Kernel) (g : EventGroup) (h : g.waitingTasks.Plain)
    (h0 : g.waitingTasks.head = 0) (hd : g.waitingTasks.pointers.Nodup)
    (hn : g.waitingTasks.size ≤ n + i) :
    Swept i k g (setLoop n i k g) (setLoopWakes n i k g) := by
  induction n generalizing i k g with
  | zero => exact .end_of_queue h h0 (by omega)
  | succ n ih =>
    unfold setLoop setLoopWakes
    by_cases hi : i < g.waitingTasks.getSize
    · have hsize : i < g.waitingTasks.size := hi
      rw [if_pos hi, if_pos hi, h.getAt h0 hi]
      dsimp only
      set t := g.waitingTasks.pointers.get ⟨i, by rwa [h.length_pointers]⟩ with ht
      have hget : g.waitingTasks.getAt i = some t := h.getAt h0 hi
      by_cases hm : Matches g.eventFlags k t
      · have hrest := h.plain_removeAt h0 hi
        have hnodup : (g.waitingTasks.removeAt i).pointers.Nodup := by
          rw [h.pointers_removeAt h0 hi]
          exact hd.sublist (List.eraseIdx_sublist _ _)
        have hsmaller : (g.waitingTasks.removeAt i).size ≤ n + i := by
          rw [← hrest.length_pointers, h.pointers_removeAt h0 hi, List.length_eraseIdx,
            h.length_pointers, if_pos hsize]
          omega
        have hset : g.eventFlags &&& (k.taskData t).flagsToWaitFor ≠ 0 := hm
        rw [if_pos hset, if_pos hm]
        exact .woken h h0 hd hi hget hm (ih i (wake k t) _ hrest h0 hnodup hsmaller)
      · have hset : ¬ g.eventFlags &&& (k.taskData t).flagsToWaitFor ≠ 0 := hm
        rw [if_neg hset, if_neg hm]
        exact .passed h h0 hi hget hm (ih (i + 1) k g h h0 hd (by omega))
    · rw [if_neg hi, if_neg hi]
      exact .end_of_queue h h0 hi

theorem setRegion_swept (k : Kernel) {g : EventGroup} (h : g.waitingTasks.Plain)
    (h0 : g.waitingTasks.head = 0) (hd : g.waitingTasks.pointers.Nodup) (f : BitVec 32) :
    ∃ r, setRegion k g f = (r.1.exitCritical, r.2) ∧
      Swept 0 k.enterCritical { g with eventFlags := g.eventFlags ||| f } r (setWakes k g f) := by
  have hs := setLoop_swept g.waitingTasks.getSize 0 k.enterCritical
    { g with eventFlags := g.eventFlags ||| f } h h0 hd (le_refl _)
  unfold setRegion setWakes
  exact ⟨_, rfl, hs⟩

end CppRtos.EventGroup
