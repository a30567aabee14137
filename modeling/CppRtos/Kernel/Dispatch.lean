import CppRtos.Kernel.Switch

/-! The choice of the next task in any kernel whose ready bits name ready tasks at their own
levels. -/
namespace CppRtos.Kernel

/-- Every set bit names a registered task that is ready and has the priority of the level. -/
def Listed (k : Kernel) : Prop :=
  ∀ p i, k.readyBit p i = true →
    ∃ t, k.tasks i = some t ∧ k.getState t = .eReady ∧ (k.getPriority t).level = p

/-- The positions that the scan of `selectHighestPriorityTask` looks at and finds set. -/
def Scanned (k : Kernel) (p i : ℕ) : Prop :=
  k.highestTaskPriority.level ≤ p ∧ p < TaskPriority.idle.level ∧ k.readyBit p i = true

/-- The least scanned position, levels first. -/
structure Least (k : Kernel) (p i : ℕ) : Prop where
  scanned : k.Scanned p i
  least : ∀ q j, k.Scanned q j → p < q ∨ p = q ∧ i ≤ j

/-- Agreement on all control blocks, both bitmaps, the sleep table and the current task. -/
structure Untouched (k k' : Kernel) : Prop where
  taskData : k'.taskData = k.taskData
  readyTasks : k'.readyTasks = k.readyTasks
  priorityBitmap : k'.priorityBitmap = k.priorityBitmap
  sleepingTasksBitmap : k'.sleepingTasksBitmap = k.sleepingTasksBitmap
  currentTask : k'.currentTask = k.currentTask

theorem untouched_port (k : Kernel) (p : Port) : Untouched k { k with port := p } :=
  ⟨rfl, rfl, rfl, rfl, rfl⟩

/-- Task `t`, found at position `(p, i)`, has become the current task; the previous one is
ready at its own position if it was running, and nothing else has moved. -/
structure Dispatched (k k' : Kernel) (p i : ℕ) (t : TaskPtr) : Prop where
  slot : k.tasks i = some t
  currentTask : k'.currentTask = t
  running : k'.getState t = .eRunning
  cleared : k'.readyBit p i = false
  preempted : k.getState k.currentTask = .eRunning → k'.getState k.currentTask = .eReady ∧
    k'.readyBit (k.slot k.currentTask).1 (k.slot k.currentTask).2 = true
  states : ∀ u, u ≠ t → (k.getState k.currentTask = .eRunning → u ≠ k.currentTask) →
    k'.getState u = k.getState u
  bits : ∀ q j, (q, j) ≠ (p, i) →
    (k.getState k.currentTask = .eRunning → (q, j) ≠ k.slot k.currentTask) →
    k'.readyBit q j = k.readyBit q j
  parameters : SameParameters k k'
  tasks : k'.tasks = k.tasks

theorem least_findReady {k : Kernel} {p i : ℕ} (h : k.findReady = some (p, i)) : k.Least p i := by
  obtain ⟨hstart, hend, hbit, hlevels, hids⟩ := scanLevels_eq_some h
  refine ⟨⟨hstart, by omega, hbit⟩, fun q j ⟨hq, hq', hj⟩ => ?_⟩
  rcases Nat.lt_trichotomy p q with hlt | rfl | hgt
  · exact .inl hlt
  · refine .inr ⟨rfl, ?_⟩
    by_contra hji
    have hoff := hids j (by omega)
    exact Bool.false_ne_true (hoff.symm.trans hj)
  · have hoff := hlevels q j hq hgt
    exact absurd (hoff.symm.trans hj) Bool.false_ne_true

theorem scanned_findReady_none {k : Kernel} (h : k.findReady = none) (p i : ℕ) :
    ¬ k.Scanned p i := by
  rintro ⟨hstart, hend, hbit⟩
  unfold findReady at h
  rw [scanLevels_eq_none_iff] at h
  have hoff := h p i hstart (by omega)
  exact Bool.false_ne_true (hoff.symm.trans hbit)

/-- The bit of the chosen task names a ready task, so a running current task is another. -/
theorem Switches.dispatched {k k' : Kernel} {p i : ℕ} {t : TaskPtr} (h : Switches k k' p i t)
    (ht : k.Seated) (hl : k.Listed) (hlevel : k.getState k.currentTask = .eRunning →
      (k.getPriority k.currentTask).level < maxPrioryLevels) : Dispatched k k' p i t := by
  have hne : k.getState k.currentTask = .eRunning → k.currentTask ≠ t := by
    intro hrun he
    obtain ⟨u, hu, hready, -⟩ := hl p i h.first.bit
    obtain rfl : t = u := Option.some.inj (h.slot.symm.trans hu)
    rw [he, hready] at hrun
    cases hrun
  constructor
  · exact h.slot
  · exact h.currentTask
  · rw [h.getState, if_pos rfl]
  · rw [h.bits]
    simp
  · intro hrun
    constructor
    · rw [h.getState, if_neg (hne hrun), if_pos ⟨rfl, hrun⟩]
    · have hslot : k.slot k.currentTask ≠ (p, i) := by
        intro he
        have hid : (k.taskData k.currentTask).id = i := congrArg Prod.snd he
        have hcur := ht.tasks_id ht.current
        rw [hid, h.slot] at hcur
        exact hne hrun (Option.some.inj hcur).symm
      have hlt : (k.slot k.currentTask).1 < maxPrioryLevels := hlevel hrun
      rw [h.bits]
      simp [hrun, hslot, hlt]
  · intro u hu hc
    rw [h.getState, if_neg hu, if_neg fun hcur => hc hcur.2 hcur.1]
  · intro q j hq hc
    have hcur : ¬ (k.getState k.currentTask = .eRunning ∧ q < maxPrioryLevels ∧
        (q, j) = k.slot k.currentTask) := fun hcur => hc hcur.1 hcur.2.2
    rw [h.bits, decide_eq_false hcur, Bool.or_false, decide_eq_true hq, Bool.and_true]
  · exact h.parameters
  · exact h.tasks

theorem Dispatched.listed {k k' : Kernel} {p i : ℕ} {t : TaskPtr} (h : Dispatched k k' p i t)
    (hbit₀ : k.readyBit p i = true) (ht : k.Seated) (hl : k.Listed) : k'.Listed := by
  intro q j hbit
  have hpi : (q, j) ≠ (p, i) := by
    intro he
    obtain ⟨rfl, rfl⟩ := Prod.mk.inj he
    rw [h.cleared] at hbit
    cases hbit
  by_cases hc : k.getState k.currentTask = .eRunning ∧ (q, j) = k.slot k.currentTask
  · obtain ⟨hrun, hslot⟩ := hc
    have hq : q = (k.getPriority k.currentTask).level := congrArg Prod.fst hslot
    have hj : j = (k.taskData k.currentTask).id := congrArg Prod.snd hslot
    refine ⟨k.currentTask, ?_, (h.preempted hrun).1, ?_⟩
    · rw [h.tasks, hj]
      exact ht.tasks_id ht.current
    · rw [h.parameters.priority, hq]
  · rw [h.bits q j hpi fun hrun hslot => hc ⟨hrun, hslot⟩] at hbit
    obtain ⟨u, hu, hready, hlevel⟩ := hl q j hbit
    have hut : u ≠ t := by
      rintro rfl
      obtain ⟨v, hv, -, hlevel'⟩ := hl p i hbit₀
      obtain rfl : u = v := Option.some.inj (h.slot.symm.trans hv)
      have hji : j = i := (ht.slot_id j u hu).symm.trans (ht.slot_id i u hv)
      exact hpi (Prod.ext (hlevel.symm.trans hlevel') hji)
    have huc : k.getState k.currentTask = .eRunning → u ≠ k.currentTask := by
      rintro hrun rfl
      rw [hready] at hrun
      cases hrun
    refine ⟨u, ?_, ?_, ?_⟩
    · rw [h.tasks]
      exact hu
    · rw [h.states u hut huc]
      exact hready
    · rw [h.parameters.priority]
      exact hlevel

/-- Every ready task is in the ready table. -/
def ReadyListed (k : Kernel) : Prop :=
  ∀ t, k.Registered t → k.getState t = .eReady → k.readyBit (k.slot t).1 (k.slot t).2 = true

theorem Dispatched.readyListed {k k' : Kernel} {p i : ℕ} {t : TaskPtr}
    (h : Dispatched k k' p i t) (ht : k.Seated) (hr : k.ReadyListed) : k'.ReadyListed := by
  intro u hu hready
  have hu' : k.Registered u := by
    unfold Registered at hu
    rwa [h.tasks] at hu
  have hslot : k'.slot u = k.slot u := by
    unfold Kernel.slot
    rw [h.parameters.priority, h.parameters.id]
  have hut : u ≠ t := by
    rintro rfl
    rw [h.running] at hready
    cases hready
  rw [hslot]
  by_cases hc : k.getState k.currentTask = .eRunning ∧ u = k.currentTask
  · rw [hc.2]
    exact (h.preempted hc.1).2
  · have hpi : k.slot u ≠ (p, i) := by
      intro he
      have hid : (k.taskData u).id = i := congrArg Prod.snd he
      have hslot := ht.tasks_id hu'
      rw [hid, h.slot] at hslot
      exact hut (Option.some.inj hslot).symm
    have hcur : k.getState k.currentTask = .eRunning → k.slot u ≠ k.slot k.currentTask := by
      intro hrun he
      exact hc ⟨hrun, ht.id_inj hu' ht.current (congrArg Prod.snd he)⟩
    rw [h.bits (k.slot u).1 (k.slot u).2 hpi hcur]
    refine hr u hu' ?_
    rwa [h.states u hut fun hrun he => hc ⟨hrun, he⟩] at hready

theorem select_none {k : Kernel} (h : k.findReady = none) :
    Untouched k k.selectHighestPriorityTask := by
  obtain ⟨-, hs⟩ | ⟨p, i, hf, -⟩ := k.select_cases
  · rw [hs]
    unfold exitCritical enterCritical
    exact untouched_port k _
  · rw [h] at hf
    cases hf

end CppRtos.Kernel
