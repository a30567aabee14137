import CppRtos.Kernel.Activation
import CppRtos.Kernel.Registration
import CppRtos.Kernel.Switch
import CppRtos.Library.Summary

/-! The bitmap of the priority levels that have a ready task. Nothing reads it; the scan goes
through the words of the table. -/
namespace CppRtos.Kernel

/-- The ready table with the bitmap as its summary. -/
def summary (k : Kernel) : Summary 32 := ⟨k.readyTasks, k.priorityBitmap⟩

/-- All tasks have a position in the ready table. -/
def Placed (k : Kernel) : Prop := ∀ t, (k.slot t).1 < maxPrioryLevels ∧ (k.slot t).2 < 32

variable {k : Kernel}

theorem SameParameters.slot {k' : Kernel} (h : SameParameters k k') (t : TaskPtr) :
    k'.slot t = k.slot t := by
  unfold Kernel.slot
  rw [h.priority, h.id]

theorem Placed.congr (h : k.Placed) {k' : Kernel} (hp : SameParameters k k') : k'.Placed := by
  intro t
  rw [hp.slot]
  exact h t

theorem summary_setTaskReady {t : TaskPtr} (h : (k.slot t).1 < maxPrioryLevels) :
    (k.setTaskReady (some t)).summary = k.summary.mark (k.slot t).1 (k.slot t).2 := by
  have hslot := k.slot_setState t .eReady
  have hlevel : ((k.setState t .eReady).getPriority t).level = (k.slot t).1 :=
    congrArg Prod.fst hslot
  have hid : ((k.setState t .eReady).taskData t).id = (k.slot t).2 := congrArg Prod.snd hslot
  unfold setTaskReady
  dsimp only
  rw [hlevel, if_pos h]
  show Summary.mark (k.setState t .eReady).summary _ ((k.setState t .eReady).taskData t).id = _
  rw [hid]
  rfl

theorem summary_resetTaskReady (k : Kernel) (t : TaskPtr) (s : TaskStateType) :
    (k.resetTaskReady (some t) s).summary = k.summary.clear (k.slot t).1 (k.slot t).2 ∨
      (k.resetTaskReady (some t) s).summary = k.summary := by
  obtain ⟨-, h⟩ | ⟨-, b, h⟩ := k.resetTaskReady_cases t s
  · rw [h]
    exact .inl rfl
  · rw [h]
    exact .inr rfl

theorem summary_addTask (h : k.taskCount < maxTasks) {t : TaskPtr}
    (hl : (k.getPriority t).level < maxPrioryLevels) :
    (k.addTask t).summary = k.summary.enter (k.getPriority t).level k.taskCount := by
  have hbitmap : (k.addTask t).priorityBitmap = k.priorityBitmap := by
    unfold addTask
    rw [if_pos h]
    dsimp only
    split_ifs <;> rfl
  unfold summary
  rw [readyTasks_addTask h t hl, hbitmap]
  rfl

theorem Placed.addTask (h : k.Placed) (t : TaskPtr) : (k.addTask t).Placed := by
  by_cases hroom : k.taskCount < maxTasks
  · have ha := adds_addTask hroom t (h t).1
    intro u
    constructor
    · show ((k.addTask t).getPriority u).level < maxPrioryLevels
      rw [ha.priority]
      exact (h u).1
    · show ((k.addTask t).taskData u).id < 32
      rw [ha.id]
      split_ifs
      · exact hroom
      · exact (h u).2
  · rwa [Registry.addTask_of_full hroom]

/-! ## Operations that keep the summary -/

/-- A part of an operation after which positions and an exact level are as before. -/
structure Summarises (k k' : Kernel) : Prop where
  parameters : SameParameters k k'
  exact : k.Placed → ∀ p, k.summary.Exact p → k'.summary.Exact p

theorem Summarises.of_same {k' : Kernel} (hp : SameParameters k k')
    (hr : k'.readyTasks = k.readyTasks) (hb : k'.priorityBitmap = k.priorityBitmap) :
    Summarises k k' := by
  refine ⟨hp, fun _ p hexact => ?_⟩
  unfold summary
  rwa [hr, hb]

theorem Summarises.refl (k : Kernel) : Summarises k k := .of_same (.refl k) rfl rfl

theorem Summarises.trans {k' k'' : Kernel} (h : Summarises k k') (h' : Summarises k' k'') :
    Summarises k k'' where
  parameters := h.parameters.trans h'.parameters
  exact hplaced p hexact := h'.exact (hplaced.congr h.parameters) p (h.exact hplaced p hexact)

theorem summarises_setTaskReady (k : Kernel) (t : Option TaskPtr) :
    Summarises k (k.setTaskReady t) := by
  refine ⟨sameParameters_setTaskReady k t, ?_⟩
  intro hplaced p hexact
  cases t with
  | none => exact hexact
  | some t =>
    have hlevel : (k.slot t).1 < 16 := (hplaced t).1
    rw [summary_setTaskReady (hplaced t).1]
    exact hexact.mark (by omega) (hplaced t).2

theorem summarises_resetTaskReady (k : Kernel) (t : Option TaskPtr) (s : TaskStateType) :
    Summarises k (k.resetTaskReady t s) := by
  cases t with
  | none => exact .refl k
  | some t =>
    refine ⟨sameParameters_resetTaskReady k t s, ?_⟩
    intro _ p hexact
    rcases summary_resetTaskReady k t s with hs | hs
    · rw [hs]
      exact hexact.clear _ _
    · rw [hs]
      exact hexact

theorem summarises_port (k : Kernel) (p : Port) : Summarises k { k with port := p } :=
  .of_same (sameSchedule_port k p).toSameParameters rfl rfl

theorem summarises_switchTo (k : Kernel) (p i : ℕ) : Summarises k (k.switchTo p i) := by
  cases ht : k.tasks i with
  | none =>
    unfold switchTo
    rw [ht]
    exact .of_same (sameSchedule_assert k false).toSameParameters rfl rfl
  | some t =>
    rw [switchTo_eq ht]
    have hready : Summarises k k.readyRunning := by
      unfold readyRunning
      split_ifs
      · exact summarises_setTaskReady k _
      · exact .refl k
    have hrunning : Summarises k.readyRunning (k.readyRunning.setState t .eRunning) :=
      .of_same (sameParameters_setState _ t .eRunning) rfl rfl
    refine (hready.trans hrunning).trans ⟨⟨fun _ => rfl, fun _ => rfl, fun _ => rfl⟩, ?_⟩
    exact fun _ q hexact => hexact.clear p i

theorem summarises_select (k : Kernel) : Summarises k k.selectHighestPriorityTask := by
  have henter : Summarises k k.enterCritical := summarises_port k _
  have hexit : ∀ k' : Kernel, Summarises k' k'.exitCritical := fun k' => summarises_port k' _
  obtain ⟨-, hsel⟩ | ⟨p, i, -, hsel⟩ := k.select_cases
  · rw [hsel]
    exact henter.trans (hexit _)
  · rw [hsel]
    exact (henter.trans (summarises_switchTo _ p i)).trans (hexit _)

theorem summarises_wakeUp (now : ℕ) (k : Kernel) (i : ℕ) : Summarises k (k.wakeUp now i) := by
  unfold wakeUp
  split_ifs
  · have hready := summarises_setTaskReady k (k.tasks i)
    exact hready.trans (.of_same ⟨fun _ => rfl, fun _ => rfl, fun _ => rfl⟩ rfl rfl)
  · exact .refl k

theorem summarises_tickTimer (k : Kernel) (t : TimerPtr) : Summarises k (k.tickTimer t) := by
  have hbitmap : (k.tickTimer t).priorityBitmap = k.priorityBitmap := by
    unfold tickTimer
    dsimp only
    split_ifs
    · cases (k.timerData t).callback <;> rfl
    · rfl
  have hsame := sameSchedule_tickTimer k t
  exact .of_same hsame.toSameParameters hsame.readyTasks hbitmap

theorem summarises_checkAndTrigger (k : Kernel) (a : AlarmPtr) :
    Summarises k (k.checkAndTrigger a) := by
  have hdata : ∀ d, Summarises k { k with alarmData := d } := fun _ =>
    .of_same ⟨fun _ => rfl, fun _ => rfl, fun _ => rfl⟩ rfl rfl
  unfold checkAndTrigger
  dsimp only
  split_ifs
  · generalize Function.update k.alarmData a _ = d
    cases (k.alarmData a).taskToActivate with
    | none =>
      cases (k.alarmData a).callback with
      | none =>
        have hassert := (sameSchedule_assert ({ k with alarmData := d } : Kernel) false)
        exact (hdata d).trans (.of_same hassert.toSameParameters rfl rfl)
      | some c =>
        have hcall := sameSchedule_invokeCallback ({ k with alarmData := d } : Kernel) c
          (k.alarmData a).callbackArg
        exact (hdata d).trans (.of_same hcall.toSameParameters rfl rfl)
    | some t =>
      dsimp only
      split_ifs
      · have hready := sameParameters_setState ({ k with alarmData := d } : Kernel) t .eReady
        have hyield :=
          sameSchedule_taskYield (({ k with alarmData := d } : Kernel).setState t .eReady)
        refine ((hdata d).trans (.of_same hready rfl rfl)).trans ?_
        refine .of_same hyield.toSameParameters hyield.readyTasks ?_
        unfold taskYield
        dsimp only
        split_ifs <;> rfl
      · exact hdata d
  · exact .refl k

theorem summarises_tick (k : Kernel) : Summarises k k.tick := by
  apply tick_induction (.refl k)
  · exact fun now k' i hk' => hk'.trans (summarises_wakeUp now k' i)
  · exact fun k' t hk' => hk'.trans (summarises_tickTimer k' t)
  · exact fun k' d hk' => hk'.trans (.of_same ⟨fun _ => rfl, fun _ => rfl, fun _ => rfl⟩ rfl rfl)
  · exact fun k' a hk' => hk'.trans (summarises_checkAndTrigger k' a)

/-! ## Runs -/

/-- The calls that write the ready table or the bitmap, and whatever else leaves the table, the
bitmap, the priorities and the ids alone. -/
inductive Scheduling where
  | addTask (task : TaskPtr)
  | setTaskReady (ptrTask : Option TaskPtr)
  | resetTaskReady (ptrTask : Option TaskPtr) (newState : TaskStateType)
  | selectHighestPriorityTask
  | tick
  | other (k' : Kernel)

def scheduling : Machine Kernel Scheduling where
  guard
    | .other k', k => SameParameters k k' ∧ k'.readyTasks = k.readyTasks ∧
      k'.priorityBitmap = k.priorityBitmap
    | _, _ => True
  apply
    | .addTask t, k => k.addTask t
    | .setTaskReady t, k => k.setTaskReady t
    | .resetTaskReady t s, k => k.resetTaskReady t s
    | .selectHighestPriorityTask, k => k.selectHighestPriorityTask
    | .tick, k => k.tick
    | .other k', _ => k'

/-- A task of level `p` is added only while level `p` has a ready task already. -/
def AddsMarked (p : ℕ) : Scheduling → Kernel → Prop
  | .addTask t, k => k.taskCount < maxTasks → (k.getPriority t).level = p → k.readyTasks p ≠ 0
  | _, _ => True

instance (p : ℕ) : ∀ e k, Decidable (AddsMarked p e k)
  | .addTask t, k => inferInstanceAs (Decidable (k.taskCount < maxTasks →
      (k.getPriority t).level = p → k.readyTasks p ≠ 0))
  | .setTaskReady _, _ | .resetTaskReady _ _, _ | .selectHighestPriorityTask, _ | .tick, _
  | .other _, _ => inferInstanceAs (Decidable True)

/-- One step: only `addTask` may leave the bitmap wrong. -/
theorem Placed.step (h : k.Placed) {p : ℕ} (hexact : k.summary.Exact p) {e : Scheduling}
    (hg : scheduling.guard e k) : (scheduling.apply e k).Placed ∧
      ((scheduling.apply e k).summary.Exact p ↔ AddsMarked p e k) := by
  have hkeeps : ∀ k', Summarises k k' → k'.Placed ∧ (k'.summary.Exact p ↔ True) := fun k' hk =>
    ⟨h.congr hk.parameters, iff_of_true (hk.exact h p hexact) trivial⟩
  cases e with
  | addTask t =>
    refine ⟨h.addTask t, ?_⟩
    show (k.addTask t).summary.Exact p ↔
      (k.taskCount < maxTasks → (k.getPriority t).level = p → k.readyTasks p ≠ 0)
    by_cases hroom : k.taskCount < maxTasks
    · rw [summary_addTask hroom (h t).1, hexact.enter_iff hroom]
      exact ⟨fun hword _ hp => hword hp.symm, fun hword hp => hword hroom hp.symm⟩
    · rw [Registry.addTask_of_full hroom]
      exact iff_of_true hexact fun hlt => absurd hlt hroom
  | setTaskReady t => exact hkeeps _ (summarises_setTaskReady k t)
  | resetTaskReady t s => exact hkeeps _ (summarises_resetTaskReady k t s)
  | selectHighestPriorityTask => exact hkeeps _ (summarises_select k)
  | tick => exact hkeeps _ (summarises_tick k)
  | other k' =>
    obtain ⟨hsame, hready, hbitmap⟩ := hg
    exact hkeeps k' (.of_same hsame hready hbitmap)

theorem placed_initial (idleTask : TaskPtr) (assigned : TaskPtr → TaskPriority) :
    (initial idleTask assigned).Placed := by
  intro t
  constructor
  · exact (priorities_initial idleTask assigned t).1.trans_lt (by decide)
  · show ((initial idleTask assigned).taskData t).id < 32
    rw [id_initial]
    exact Nat.zero_lt_succ 31

theorem summary_setCurrent (k : Kernel) (c : TaskPtr) :
    SameParameters k { k with currentTask := c } ∧
      ({ k with currentTask := c } : Kernel).summary = k.summary :=
  ⟨⟨fun _ => rfl, fun _ => rfl, fun _ => rfl⟩, rfl⟩

theorem summary_new (idleTask : TaskPtr) (assigned : TaskPtr → TaskPriority) :
    SameParameters ((initial idleTask assigned).addTask idleTask) (new idleTask assigned) ∧
      (new idleTask assigned).summary =
        ((initial idleTask assigned).addTask idleTask).summary :=
  summary_setCurrent _ idleTask

theorem placed_new (idleTask : TaskPtr) (assigned : TaskPtr → TaskPriority) :
    (new idleTask assigned).Placed :=
  ((placed_initial idleTask assigned).addTask idleTask).congr (summary_new idleTask assigned).1

/-- After the constructor only level 15, that of the idle task, has a ready task, and its bit in
the bitmap is clear. -/
theorem exact_new (idleTask : TaskPtr) (assigned : TaskPtr → TaskPriority) (p : ℕ) :
    (new idleTask assigned).summary.Exact p ↔ p ≠ 15 := by
  have hidle : (initial idleTask assigned).getPriority idleTask = .idle := by
    simp [getPriority, initial]
  have hroom : (initial idleTask assigned).taskCount < maxTasks := Nat.zero_lt_succ 31
  have hplaced := placed_initial idleTask assigned
  have hempty : (initial idleTask assigned).summary.Exact p := by
    simp [Summary.Exact, summary, initial]
  rw [(summary_new idleTask assigned).2, summary_addTask hroom (hplaced idleTask).1,
    hempty.enter_iff hroom, hidle]
  simp [summary, initial]

/-- Level 15 is wrong from the start; any other level is right in all states of a run exactly if
no task of that level is added while the level has no ready task. -/
theorem summary_exact_iff (idleTask : TaskPtr) (assigned : TaskPtr → TaskPriority)
    {es : List Scheduling} (hes : scheduling.Valid (new idleTask assigned) es) :
    (¬ ∀ fs, fs <+: es → ∀ p < maxPrioryLevels,
      (scheduling.exec (new idleTask assigned) fs).summary.Exact p) ∧
    ∀ p < maxPrioryLevels,
      (∀ fs, fs <+: es → (scheduling.exec (new idleTask assigned) fs).summary.Exact p) ↔
        p ≠ 15 ∧ (scheduling.restrict (AddsMarked p)).Valid (new idleTask assigned) es := by
  have hnew := exact_new idleTask assigned
  constructor
  · intro hall
    have hidle := hall [] List.nil_prefix 15 (by decide)
    exact (hnew 15).mp hidle rfl
  · intro p hp
    by_cases hidle : p = 15
    · refine iff_of_false (fun hall => ?_) fun hcond => hcond.1 hidle
      exact (hnew p).mp (hall [] List.nil_prefix) hidle
    · have hall : (∀ fs, fs <+: es →
          (scheduling.exec (new idleTask assigned) fs).summary.Exact p) ↔
          (scheduling.restrict (AddsMarked p)).Valid (new idleTask assigned) es :=
        Machine.forall_prefix_iff (I := Placed) (P := fun k => k.summary.Exact p)
          (fun e k hk hexact hg _ => (hk.step hexact hg).1)
          (fun e k hk hexact hg => (hk.step hexact hg).2)
          (placed_new idleTask assigned) ((hnew p).mpr hidle) hes
      exact hall.trans (and_iff_right hidle).symm

/-- A run of tasks of level 7, during which level 3 is right. -/
def sampleScheduling : List Scheduling :=
  [.addTask 1, .selectHighestPriorityTask, .addTask 2, .setTaskReady (some 1), .tick,
    .resetTaskReady (some 2) .eSuspended]

theorem summary_exact_sample : (scheduling.exec (new 0 fun _ => .average)
    sampleScheduling).summary.Exact 3 := by
  have hvalid : scheduling.Valid (new 0 fun _ => .average) sampleScheduling :=
    ⟨trivial, trivial, trivial, trivial, trivial, trivial, trivial⟩
  refine (((summary_exact_iff 0 (fun _ => .average) hvalid).2 3 (by decide)).mpr ?_) _
    List.prefix_rfl
  have hadds : (scheduling.restrict (AddsMarked 3)).Valid (new 0 fun _ => .average)
      sampleScheduling :=
    ⟨⟨trivial, by decide +kernel⟩, ⟨trivial, trivial⟩, ⟨trivial, by decide +kernel⟩,
      ⟨trivial, trivial⟩, ⟨trivial, trivial⟩, ⟨trivial, trivial⟩, trivial⟩
  exact ⟨by decide, hadds⟩

/-- The bitmap after the constructor and after the first task of the application: two levels
have a ready task, and no bit is set. -/
theorem summary_misses :
    let k := new 0 fun _ => .average
    ¬ k.summary.Exact 15 ∧ k.readyTasks 15 = 1 ∧ k.priorityBitmap = 0 ∧
      ¬ (k.addTask 1).summary.Exact 7 ∧ (k.addTask 1).readyTasks 7 = 2 ∧
      (k.addTask 1).priorityBitmap = 0 := by
  decide +kernel

end CppRtos.Kernel
