import CppRtos.Kernel.Moves
import Mathlib.Data.Set.Insert

/-! How a registered task stands with the scheduler, and how each step changes that. What
a task keeps through the steps on its own standing holds of all tasks in every run. -/
namespace CppRtos

/-- The state of a task, the level of its priority, the levels at which the ready table
lists it, and its bit in `sleepingTasksBitmap`. -/
@[ext] structure Standing where
  state : TaskStateType
  level : ℕ
  listed : Set ℕ
  asleep : Bool

namespace Standing

def ready (v : Standing) : Standing :=
  { v with state := .eReady, listed := insert v.level v.listed }

/-- The first two statements of `setTaskReady`. -/
def rouse (v : Standing) : Standing := { v with state := .eReady }

def enter (v : Standing) : Standing := { v with listed := insert v.level v.listed }

/-- `resetTaskReady` looks at the level of the current priority only. -/
def block (v : Standing) : Standing :=
  { v with
    state := .eBlocked
    listed := if v.state = .eReady then v.listed \ {v.level} else v.listed }

def suspend (v : Standing) : Standing := { v with state := .eBlocked }

def sleep (v : Standing) : Standing := { v with state := .eSleeping, asleep := true }

def wake (v : Standing) : Standing := { v.ready with asleep := false }

/-- `setTaskReady` lists a task only if its level is one of the table. -/
def entered (v : Standing) : Standing :=
  if v.level < maxPrioryLevels then v.ready else { v with state := .eReady }

def roused (v : Standing) : Standing := { v.entered with asleep := false }

theorem entered_of_lt {v : Standing} (h : v.level < maxPrioryLevels) : v.entered = v.ready :=
  if_pos h

theorem roused_of_lt {v : Standing} (h : v.level < maxPrioryLevels) : v.roused = v.wake := by
  unfold roused wake
  rw [entered_of_lt h]

theorem asleep_entered (v : Standing) : v.entered.asleep = v.asleep := by
  unfold entered
  split_ifs <;> rfl

def run (v : Standing) (p : ℕ) : Standing :=
  { v with state := .eRunning, listed := v.listed \ {p} }

/-- A property that the operations keep. `C` is a condition on the tasks whose state is set
directly, `D` on those whose priority is raised. -/
structure Kept (C D Q : Standing → Prop) : Prop where
  ready : ∀ v, Q v → Q v.ready
  block : ∀ v, Q v → Q v.block
  suspend : ∀ v, Q v → C v → Q v.suspend
  sleep : ∀ v, Q v → C v → Q v.sleep
  wake : ∀ v, Q v → Q v.wake
  boost : ∀ v l, Q v → D v → l < v.level → Q { v with level := l }

/-- A property that every step keeps. -/
structure Closed (C D Q : Standing → Prop) : Prop extends Kept C D Q where
  run : ∀ v p, Q v → p ∈ v.listed → Q (v.run p)
  added : ∀ l, l ≤ 15 → Q ⟨.eReady, l, {l}, false⟩

/-- The first statement of `setTaskReady` leads from `Q` to `M`, and the second one back. -/
structure Split (M Q : Standing → Prop) : Prop where
  rouse : ∀ v, Q v → M v.rouse
  enter : ∀ v, M v → Q v.enter

end Standing

namespace Kernel

def standing (k : Kernel) (t : TaskPtr) : Standing where
  state := k.getState t
  level := (k.getPriority t).level
  listed := {p | k.readyBit p (k.taskData t).id = true}
  asleep := k.sleepingTasksBitmap.getLsbD (k.taskData t).id

/-- Every registered task stands as `Q` says. -/
def Stands (Q : Standing → Prop) (k : Kernel) : Prop := ∀ t, k.Registered t → Q (k.standing t)

theorem SameSchedule.standing {k k' : Kernel} (h : SameSchedule k k') (t : TaskPtr) :
    k'.standing t = k.standing t := by
  unfold Kernel.standing
  simp only [h.getState, h.priority, h.id, h.readyBit, h.sleepingTasksBitmap]

/-- Conditions on the standing of a task as a permit; `setTaskReady` is not interrupted. -/
def Permit.of (C D : Standing → Prop) : Permit where
  split := False
  suspend k t := C (k.standing t)
  boost k t := D (k.standing t)
  suspend_congr _ _ t h hs := by rwa [h.standing]
  boost_congr _ _ t h hb := by rwa [h.standing]

/-! ## The primitives -/

section
variable {k : Kernel} {t u : TaskPtr}

theorem standing_setState (s : TaskStateType) :
    (k.setState t s).standing u =
      if u = t then { k.standing t with state := s } else k.standing u := by
  have hpar := sameParameters_setState k t s
  unfold standing
  simp only [hpar.priority, hpar.id, getState_setState]
  by_cases hut : u = t
  · subst hut
    simp only [if_true]
    rfl
  · simp only [hut, if_false]
    rfl

theorem standing_boost {prio : TaskPriority} (hlt : k.getPriority t < prio) :
    (k.modifyTask t (·.setPriority prio)).standing u =
      if u = t then { k.standing t with level := prio.level } else k.standing u := by
  have hd : (k.modifyTask t (·.setPriority prio)).taskData u = if u = t then
      { k.taskData t with priority := prio, basePriority := prio } else k.taskData u := by
    rw [taskData_modifyTask, TaskData.setPriority_of_lt _ hlt]
  by_cases hut : u = t
  · subst hut
    rw [if_pos rfl] at hd ⊢
    unfold standing getState getPriority
    rw [hd]
    rfl
  · rw [if_neg hut] at hd ⊢
    unfold standing getState getPriority
    rw [hd]
    rfl

end

namespace Seated
variable {k : Kernel} (h : Seated k) {t u : TaskPtr}
include h

theorem slot_eq_iff (ht : k.Registered t) (hu : k.Registered u) (p : ℕ) :
    (p, (k.taskData u).id) = k.slot t ↔ u = t ∧ p = (k.getPriority t).level := by
  constructor
  · intro he
    exact ⟨h.id_inj hu ht (congrArg Prod.snd he), congrArg Prod.fst he⟩
  · rintro ⟨rfl, rfl⟩
    rfl

theorem standing_setTaskReady (ht : k.Registered t) (hu : k.Registered u) :
    (k.setTaskReady (some t)).standing u =
      if u = t then (k.standing t).entered else k.standing u := by
  have hpar := sameParameters_setTaskReady k (some t)
  have hbit : ∀ p, (k.setTaskReady (some t)).readyBit p (k.taskData u).id = true ↔
      k.readyBit p (k.taskData u).id = true ∨
        (p < maxPrioryLevels ∧ u = t ∧ p = (k.getPriority t).level) := by
    intro p
    rw [h.readyBit_setTaskReady ht, Bool.or_eq_true, decide_eq_true_eq, h.slot_eq_iff ht hu]
  unfold standing
  simp only [hpar.priority, hpar.id, hbit, getState_setTaskReady, sleepingTasksBitmap_setTaskReady]
  by_cases hut : u = t
  · subst hut
    simp only [if_true, true_and, Standing.entered]
    split_ifs with hlevel
    · ext p
      · rfl
      · rfl
      · have hp : p < maxPrioryLevels ∧ p = (k.getPriority u).level ↔
            p = (k.getPriority u).level := and_iff_right_of_imp fun he => he ▸ hlevel
        simp [hp, Standing.ready, or_comm]
      · rfl
    · ext p
      · rfl
      · rfl
      · have hp : ¬ (p < maxPrioryLevels ∧ p = (k.getPriority u).level) :=
          fun he => hlevel (he.2 ▸ he.1)
        simp [hp]
      · rfl
  · simp only [hut, if_false, false_and, and_false, or_false]

theorem standing_addSleepingTask (ht : k.Registered t) (hu : k.Registered u) (ticks : ℕ) :
    (k.addSleepingTask t ticks).standing u =
      if u = t then (k.standing t).sleep else k.standing u := by
  have hid : (k.taskData t).id % 2 ^ 8 = (k.taskData t).id :=
    Nat.mod_eq_of_lt ((h.id_lt ht).trans (by decide))
  have hlt := h.id_lt hu
  unfold addSleepingTask
  dsimp only
  rw [standing_setState, hid]
  by_cases hut : u = t
  · subst hut
    simp only [if_true, Standing.sleep]
    ext p
    · rfl
    · rfl
    · rfl
    · simp only [standing, Words.getLsbD_setBit]
      simp
      omega
  · have hne : (k.taskData u).id ≠ (k.taskData t).id := fun he => hut (h.id_inj hu ht he)
    simp only [hut, if_false]
    ext p
    · rfl
    · rfl
    · rfl
    · simp only [standing, Words.getLsbD_setBit]
      simp [hne]

theorem standing_wake (i : ℕ) (hu : k.Registered u) :
    (Primitive.run k (.wake i)).standing u =
      if (k.taskData u).id = i then (k.standing u).roused else k.standing u := by
  have hclear : ∀ k' : Kernel, (k'.taskData u).id = (k.taskData u).id →
      ({ k' with sleepingTasksBitmap := Words.clearBit k'.sleepingTasksBitmap i } :
        Kernel).standing u = { k'.standing u with
          asleep := if (k.taskData u).id = i then false else (k'.standing u).asleep } := by
    intro k' hid
    unfold standing
    simp only [Words.getLsbD_clearBit, hid]
    ext p
    · rfl
    · rfl
    · rfl
    · by_cases hi : (k.taskData u).id = i <;> simp [hi]
  rw [Primitive.run, hclear _ ((sameParameters_setTaskReady k _).id u)]
  by_cases hi : (k.taskData u).id = i
  · have ht : k.tasks i = some u := hi ▸ h.tasks_id hu
    rw [ht, h.standing_setTaskReady hu hu]
    simp only [hi, if_true]
    rfl
  · simp only [hi, if_false]
    cases ht : k.tasks i with
    | none => rfl
    | some t =>
      have hne : u ≠ t := by
        rintro rfl
        exact hi (h.slot_id i u ht)
      rw [h.standing_setTaskReady ⟨i, ht⟩ hu, if_neg hne]

theorem standing_readyRunning (hu : k.Registered u) : k.readyRunning.standing u =
    if u = k.currentTask ∧ k.getState k.currentTask = .eRunning then (k.standing u).entered
    else k.standing u := by
  unfold readyRunning
  by_cases hrun : k.getState k.currentTask = .eRunning
  · simp only [hrun, if_true, and_true]
    rw [h.standing_setTaskReady h.current hu]
    split_ifs with huc
    · rw [huc]
    · rfl
  · simp only [hrun, if_false, and_false]

theorem standing_switches {k' : Kernel} {p i : ℕ} (hs : Switches k k' p i t)
    (hu : k.Registered u) : k'.standing u =
      if u = t then (k.readyRunning.standing t).run p else k.readyRunning.standing u := by
  have hpar := sameParameters_readyRunning k
  have hid : (k.taskData t).id = i := h.slot_id i t hs.slot
  have hbit : ∀ q, k'.readyBit q (k.taskData u).id = true ↔
      k.readyRunning.readyBit q (k.taskData u).id = true ∧ ¬ (u = t ∧ q = p) := by
    intro q
    have hpos : (q, (k.taskData u).id) ≠ (p, i) ↔ ¬ (u = t ∧ q = p) := by
      rw [not_iff_not, Prod.mk.injEq]
      constructor
      · rintro ⟨rfl, he⟩
        exact ⟨h.id_inj hu ⟨i, hs.slot⟩ (he.trans hid.symm), rfl⟩
      · rintro ⟨rfl, rfl⟩
        exact ⟨rfl, hid⟩
    rw [hs.bits, Bool.and_eq_true, ← h.readyBit_readyRunning, decide_eq_true_eq, hpos]
  unfold standing
  simp only [hs.parameters.priority, hs.parameters.id, hpar.priority, hpar.id, hbit, hs.getState,
    hs.sleepingTasksBitmap, sleepingTasksBitmap_readyRunning, ← getState_readyRunning]
  by_cases hut : u = t
  · subst hut
    simp only [if_true, true_and, Standing.run]
    ext q <;> rfl
  · simp only [hut, if_false, false_and, not_false_iff, and_true]

end Seated

namespace Tabled
variable {k : Kernel} (h : Tabled k) {t u : TaskPtr}
include h

theorem level_standing (ht : k.Registered t) : (k.standing t).level < maxPrioryLevels :=
  h.level_lt t ht

theorem standing_setTaskReady (ht : k.Registered t) (hu : k.Registered u) :
    (k.setTaskReady (some t)).standing u =
      if u = t then (k.standing t).ready else k.standing u := by
  rw [h.toSeated.standing_setTaskReady ht hu, Standing.entered_of_lt (h.level_standing ht)]

theorem standing_setReadyWord (ht : k.Registered t) (hu : k.Registered u) :
    (k.setReadyWord t).standing u =
      if u = t then (k.standing t).enter else k.standing u := by
  have hpar := sameParameters_setReadyWord k t
  have hbit : ∀ p, (k.setReadyWord t).readyBit p (k.taskData u).id = true ↔
      k.readyBit p (k.taskData u).id = true ∨ (u = t ∧ p = (k.getPriority t).level) := by
    intro p
    rw [readyBit_setReadyWord, Bool.or_eq_true, decide_eq_true_eq, h.slot_eq_iff ht hu]
    refine or_congr_right ⟨fun hb => hb.2.2, fun hb => ⟨?_, h.id_lt hu, hb⟩⟩
    rw [hb.2]
    exact h.level_standing ht
  unfold standing
  simp only [hpar.priority, hpar.id, hbit, getState_setReadyWord, sleepingTasksBitmap_setReadyWord]
  by_cases hut : u = t
  · subst hut
    simp only [if_true, true_and, Standing.enter]
    ext p
    · rfl
    · rfl
    · simp [or_comm]
    · rfl
  · simp only [hut, if_false, false_and, or_false]

theorem standing_resetTaskReady (ht : k.Registered t) (hu : k.Registered u) :
    (k.resetTaskReady (some t) .eBlocked).standing u =
      if u = t then (k.standing t).block else k.standing u := by
  have hpar := sameParameters_resetTaskReady k t .eBlocked
  have hlt := (h.slot_lt_table ht).1
  have hbit : ∀ p, (k.resetTaskReady (some t) .eBlocked).readyBit p (k.taskData u).id = true ↔
      k.readyBit p (k.taskData u).id = true ∧
        ¬ (k.getState t = .eReady ∧ u = t ∧ p = (k.getPriority t).level) := by
    intro p
    rw [readyBit_resetTaskReady, Bool.and_eq_true, Bool.not_eq_true', decide_eq_false_iff_not,
      h.slot_eq_iff ht hu]
    simp only [hlt, and_true]
  unfold standing
  simp only [hpar.priority, hpar.id, hbit, getState_resetTaskReady,
    sleepingTasksBitmap_resetTaskReady]
  by_cases hut : u = t
  · subst hut
    simp only [if_true, true_and, Standing.block]
    ext p
    · rfl
    · rfl
    · by_cases hs : k.getState u = .eReady <;> simp [hs]
    · rfl
  · simp only [hut, if_false, false_and, and_false, not_false_iff, and_true]

theorem standing_wake (i : ℕ) (hu : k.Registered u) :
    (Primitive.run k (.wake i)).standing u =
      if (k.taskData u).id = i then (k.standing u).wake else k.standing u := by
  rw [h.toSeated.standing_wake i hu, Standing.roused_of_lt (h.level_standing hu)]

theorem standing_switches {k' : Kernel} {p i : ℕ} (hs : Switches k k' p i t)
    (hu : k.Registered u) : k'.standing u =
      if u = t then Standing.run (if t = k.currentTask ∧ k.getState k.currentTask = .eRunning then
        (k.standing t).ready else k.standing t) p
      else if u = k.currentTask ∧ k.getState k.currentTask = .eRunning then (k.standing u).ready
      else k.standing u := by
  have ht : k.Registered t := ⟨i, hs.slot⟩
  rw [h.toSeated.standing_switches hs hu, h.standing_readyRunning ht, h.standing_readyRunning hu,
    Standing.entered_of_lt (h.level_standing ht), Standing.entered_of_lt (h.level_standing hu)]

end Tabled

namespace Registry
variable {k : Kernel} (h : Registry k) {t u : TaskPtr}
include h

theorem standing_added {k' : Kernel} (ht : ¬ k.Registered t) (ha : Adds k k' t) :
    k'.standing t = ⟨.eReady, (k.getPriority t).level, {(k.getPriority t).level}, false⟩ := by
  have hfree : ∀ v, k.tasks k.taskCount ≠ some v :=
    fun v hv => lt_irrefl _ (h.slot_lt _ v hv)
  have hnone : ∀ p, k.readyBit p k.taskCount = false := by
    intro p
    rw [Bool.eq_false_iff]
    intro hbit
    obtain ⟨v, hv⟩ := h.bits p _ hbit
    exact hfree v hv
  have hawake : k.sleepingTasksBitmap.getLsbD k.taskCount = false := by
    rw [Bool.eq_false_iff]
    intro hbit
    obtain ⟨v, hv⟩ := h.sleepers _ hbit
    exact hfree v hv
  unfold standing
  simp only [ha.id, if_true, ha.priority, ha.getState, ha.bits, ha.sleepingTasksBitmap, hnone,
    hawake]
  ext p
  · exact h.unregistered t ht
  · rfl
  · simp
  · rfl

theorem standing_adds {k' : Kernel} (ht : ¬ k.Registered t) (ha : Adds k k' t)
    (hu : k.Registered u) : k'.standing u = k.standing u := by
  have hne : u ≠ t := fun he => ht (he ▸ hu)
  have hid : (k.taskData u).id ≠ k.taskCount := (h.slot_lt _ u (h.tasks_id hu)).ne
  unfold standing
  simp only [ha.id, hne, if_false, ha.priority, ha.getState, ha.bits, ha.sleepingTasksBitmap]
  ext p <;> simp [hid]

end Registry

/-! ## Steps -/

section
variable {C D Q : Standing → Prop} {k k' : Kernel}

theorem Permit.Allows.keeps {a : Primitive} {u : TaskPtr} (hQ : Standing.Kept C D Q)
    (ha : (Permit.of C D).Allows k a) (h : Registry k) (hu : k.Registered u)
    (hQu : Q (k.standing u)) : Q ((a.run k).standing u) := by
  cases a with
  | ready t =>
    rw [Primitive.run, h.tabled.standing_setTaskReady ha hu]
    split_ifs with hut
    · exact hQ.ready _ (hut ▸ hQu)
    · exact hQu
  | block t =>
    rw [Primitive.run, h.tabled.standing_resetTaskReady ha hu]
    split_ifs with hut
    · exact hQ.block _ (hut ▸ hQu)
    · exact hQu
  | rouse t => exact ha.2.elim
  | enter t => exact ha.2.elim
  | suspend t =>
    rw [Primitive.run, standing_setState]
    split_ifs with hut
    · exact hQ.suspend _ (hut ▸ hQu) ha.2
    · exact hQu
  | sleep t n =>
    rw [Primitive.run, h.tabled.standing_addSleepingTask ha.1 hu]
    split_ifs with hut
    · exact hQ.sleep _ (hut ▸ hQu) ha.2
    · exact hQu
  | wake i =>
    rw [h.tabled.standing_wake i hu]
    split_ifs
    · exact hQ.wake _ hQu
    · exact hQu
  | boost t prio =>
    rw [Primitive.run, standing_boost ha.2.2.1]
    split_ifs with hut
    · exact hQ.boost _ _ (hut ▸ hQu) ha.2.1 ha.2.2.1
    · exact hQu
  | reset t =>
    rw [Primitive.run, modifyTask_resetPriority ha.2]
    exact hQu

theorem Effect.keeps {u : TaskPtr} (hQ : Standing.Kept C D Q)
    (he : Effect (Permit.of C D).Allows k k') (h : Registry k) (hu : k.Registered u)
    (hQu : Q (k.standing u)) : Q (k'.standing u) := by
  refine (he.preserves (I := fun k => Registry k ∧ k.Registered u ∧ Q (k.standing u)) ?_ ?_
    ⟨h, hu, hQu⟩).2.2
  · rintro k₁ k₂ hs ⟨hr, hu, hQu⟩
    exact ⟨hr.effect (P := .all) (.same hs), (hs.registered u).mpr hu, by rwa [hs.standing]⟩
  · rintro k₁ a ⟨hr, hu, hQu⟩ ha
    exact ⟨hr.effect (.run a ha), ((a.sameTable k₁).registered u).mpr hu, ha.keeps hQ hr hu hQu⟩

theorem Registry.keeps_switches {u : TaskPtr} (hQ : Standing.Closed C D Q) {p i : ℕ}
    {t : TaskPtr} (hs : Switches k k' p i t) (h : Registry k) (hu : k.Registered u)
    (hQu : Q (k.standing u)) : Q (k'.standing u) := by
  rw [h.tabled.standing_switches hs hu]
  by_cases hut : u = t
  · subst hut
    have hbit : p ∈ (k.standing u).listed := by
      have hb := hs.first.bit
      rw [← h.slot_id i u hs.slot] at hb
      exact hb
    rw [if_pos rfl]
    split_ifs
    · exact hQ.run _ _ (hQ.ready _ hQu) (Set.mem_insert_of_mem _ hbit)
    · exact hQ.run _ _ hQu hbit
  · rw [if_neg hut]
    split_ifs
    · exact hQ.ready _ hQu
    · exact hQu

theorem Registry.keeps_adds {u : TaskPtr} (hQ : Standing.Closed C D Q) {t : TaskPtr}
    (ht : ¬ k.Registered t) (ha : Adds k k' t) (h : Registry k) (hu' : k'.Registered u)
    (hQu : k.Registered u → Q (k.standing u)) : Q (k'.standing u) := by
  rcases (h.registered_adds ha u).mp hu' with rfl | hu
  · rw [h.standing_added ht ha]
    exact hQ.added _ (h.level_le u)
  · rw [h.standing_adds ht ha hu]
    exact hQu hu

/-- What a registered task keeps through a step of the system. -/
theorem Moves.keeps {u : TaskPtr} (hQ : Standing.Closed C D Q)
    (hm : Moves (Permit.of C D) k k') (h : Registry k) (hu' : k'.Registered u)
    (hQu : k.Registered u → Q (k.standing u)) : Q (k'.standing u) := by
  cases hm with
  | effect he =>
    have hu := (he.sameTable.registered u).mp hu'
    exact he.keeps hQ.toKept h hu (hQu hu)
  | switch p i t hs =>
    have hu := ((h.switches_evolves hs).registered u).mp hu'
    exact h.keeps_switches hQ hs hu (hQu hu)
  | adds t hroom ht ha => exact h.keeps_adds hQ ht ha hu' hQu

theorem Moves.stands (hQ : Standing.Closed C D Q) (hm : Moves (Permit.of C D) k k')
    (h : Registry k) (hall : Stands Q k) : Stands Q k' :=
  fun u hu => hm.keeps hQ h hu (hall u)

theorem standing_new (idleTask : TaskPtr) (assigned : TaskPtr → TaskPriority) :
    (new idleTask assigned).standing idleTask = ⟨.eReady, 15, {15}, false⟩ := by
  have ha := adds_new idleTask assigned
  unfold standing
  simp only [ha.id, if_true, ha.priority, ha.getState, ha.bits, ha.sleepingTasksBitmap]
  ext p <;> simp [initial, getState, getPriority, readyBit]

theorem stands_new (hQ : Q ⟨.eReady, 15, {15}, false⟩) (idleTask : TaskPtr)
    (assigned : TaskPtr → TaskPriority) : Stands Q (new idleTask assigned) := by
  intro u hu
  obtain rfl := (registered_new idleTask assigned u).mp hu
  rwa [standing_new]

end

end Kernel

end CppRtos
