import CppRtos.Kernel.Dispatch
import CppRtos.Kernel.Standing

/-! The life of one task in the sleep table: what a tick, the sleep of another task and a
context switch do to its standing, whatever happens to the other tasks. -/
namespace CppRtos.Kernel

/-- A kernel in which task `t` can sleep: the task table is in order, and no alarm activates
`t`. -/
structure Hosts (t : TaskPtr) (k : Kernel) : Prop extends Seated k where
  registered : k.Registered t
  alarms : ∀ i a, k.alarms i = some a → (k.alarmData a).taskToActivate ≠ some t

/-- On the way from `k` to `k'` task `t` comes to stand as `w`, and the tick count becomes
`now`. Its wake-up time, all ids and all priorities stay. -/
structure Passes (t : TaskPtr) (k k' : Kernel) (w : Standing) (now : ℕ) : Prop where
  standing : k'.standing t = w
  tickCount : k'.getTickCount = now
  wakeUpTime : k'.taskWakeUpTimes (k.taskData t).id = k.taskWakeUpTimes (k.taskData t).id
  parameters : SameParameters k k'
  hosts : Hosts t k'

/-- The standing of a task after the wake-up loop of a tick at time `now`. -/
def roused (k : Kernel) (t : TaskPtr) (now : ℕ) : Standing :=
  if (k.standing t).asleep && decide (k.taskWakeUpTimes (k.taskData t).id ≤ now) then
    (k.standing t).roused
  else k.standing t

theorem Passes.trans {t : TaskPtr} {k k' k'' : Kernel} {w w' : Standing} {n n' : ℕ}
    (h : Passes t k k' w n) (h' : Passes t k' k'' w' n') : Passes t k k'' w' n' where
  standing := h'.standing
  tickCount := h'.tickCount
  wakeUpTime := by
    have hw := h'.wakeUpTime
    rw [h.parameters.id] at hw
    exact hw.trans h.wakeUpTime
  parameters := h.parameters.trans h'.parameters
  hosts := h'.hosts

/-- The wake-up time decides together with the standing. -/
theorem Passes.roused {t : TaskPtr} {k k' : Kernel} {n : ℕ} (h : Passes t k k' (k.standing t) n)
    (now : ℕ) : k'.roused t now = k.roused t now := by
  unfold Kernel.roused
  rw [h.standing, h.parameters.id, h.wakeUpTime]

theorem frame_setTaskReady (k : Kernel) (t : Option TaskPtr) :
    (k.setTaskReady t).taskWakeUpTimes = k.taskWakeUpTimes ∧
      (k.setTaskReady t).alarmData = k.alarmData ∧ (k.setTaskReady t).port = k.port := by
  cases t with
  | none => exact ⟨rfl, rfl, rfl⟩
  | some t =>
    unfold setTaskReady
    dsimp only
    split_ifs <;> exact ⟨rfl, rfl, rfl⟩

theorem frame_switchTo (k : Kernel) (p i : ℕ) :
    (k.switchTo p i).taskWakeUpTimes = k.taskWakeUpTimes ∧
      (k.switchTo p i).alarmData = k.alarmData ∧ (k.switchTo p i).port = k.port := by
  unfold switchTo
  cases k.tasks i with
  | none => exact ⟨rfl, rfl, rfl⟩
  | some t =>
    dsimp only
    split_ifs
    · exact frame_setTaskReady k (some k.currentTask)
    · exact ⟨rfl, rfl, rfl⟩

namespace Hosts
variable {t : TaskPtr} {k : Kernel} (h : Hosts t k)
include h

theorem id_lt : (k.taskData t).id < 32 := h.toSeated.id_lt h.registered

theorem of_same {k' : Kernel} (ht : SameTable k k') (hp : SameParameters k k')
    (ha : ∀ a, (k'.alarmData a).taskToActivate = (k.alarmData a).taskToActivate) : Hosts t k' where
  toSeated := h.toSeated.congr ht.tasks hp.id (ht.currentTask ▸ h.current)
  registered := (ht.registered t).mpr h.registered
  alarms i a hi := by
    rw [ht.alarms] at hi
    rw [ha]
    exact h.alarms i a hi

theorem passes_same {k' : Kernel} (hs : SameSchedule k k')
    (hw : k'.taskWakeUpTimes = k.taskWakeUpTimes) (ha : k'.alarmData = k.alarmData) {now : ℕ}
    (hn : k'.getTickCount = now) : Passes t k k' (k.standing t) now where
  standing := hs.standing t
  tickCount := hn
  wakeUpTime := congrFun hw _
  parameters := hs.toSameParameters
  hosts := h.of_same hs.toSameTable hs.toSameParameters fun a => by rw [ha]

theorem passes_port (p : Port) {now : ℕ} (hn : p.tickCount = now) :
    Passes t k { k with port := p } (k.standing t) now :=
  h.passes_same (sameSchedule_port k p) rfl rfl hn

theorem passes_refl : Passes t k k (k.standing t) k.getTickCount :=
  h.passes_same (.refl k) rfl rfl rfl

theorem passes_enterCritical : Passes t k k.enterCritical (k.standing t) k.getTickCount := by
  unfold enterCritical
  exact h.passes_port _ (Port.tickCount_enterCritical k.port)

theorem passes_exitCritical : Passes t k k.exitCritical (k.standing t) k.getTickCount := by
  unfold exitCritical
  exact h.passes_port _ (Port.tickCount_exitCritical k.port)

theorem passes_yield : Passes t k k.yield (k.standing t) k.getTickCount := by
  unfold yield
  exact h.passes_port _ (Port.tickCount_yield k.port)

theorem passes_assert (b : Bool) : Passes t k (k.assert b) (k.standing t) k.getTickCount :=
  h.passes_same (sameSchedule_assert k b) rfl rfl rfl

/-! ## The tick -/

theorem passes_wakeUp (now i : ℕ) : Passes t k (wakeUp now k i)
    (if (k.taskData t).id = i then k.roused t now else k.standing t) k.getTickCount := by
  unfold wakeUp
  by_cases hw : (k.sleepingTasksBitmap.getLsbD i && decide (k.taskWakeUpTimes i ≤ now)) = true
  · rw [if_pos hw]
    have htab := Primitive.sameTable k (.wake i)
    have hpar := sameParameters_setTaskReady k (k.tasks i)
    have hst := h.toSeated.standing_wake i h.registered
    obtain ⟨htimes, halarm, hport⟩ := frame_setTaskReady k (k.tasks i)
    refine ⟨hst.trans ?_, ?_, ?_, ⟨hpar.priority, hpar.basePriority, hpar.id⟩,
      h.of_same htab ⟨hpar.priority, hpar.basePriority, hpar.id⟩ fun a => ?_⟩
    · by_cases hi : (k.taskData t).id = i
      · have hdue : ((k.standing t).asleep &&
            decide (k.taskWakeUpTimes (k.taskData t).id ≤ now)) = true := by
          rw [hi]
          rw [← hw]
          unfold standing
          rw [hi]
        rw [if_pos hi, if_pos hi, roused, if_pos hdue]
      · rw [if_neg hi, if_neg hi]
    · exact congrArg Port.tickCount hport
    · exact congrFun htimes _
    · exact congrArg Alarm.taskToActivate (congrFun halarm a)
  · rw [if_neg hw]
    have hsame : (if (k.taskData t).id = i then k.roused t now else k.standing t) =
        k.standing t := by
      split_ifs with hi
      · have hdue : ¬ ((k.standing t).asleep &&
            decide (k.taskWakeUpTimes (k.taskData t).id ≤ now)) = true := by
          rw [hi]
          unfold standing
          rw [hi]
          exact hw
        rw [roused, if_neg hdue]
      · rfl
    rw [hsame]
    exact h.passes_refl

/-- The loop rouses the task once, when it comes to its slot. -/
theorem passes_wakeUps (now : ℕ) (slots : List ℕ) (hn : slots.Nodup) :
    Passes t k (slots.foldl (wakeUp now) k)
      (if (k.taskData t).id ∈ slots then k.roused t now else k.standing t) k.getTickCount := by
  induction slots generalizing k with
  | nil => exact h.passes_refl
  | cons i slots ih =>
    obtain ⟨hi, hn⟩ := List.nodup_cons.mp hn
    have hstep := h.passes_wakeUp now i
    have hrest := ih hstep.hosts hn
    rw [hstep.tickCount, hstep.parameters.id] at hrest
    rw [List.foldl_cons]
    by_cases he : (k.taskData t).id = i
    · rw [if_neg (he ▸ hi)] at hrest
      have hall := hstep.trans hrest
      rw [hstep.standing, if_pos he] at hall
      rwa [if_pos (by rw [he]; exact List.mem_cons_self)]
    · rw [if_neg he] at hstep
      have hall := hstep.trans hrest
      rw [hstep.roused, hstep.standing] at hall
      have hmem : (k.taskData t).id ∈ i :: slots ↔ (k.taskData t).id ∈ slots := by
        rw [List.mem_cons]
        exact or_iff_right he
      simp only [hmem]
      exact hall

/-- What a loop over slots keeps if its body keeps it for the objects in the slots. -/
theorem passes_forSlots {slots : ℕ → Option ℕ} {f : Kernel → ℕ → Kernel}
    (hf : ∀ k' i x, slots i = some x → k'.alarms = k.alarms → Hosts t k' →
      (f k' x).alarms = k'.alarms ∧ Passes t k' (f k' x) (k'.standing t) k'.getTickCount) :
    Passes t k (forSlots slots f k) (k.standing t) k.getTickCount := by
  have hall : ∀ (l : List ℕ) (k' : Kernel), k'.alarms = k.alarms → Hosts t k' →
      Passes t k' (l.foldl (fun k i => (slots i).elim k (f k)) k') (k'.standing t)
        k'.getTickCount := by
    intro l
    induction l with
    | nil => exact fun k' _ hk' => hk'.passes_refl
    | cons i l ih =>
      intro k' halarms hk'
      rw [List.foldl_cons]
      cases hi : slots i with
      | none => exact ih k' halarms hk'
      | some x =>
        obtain ⟨ha, hp⟩ := hf k' i x hi halarms hk'
        have hrest := ih (f k' x) (ha.trans halarms) hp.hosts
        rw [hp.standing, hp.tickCount] at hrest
        exact hp.trans hrest
  exact hall _ k rfl h

theorem passes_tickTimer (timer : TimerPtr) : (k.tickTimer timer).alarms = k.alarms ∧
    Passes t k (k.tickTimer timer) (k.standing t) k.getTickCount := by
  have hframe : (k.tickTimer timer).taskWakeUpTimes = k.taskWakeUpTimes ∧
      (k.tickTimer timer).alarmData = k.alarmData ∧
      (k.tickTimer timer).getTickCount = k.getTickCount := by
    unfold tickTimer
    dsimp only
    split_ifs
    · cases (k.timerData timer).callback <;> exact ⟨rfl, rfl, rfl⟩
    · exact ⟨rfl, rfl, rfl⟩
  have hs := sameSchedule_tickTimer k timer
  exact ⟨hs.alarms, h.passes_same hs hframe.1 hframe.2.1 hframe.2.2⟩

theorem passes_updateTimers : Passes t k k.updateTimers (k.standing t) k.getTickCount :=
  h.passes_forSlots fun _ _ timer _ _ hk => hk.passes_tickTimer timer

theorem passes_incrementCounters :
    Passes t k k.incrementCounters (k.standing t) k.getTickCount :=
  h.passes_forSlots fun k' _ c _ _ hk => by
    have hs : SameSchedule k' { k' with
        counterData := Function.update k'.counterData c (k'.counterData c).increment } :=
      .of_taskData ⟨rfl, rfl, rfl, rfl, rfl, rfl⟩ rfl rfl rfl
    exact ⟨rfl, hk.passes_same hs rfl rfl rfl⟩

/-- Another task is made ready without an entry in the ready table. -/
theorem passes_setState {u : TaskPtr} (hu : u ≠ t) (s : TaskStateType) :
    Passes t k (k.setState u s) (k.standing t) k.getTickCount where
  standing := by
    rw [standing_setState, if_neg hu.symm]
  tickCount := rfl
  wakeUpTime := rfl
  parameters := sameParameters_setState k u s
  hosts := h.of_same ⟨rfl, rfl, rfl, rfl, rfl, rfl⟩ (sameParameters_setState k u s) fun _ => rfl

theorem passes_taskYield : Passes t k k.taskYield (k.standing t) k.getTickCount := by
  have hassert := h.passes_assert (!k.isInsideInterrupt)
  unfold taskYield
  dsimp only
  split_ifs
  · have hyield := hassert.hosts.passes_yield
    rw [hassert.standing, hassert.tickCount] at hyield
    exact hassert.trans hyield
  · exact hassert

theorem passes_checkAndTrigger {i : ℕ} {a : AlarmPtr} (hi : k.alarms i = some a) :
    (k.checkAndTrigger a).alarms = k.alarms ∧
      Passes t k (k.checkAndTrigger a) (k.standing t) k.getTickCount := by
  have hne := h.alarms i a hi
  unfold checkAndTrigger
  dsimp only
  split_ifs with hexp
  · set alarm := (k.alarmData a).rearm (k.counterData (k.alarmData a).counter) with halarm
    set k₁ : Kernel := { k with alarmData := Function.update k.alarmData a alarm }
    have hact : ∀ b, (k₁.alarmData b).taskToActivate = (k.alarmData b).taskToActivate := by
      intro b
      by_cases hb : b = a
      · have hrearm : alarm.taskToActivate = (k.alarmData a).taskToActivate := by
          rw [halarm, Alarm.rearm]
          split_ifs <;> rfl
        rw [hb, ← hrearm]
        exact congrArg Alarm.taskToActivate (Function.update_self a alarm k.alarmData)
      · exact congrArg Alarm.taskToActivate (Function.update_of_ne hb alarm k.alarmData)
    have hpar : SameParameters k k₁ := ⟨fun _ => rfl, fun _ => rfl, fun _ => rfl⟩
    have h₁ : Passes t k k₁ (k.standing t) k.getTickCount :=
      ⟨rfl, rfl, rfl, hpar, h.of_same ⟨rfl, rfl, rfl, rfl, rfl, rfl⟩ hpar hact⟩
    cases htask : (k.alarmData a).taskToActivate with
    | none =>
      dsimp only
      cases (k.alarmData a).callback with
      | none => exact ⟨rfl, h₁.trans (h₁.hosts.passes_assert false)⟩
      | some c =>
        have hsame := sameSchedule_invokeCallback k₁ c (k.alarmData a).callbackArg
        exact ⟨rfl, h₁.trans (h₁.hosts.passes_same hsame rfl rfl rfl)⟩
    | some u =>
      have hut : u ≠ t := by
        rintro rfl
        exact hne htask
      dsimp only
      split_ifs
      · have hset := h₁.hosts.passes_setState hut .eReady
        have hyield := hset.hosts.passes_taskYield
        rw [hset.standing, hset.tickCount] at hyield
        exact ⟨(sameSchedule_taskYield _).alarms, h₁.trans (hset.trans hyield)⟩
      · exact ⟨rfl, h₁⟩
  · exact ⟨rfl, h.passes_refl⟩

theorem passes_checkAlarms : Passes t k k.checkAlarms (k.standing t) k.getTickCount :=
  h.passes_forSlots fun _ i _ hi halarms hk =>
    hk.passes_checkAndTrigger (i := i) (halarms ▸ hi)

theorem passes_tick : Passes t k k.tick (k.roused t k.getTickCount) k.getTickCount := by
  have hwake := h.passes_wakeUps k.getTickCount (List.range maxTasks) List.nodup_range
  have hslot : (k.taskData t).id ∈ List.range maxTasks := List.mem_range.mpr h.id_lt
  rw [if_pos hslot] at hwake
  have htimers := hwake.hosts.passes_updateTimers
  rw [hwake.standing, hwake.tickCount] at htimers
  have hcounters := htimers.hosts.passes_incrementCounters
  rw [htimers.standing, htimers.tickCount] at hcounters
  have halarms := hcounters.hosts.passes_checkAlarms
  rw [hcounters.standing, hcounters.tickCount] at halarms
  exact hwake.trans (htimers.trans (hcounters.trans halarms))

theorem passes_sysTickHandler : Passes t k k.sysTickHandler
    (k.roused t ((k.getTickCount + 1) % 2 ^ 64)) ((k.getTickCount + 1) % 2 ^ 64) := by
  unfold sysTickHandler
  dsimp only
  set k₁ : Kernel := { k with port :=
    ({ k.port with masked := true, insideInterrupt := true } : Port).incrementTickCount }
  have hin : Passes t k k₁ (k.standing t) ((k.getTickCount + 1) % 2 ^ 64) := h.passes_port _ rfl
  have htick := hin.hosts.passes_tick
  rw [hin.roused, hin.tickCount] at htick
  have hout := htick.hosts.passes_port
    { k₁.tick.port with pendSV := true, masked := false, insideInterrupt := false } htick.tickCount
  rw [htick.standing] at hout
  exact hin.trans (htick.trans hout)

/-! ## Other tasks -/

theorem passes_addSleepingTask {u : TaskPtr} (hu : k.Registered u) (n : ℕ) (hne : u ≠ t) :
    Passes t k (k.addSleepingTask u n) (k.standing t) k.getTickCount where
  standing := by
    rw [h.toSeated.standing_addSleepingTask hu h.registered, if_neg hne.symm]
  tickCount := rfl
  wakeUpTime := by
    have hid : (k.taskData u).id % 2 ^ 8 = (k.taskData u).id :=
      Nat.mod_eq_of_lt ((h.toSeated.id_lt hu).trans (by decide))
    refine Function.update_of_ne ?_ _ _
    rw [hid]
    exact fun he => hne (h.toSeated.id_inj hu h.registered he.symm)
  parameters := by
    have hpar := sameParameters_setState k u .eSleeping
    exact ⟨hpar.priority, hpar.basePriority, hpar.id⟩
  hosts := by
    have hpar := sameParameters_setState k u .eSleeping
    exact h.of_same ⟨rfl, rfl, rfl, rfl, rfl, rfl⟩
      ⟨hpar.priority, hpar.basePriority, hpar.id⟩ fun _ => rfl

theorem of_switches {k' : Kernel} {p i : ℕ} {u : TaskPtr} (hs : Switches k k' p i u)
    (ha : k'.alarmData = k.alarmData) : Hosts t k' where
  toSeated := h.toSeated.congr hs.tasks hs.parameters.id ⟨i, hs.currentTask ▸ hs.slot⟩
  registered := by
    unfold Registered
    rw [hs.tasks]
    exact h.registered
  alarms j a hj := by
    rw [hs.alarms] at hj
    rw [ha]
    exact h.alarms j a hj

/-- A context switch keeps the sleep bit, and a task that is neither running nor listed keeps
its whole standing. -/
theorem passes_select :
    Passes t k k.selectHighestPriorityTask (k.selectHighestPriorityTask.standing t)
        k.getTickCount ∧
      (k.selectHighestPriorityTask.standing t).asleep = (k.standing t).asleep ∧
      (k.getState t ≠ .eRunning → (k.standing t).listed = ∅ →
        k.selectHighestPriorityTask.standing t = k.standing t) := by
  obtain ⟨hf, hs⟩ | ⟨p, i, hf, hs⟩ := k.select_cases
  · rw [hs]
    have henter := h.passes_enterCritical
    have hexit := henter.hosts.passes_exitCritical
    rw [henter.standing, henter.tickCount] at hexit
    have hall := henter.trans hexit
    rw [hall.standing]
    exact ⟨hall, rfl, fun _ _ => rfl⟩
  · cases hu : k.tasks i with
    | none =>
      -- The bit belongs to no task: a null pointer is dereferenced.
      have hnull : k.enterCritical.switchTo p i = k.enterCritical.assert false := by
        unfold switchTo
        rw [show k.enterCritical.tasks i = none from hu]
      rw [hs, hnull]
      have henter := h.passes_enterCritical
      have hassert := henter.hosts.passes_assert false
      rw [henter.standing, henter.tickCount] at hassert
      have hexit := hassert.hosts.passes_exitCritical
      rw [hassert.standing, hassert.tickCount] at hexit
      have hall := henter.trans (hassert.trans hexit)
      rw [hall.standing]
      exact ⟨hall, rfl, fun _ _ => rfl⟩
    | some u =>
      have hsw := h.toSeated.select_some hf hu
      obtain ⟨htimes, halarm, hport⟩ := frame_switchTo k.enterCritical p i
      have hframe : k.selectHighestPriorityTask.taskWakeUpTimes = k.taskWakeUpTimes ∧
          k.selectHighestPriorityTask.alarmData = k.alarmData := by
        rw [hs]
        unfold exitCritical
        dsimp only
        rw [htimes, halarm]
        unfold enterCritical
        exact ⟨rfl, rfl⟩
      have hcount : k.selectHighestPriorityTask.getTickCount = k.getTickCount := by
        rw [hs]
        unfold exitCritical getTickCount
        rw [Port.tickCount_exitCritical, hport]
        exact Port.tickCount_enterCritical k.port
      have hst := h.toSeated.standing_switches hsw h.registered
      have hready := h.toSeated.standing_readyRunning h.registered
      have hasleep : (k.readyRunning.standing t).asleep = (k.standing t).asleep := by
        rw [hready]
        split_ifs
        · exact Standing.asleep_entered _
        · rfl
      refine ⟨⟨rfl, hcount, congrFun hframe.1 _, hsw.parameters, h.of_switches hsw hframe.2⟩,
        ?_, fun hrun hlisted => ?_⟩
      · rw [hst, ← hasleep]
        split_ifs with htu
        · rw [htu]
          rfl
        · rfl
      · have htu : t ≠ u := by
          rintro rfl
          have hbit := hsw.first.bit
          rw [← h.slot_id i t hsw.slot] at hbit
          have hmem : p ∈ (k.standing t).listed := hbit
          rw [hlisted] at hmem
          exact hmem
        rw [hst, if_neg htu, hready, if_neg]
        rintro ⟨rfl, hr⟩
        exact hrun hr

end Hosts

end CppRtos.Kernel
