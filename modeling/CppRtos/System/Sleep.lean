import CppRtos.Kernel.Agreement
import CppRtos.Kernel.Sleep
import CppRtos.System.Sound

/-! Sleeping is exact: a task that calls `sleep` is woken by the first tick whose count has
reached its wake-up time, whatever other tasks sleep, wake or run in between. -/
namespace CppRtos.Kernel

/-- The kernel after `Task::sleep` has requested the switch. -/
def asleep (k : Kernel) (t : TaskPtr) (ticks : ℕ) : Kernel :=
  (TaskCall.sleepRegion k t ticks).yield

inductive SleepEvent where
  | sysTick
  | sleep (u : TaskPtr) (ticks : ℕ)
  | switch
deriving DecidableEq, Repr

/-- Ticks, context switches and the sleeps of other tasks than `t`. -/
def around (t : TaskPtr) : Machine Kernel SleepEvent where
  guard
    | .sleep u _, k => u ≠ t ∧ k.Registered u
    | _, _ => True
  apply
    | .sysTick, k => k.sysTickHandler
    | .sleep u ticks, k => k.asleep u ticks
    | .switch, k => k.pendSVHandler

def ticks (es : List SleepEvent) : ℕ := es.count .sysTick

/-- Among `m` ticks after tick count `s` there is one with a count of at least `s + n`. -/
def Due (n m : ℕ) : Prop := 0 < m ∧ n ≤ m

instance (n m : ℕ) : Decidable (Due n m) := inferInstanceAs (Decidable (_ ∧ _))

/-- Task `t` has called `sleep(n)` at tick count `s`, and `m` ticks have passed since. -/
structure Sleeps (t : TaskPtr) (l s n m : ℕ) (k : Kernel) : Prop where
  hosts : Hosts t k
  tickCount : k.getTickCount = s + m
  before : ¬ Due n m → k.standing t = ⟨.eSleeping, l, ∅, true⟩ ∧
    k.taskWakeUpTimes (k.taskData t).id = s + n
  after : Due n m → (k.standing t).asleep = false

/-- The kernel can host the sleep of task `t`, which is running. -/
structure CanSleep (t : TaskPtr) (k : Kernel) : Prop extends Hosts t k where
  running : k.getState t = .eRunning

/-- No word of the ready table holds the bit of the task, and its level is one of the table. -/
structure Cleared (t : TaskPtr) (k : Kernel) : Prop where
  unlisted : ∀ p, k.readyBit p (k.taskData t).id = false
  level_lt : (k.getPriority t).level < maxPrioryLevels

theorem listed_eq_empty {t : TaskPtr} {k : Kernel}
    (h : ∀ p, k.readyBit p (k.taskData t).id = false) : (k.standing t).listed = ∅ :=
  Set.eq_empty_of_forall_notMem fun p => Bool.eq_false_iff.mp (h p)

namespace Hosts
variable {t : TaskPtr} {k : Kernel} (h : Hosts t k)
include h

theorem passes_asleep {u : TaskPtr} (hu : k.Registered u) (n : ℕ) (hne : u ≠ t) :
    Passes t k (k.asleep u n) (k.standing t) k.getTickCount := by
  unfold asleep TaskCall.sleepRegion
  dsimp only
  set k₁ := (k.assert (!k.isInsideInterrupt)).enterCritical
  have hassert := h.passes_assert (!k.isInsideInterrupt)
  have henter := hassert.hosts.passes_enterCritical
  rw [hassert.standing, hassert.tickCount] at henter
  have hin : Passes t k k₁ (k.standing t) k.getTickCount := hassert.trans henter
  have hreg : k₁.Registered u :=
    ((sameSchedule_assert k _).trans (sameSchedule_enterCritical _)).registered u |>.mpr hu
  have hsleep := hin.hosts.passes_addSleepingTask hreg n hne
  rw [hin.standing, hin.tickCount] at hsleep
  have hexit := hsleep.hosts.passes_exitCritical
  rw [hsleep.standing, hsleep.tickCount] at hexit
  have hyield := hexit.hosts.passes_yield
  rw [hexit.standing, hexit.tickCount] at hyield
  exact hin.trans (hsleep.trans (hexit.trans hyield))

theorem passes_pendSVHandler :
    Passes t k k.pendSVHandler (k.pendSVHandler.standing t) k.getTickCount ∧
      (k.pendSVHandler.standing t).asleep = (k.standing t).asleep ∧
      (k.getState t ≠ .eRunning → (k.standing t).listed = ∅ →
        k.pendSVHandler.standing t = k.standing t) := by
  unfold pendSVHandler
  set k₁ : Kernel := { k with port := { k.port with pendSV := false, masked := true } }
  have hin : Passes t k k₁ (k.standing t) k.getTickCount := h.passes_port _ rfl
  obtain ⟨hsel, hkeep, hsame⟩ := hin.hosts.passes_select
  rw [hin.tickCount] at hsel
  have hout := hsel.hosts.passes_port
    { k₁.selectHighestPriorityTask.port with masked := false } hsel.tickCount
  have hall := hin.trans (hsel.trans hout)
  refine ⟨?_, ?_, fun hrun hlisted => ?_⟩
  · rw [hall.standing]
    exact hall
  · rw [hall.standing]
    exact hkeep
  · rw [hall.standing]
    exact hsame hrun hlisted

end Hosts

theorem CanSleep.asleep {t : TaskPtr} {k : Kernel} (h : CanSleep t k) {n : ℕ}
    (hs : k.getTickCount + n < 2 ^ 64) :
    Hosts t (k.asleep t n) ∧ (k.asleep t n).getTickCount = k.getTickCount ∧
      (k.asleep t n).standing t = (k.standing t).sleep ∧
      (k.asleep t n).taskWakeUpTimes ((k.asleep t n).taskData t).id = k.getTickCount + n := by
  unfold Kernel.asleep TaskCall.sleepRegion
  dsimp only
  set k₁ := (k.assert (!k.isInsideInterrupt)).enterCritical
  have hassert := h.toHosts.passes_assert (!k.isInsideInterrupt)
  have henter := hassert.hosts.passes_enterCritical
  rw [hassert.standing, hassert.tickCount] at henter
  have hin : Passes t k k₁ (k.standing t) k.getTickCount := hassert.trans henter
  set k₂ := k₁.addSleepingTask t n
  have hpar := sameParameters_setState k₁ t .eSleeping
  have hpar₂ : SameParameters k₁ k₂ := ⟨hpar.priority, hpar.basePriority, hpar.id⟩
  have hosts₂ : Hosts t k₂ := hin.hosts.of_same ⟨rfl, rfl, rfl, rfl, rfl, rfl⟩ hpar₂ fun _ => rfl
  have hst : k₂.standing t = (k.standing t).sleep := by
    have hsleep := hin.hosts.toSeated.standing_addSleepingTask hin.hosts.registered
      hin.hosts.registered n
    rwa [if_pos rfl, hin.standing] at hsleep
  have hwake : k₂.taskWakeUpTimes (k₂.taskData t).id = k.getTickCount + n := by
    have hid : (k₁.taskData t).id % 2 ^ 8 = (k₁.taskData t).id :=
      Nat.mod_eq_of_lt (hin.hosts.id_lt.trans (by decide))
    have htimes : k₂.taskWakeUpTimes = Function.update k₁.taskWakeUpTimes
        ((k₁.taskData t).id % 2 ^ 8) ((k₁.getTickCount + n) % 2 ^ 64) := rfl
    rw [htimes, hpar₂.id, hid, Function.update_self, hin.tickCount, Nat.mod_eq_of_lt hs]
  have hcount : k₂.getTickCount = k.getTickCount := hin.tickCount
  have hexit := hosts₂.passes_exitCritical
  have hyield := hexit.hosts.passes_yield
  rw [hexit.standing, hexit.tickCount] at hyield
  have hout := hexit.trans hyield
  refine ⟨hout.hosts, hout.tickCount.trans hcount, hout.standing.trans hst, ?_⟩
  rw [hout.parameters.id, hout.wakeUpTime, hwake]

theorem CanSleep.sleeps {t : TaskPtr} {k : Kernel} (h : CanSleep t k)
    (hcleared : ∀ p, k.readyBit p (k.taskData t).id = false) {n : ℕ}
    (hs : k.getTickCount + n < 2 ^ 64) :
    Sleeps t (k.getPriority t).level k.getTickCount n 0 (k.asleep t n) := by
  obtain ⟨hosts, hcount, hst, hwake⟩ := h.asleep hs
  refine ⟨hosts, hcount, fun _ => ⟨hst.trans ?_, hwake⟩, fun hdue => absurd hdue.1 (lt_irrefl 0)⟩
  have hlisted := listed_eq_empty hcleared
  ext p
  · rfl
  · rfl
  · exact Set.ext_iff.mp hlisted p
  · rfl

namespace Sleeps
variable {t : TaskPtr} {l s n m : ℕ} {k : Kernel} (h : Sleeps t l s n m k)
include h

/-- Steps that keep the sleep bit, and the standing of the sleeping task. -/
theorem passes {k' : Kernel} {w : Standing} (hp : Passes t k k' w k.getTickCount)
    (ha : w.asleep = (k.standing t).asleep)
    (hs : k.getState t ≠ .eRunning → (k.standing t).listed = ∅ → w = k.standing t) :
    Sleeps t l s n m k' where
  hosts := hp.hosts
  tickCount := hp.tickCount.trans h.tickCount
  before hdue := by
    obtain ⟨hst, hwake⟩ := h.before hdue
    have hstate : k.getState t = .eSleeping := congrArg Standing.state hst
    have hlisted : (k.standing t).listed = ∅ := congrArg Standing.listed hst
    have hsame := hs (by rw [hstate]; decide) hlisted
    rw [hp.standing, hsame, hp.parameters.id, hp.wakeUpTime]
    exact ⟨hst, hwake⟩
  after hdue := by
    rw [hp.standing, ha]
    exact h.after hdue

/-- The tick wakes the task exactly when it is the first that is due. -/
theorem sysTick (hwrap : s + m + 1 < 2 ^ 64) : Sleeps t l s n (m + 1) k.sysTickHandler ∧
    k.sysTickHandler.standing t =
      if ¬ Due n m ∧ Due n (m + 1) then (⟨.eSleeping, l, ∅, true⟩ : Standing).roused
      else k.standing t := by
  have hp := h.hosts.passes_sysTickHandler
  rw [h.tickCount, Nat.mod_eq_of_lt hwrap] at hp
  by_cases hdue : Due n m
  · have hasleep := h.after hdue
    have hrest : k.roused t (s + m + 1) = k.standing t := by
      unfold roused
      rw [hasleep]
      rfl
    have hnext : Due n (m + 1) := ⟨Nat.succ_pos m, hdue.2.trans (Nat.le_succ m)⟩
    rw [hrest] at hp
    refine ⟨⟨hp.hosts, hp.tickCount, fun hnot => absurd hnext hnot, fun _ => ?_⟩, ?_⟩
    · rw [hp.standing]
      exact hasleep
    · rw [if_neg fun hc => hc.1 hdue]
      exact hp.standing
  · obtain ⟨hst, hwake⟩ := h.before hdue
    have hroused : k.roused t (s + m + 1) = if s + n ≤ s + m + 1 then
        (⟨.eSleeping, l, ∅, true⟩ : Standing).roused else ⟨.eSleeping, l, ∅, true⟩ := by
      unfold roused
      rw [hst, hwake]
      split_ifs with hc hle hle
      · rfl
      · simp only [Bool.true_and, decide_eq_true_eq] at hc
        exact absurd hc hle
      · simp only [Bool.true_and, decide_eq_true_eq] at hc
        exact absurd hle hc
      · rfl
    rw [hroused] at hp
    by_cases hle : s + n ≤ s + m + 1
    · have hnext : Due n (m + 1) := ⟨Nat.succ_pos m, by omega⟩
      rw [if_pos hle] at hp
      refine ⟨⟨hp.hosts, hp.tickCount, fun hnot => absurd hnext hnot, fun _ => ?_⟩, ?_⟩
      · rw [hp.standing]
        rfl
      · rw [if_pos ⟨hdue, hnext⟩]
        exact hp.standing
    · have hnext : ¬ Due n (m + 1) := fun hn => hle (by have := hn.2; omega)
      rw [if_neg hle] at hp
      refine ⟨⟨hp.hosts, hp.tickCount, fun _ => ⟨hp.standing, ?_⟩, fun hd => absurd hd hnext⟩, ?_⟩
      · rw [hp.parameters.id, hp.wakeUpTime, hwake]
      · rw [if_neg fun hc => hnext hc.2, hst]
        exact hp.standing

theorem run {es : List SleepEvent} (hv : (around t).Valid k es)
    (hwrap : s + m + ticks es < 2 ^ 64) : Sleeps t l s n (m + ticks es) ((around t).exec k es) := by
  induction es generalizing k m with
  | nil => exact h
  | cons e es ih =>
    have hcount : ticks (e :: es) = ticks es + if e = .sysTick then 1 else 0 := by
      unfold ticks
      rw [List.count_cons]
      simp only [beq_iff_eq]
    rw [hcount] at hwrap ⊢
    rw [Machine.exec_cons]
    cases e with
    | sysTick =>
      simp only [if_true] at hwrap ⊢
      have hnext := ih (h.sysTick (by omega)).1 hv.2 (by omega)
      rwa [show m + 1 + ticks es = m + (ticks es + 1) by omega] at hnext
    | sleep u d =>
      simp only [reduceCtorEq, if_false, Nat.add_zero] at hwrap ⊢
      have hp := h.hosts.passes_asleep hv.1.2 d hv.1.1
      have hnext : Sleeps t l s n m ((around t).apply (.sleep u d) k) :=
        h.passes hp rfl fun _ _ => rfl
      exact ih hnext hv.2 (by omega)
    | switch =>
      simp only [reduceCtorEq, if_false, Nat.add_zero] at hwrap ⊢
      obtain ⟨hp, ha, hs⟩ := h.hosts.passes_pendSVHandler
      have hnext : Sleeps t l s n m ((around t).apply .switch k) := h.passes hp ha hs
      exact ih hnext hv.2 (by omega)

end Sleeps

/-- A task that sleeps for `n` ticks, `m` ticks after its call: it sleeps, and no ready bit is
its, until the first tick that is due; it is woken by this one, and left alone by the later ones. -/
structure SleepsExactly (t n m : ℕ) (k : Kernel) : Prop where
  sleeping : ¬ Due n m → k.getState t = .eSleeping ∧
    k.sleepingTasksBitmap.getLsbD (k.taskData t).id = true ∧
    ∀ p, k.readyBit p (k.taskData t).id = false
  woken : ¬ Due n m → Due n (m + 1) → k.sysTickHandler.getState t = .eReady ∧
    (∀ p, k.sysTickHandler.readyBit p (k.sysTickHandler.taskData t).id = true ↔
      p = (k.sysTickHandler.getPriority t).level) ∧
    k.sysTickHandler.sleepingTasksBitmap.getLsbD (k.sysTickHandler.taskData t).id = false
  left : Due n m → k.sleepingTasksBitmap.getLsbD (k.taskData t).id = false ∧
    k.sysTickHandler.standing t = k.standing t

theorem roused_sleeping {l : ℕ} (hl : l < maxPrioryLevels) :
    (⟨.eSleeping, l, ∅, true⟩ : Standing).roused = ⟨.eReady, l, {l}, false⟩ := by
  rw [Standing.roused_of_lt hl]
  simp [Standing.wake, Standing.ready]

theorem Sleeps.exactly {t : TaskPtr} {l s n m : ℕ} {k : Kernel} (h : Sleeps t l s n m k)
    (hl : l < maxPrioryLevels) (hwrap : s + m + 1 < 2 ^ 64) : SleepsExactly t n m k := by
  obtain ⟨-, htick⟩ := h.sysTick hwrap
  rw [roused_sleeping hl] at htick
  constructor
  · intro hnot
    have hst := (h.before hnot).1
    refine ⟨congrArg Standing.state hst, congrArg Standing.asleep hst, fun p => ?_⟩
    have hnone : p ∉ (k.standing t).listed := by
      rw [congrArg Standing.listed hst]
      exact Set.notMem_empty p
    exact Bool.eq_false_iff.mpr hnone
  · intro hnot hdue
    rw [if_pos ⟨hnot, hdue⟩] at htick
    refine ⟨congrArg Standing.state htick, fun p => ?_, congrArg Standing.asleep htick⟩
    have hlevel : (k.sysTickHandler.getPriority t).level = l := congrArg Standing.level htick
    have hmem := Set.ext_iff.mp (congrArg Standing.listed htick) p
    rw [hlevel]
    exact hmem
  · intro hdue
    rw [if_neg fun hc => hc.1 hdue] at htick
    exact ⟨h.after hdue, htick⟩

/-- A task whose level is none of the table is not entered by the tick that wakes it. -/
theorem Sleeps.level_lt {t : TaskPtr} {l s n m : ℕ} {k : Kernel} (h : Sleeps t l s n m k)
    (hnot : ¬ Due n m) (hdue : Due n (m + 1)) (hwrap : s + m + 1 < 2 ^ 64)
    (hexact : SleepsExactly t n m k) : l < maxPrioryLevels := by
  by_contra hl
  obtain ⟨-, htick⟩ := h.sysTick hwrap
  rw [if_pos ⟨hnot, hdue⟩] at htick
  have hlisted : (k.sysTickHandler.standing t).listed = ∅ := by
    rw [htick]
    unfold Standing.roused Standing.entered
    rw [if_neg hl]
  have hbit := ((hexact.woken hnot hdue).2.1 _).mpr rfl
  have hmem : (k.sysTickHandler.getPriority t).level ∈ (k.sysTickHandler.standing t).listed := hbit
  rw [hlisted] at hmem
  exact hmem

/-- There is a run up to the tick that is the first to be due. -/
theorem valid_replicate (t : TaskPtr) (k : Kernel) (m : ℕ) :
    (around t).Valid k (List.replicate m .sysTick) := by
  induction m generalizing k with
  | zero => trivial
  | succ m ih => exact ⟨trivial, ih k.sysTickHandler⟩

/-- Sleep is exact in all runs of ticks, switches and sleeps of other tasks exactly if the task
has a level of the table, and no ready bit is its when it calls `sleep`. When it is woken then
depends on the number of ticks only. -/
theorem sleep_exact_iff {k : Kernel} {t : TaskPtr} {n : ℕ} (h : CanSleep t k)
    (hs : k.getTickCount + max 1 n < 2 ^ 64) :
    (∀ es, (around t).Valid (k.asleep t n) es → k.getTickCount + ticks es + 1 < 2 ^ 64 →
      SleepsExactly t n (ticks es) ((around t).exec (k.asleep t n) es) ∧
      ∀ (k₂ : Kernel) (es₂ : List SleepEvent), CanSleep t k₂ → Cleared t k₂ →
        k₂.getTickCount = k.getTickCount → (around t).Valid (k₂.asleep t n) es₂ →
        ticks es₂ = ticks es → (((around t).exec (k₂.asleep t n) es₂).standing t).asleep =
          (((around t).exec (k.asleep t n) es).standing t).asleep) ↔ Cleared t k := by
  have hrun : ∀ (k₂ : Kernel) (es : List SleepEvent), CanSleep t k₂ →
      (∀ p, k₂.readyBit p (k₂.taskData t).id = false) → k₂.getTickCount = k.getTickCount →
      (around t).Valid (k₂.asleep t n) es → k.getTickCount + ticks es < 2 ^ 64 →
      Sleeps t (k₂.getPriority t).level k.getTickCount n (ticks es)
        ((around t).exec (k₂.asleep t n) es) := by
    intro k₂ es h₂ hclear hcount hv hwrap
    have hstart := h₂.sleeps hclear (n := n) (by omega)
    have hlast := hstart.run hv (by omega)
    rwa [hcount, Nat.zero_add] at hlast
  constructor
  · intro hall
    have hclear : ∀ p, k.readyBit p (k.taskData t).id = false := by
      intro p
      have hnot : ¬ Due n (ticks []) := fun hdue => absurd hdue.1 (lt_irrefl 0)
      have hoff := ((hall [] trivial (by rw [ticks, List.count_nil]; omega)).1.sleeping hnot).2.2 p
      obtain ⟨-, -, hst, -⟩ := h.asleep (n := n) (by omega)
      have hlisted := Set.ext_iff.mp (congrArg Standing.listed hst) p
      rw [Bool.eq_false_iff]
      exact fun hbit => Bool.eq_false_iff.mp hoff (hlisted.mpr hbit)
    refine ⟨hclear, ?_⟩
    have hcount : ticks (List.replicate (n - 1) .sysTick) = n - 1 := List.count_replicate_self
    have hvalid := valid_replicate t (k.asleep t n) (n - 1)
    have hlast := hrun k _ h hclear rfl hvalid (by omega)
    obtain ⟨hexact, -⟩ := hall _ hvalid (by omega)
    rw [hcount] at hlast hexact
    refine hlast.level_lt ?_ ⟨by omega, by omega⟩ (by omega) hexact
    rintro ⟨hpos, hle⟩
    omega
  · intro hcleared es hv hwrap
    have hlast := hrun k es h hcleared.unlisted rfl hv (by omega)
    refine ⟨hlast.exactly hcleared.level_lt hwrap, fun k₂ es₂ h₂ hcleared₂ hcount hv₂ hticks => ?_⟩
    have hlast₂ := hrun k₂ es₂ h₂ hcleared₂.unlisted hcount hv₂ (by omega)
    rw [hticks] at hlast₂
    by_cases hdue : Due n (ticks es)
    · rw [hlast₂.after hdue, hlast.after hdue]
    · rw [congrArg Standing.asleep (hlast₂.before hdue).1,
        congrArg Standing.asleep (hlast.before hdue).1]

theorem canSleep_started : CanSleep 1 (started 1).selectHighestPriorityTask ∧
    Cleared 1 (started 1).selectHighestPriorityTask := by
  have hs := started_spec (n := 1) (by decide)
  have hreg : (started 1).Registered 1 := (hs.registered 1).mpr le_rfl
  have habove : (started 1).AboveIdle 1 := by
    unfold AboveIdle
    rw [hs.priority 1 (by decide)]
    decide
  obtain ⟨u, hu, hd, h⟩ := (agrees_started (by decide)).select_next hreg (hs.state 1) habove
  obtain rfl : u = 1 := by
    by_contra hne
    have hle := (hs.registered u).mp hu.registered
    have hzero : u = 0 := by
      rcases Nat.le_one_iff_eq_zero_or_eq_one.mp hle with h0 | h1
      · exact h0
      · exact absurd h1 hne
    have hl := hu.aboveIdle
    unfold AboveIdle at hl
    rw [hzero, hs.idle] at hl
    exact absurd hl (by decide)
  have halarms : ∀ i, (started 1).selectHighestPriorityTask.alarms i = none := by
    intro i
    obtain ⟨-, hsame⟩ | ⟨p, j, t, hsw⟩ := hs.registry.select
    · rw [hsame.alarms, hs.registry.alarms]
    · rw [hsw.alarms, hs.registry.alarms]
  have hreg' : (started 1).selectHighestPriorityTask.Registered 1 := by
    unfold Registered
    rw [hd.tasks]
    exact hreg
  refine ⟨⟨⟨h.toSeated, hreg', fun i a hi => ?_⟩, hd.running⟩, fun p => ?_, h.level_lt 1 hreg'⟩
  · rw [halarms] at hi
    cases hi
  · rw [Bool.eq_false_iff]
    intro hbit
    obtain ⟨v, hv, hready, -⟩ := h.listed p _ hbit
    obtain rfl : 1 = v := Option.some.inj ((h.tasks_id hreg').symm.trans hv)
    rw [hd.running] at hready
    cases hready

theorem sleep_exact_iff_started :
    let k := (started 1).selectHighestPriorityTask
    CanSleep 1 k ∧
      ((around 1).exec (k.asleep 1 2) [.switch, .sysTick]).getState 1 = .eSleeping := by
  have hrun : (around 1).Valid ((started 1).selectHighestPriorityTask.asleep 1 2)
      [.switch, .sysTick] := ⟨trivial, trivial, trivial⟩
  have h := (sleep_exact_iff (n := 2) canSleep_started.1 (by decide +kernel)).mpr canSleep_started.2
  have hexact := (h [.switch, .sysTick] hrun (by decide +kernel)).1
  exact ⟨canSleep_started.1, (hexact.sleeping (by decide)).1⟩

/-- Task 1 of priority `low` owns a mutex and calls `sleep`. No other task is ready, so that it
goes on and signals, which makes it ready. Task 2 of priority `high` comes in and blocks on the
mutex, which raises the priority of task 1 but leaves its bit behind; the tick that ends the sleep
sets a second one. -/
def staleRun : List system.Event :=
  [.env (.addTask 1), .env .sysTick, .env .pendSV,
    .invoke 1 (.mutex 0 (.acquire waitForever)), .exec 1, .exec 1, .exec 1,
    .invoke 1 (.task (.sleep 1 2)), .exec 1, .exec 1, .env .pendSV, .exec 1,
    .invoke 1 (.semaphore 0 .signal), .exec 1, .exec 1, .exec 1, .exec 1,
    .env (.addTask 2), .env .sysTick, .env .pendSV,
    .invoke 2 (.mutex 0 (.acquire waitForever)), .exec 2, .exec 2, .exec 2,
    .env .sysTick, .env .pendSV, .exec 1, .env .pendSV, .exec 1]

def lowAndHigh : Setup := { idleTask := 0, assigned := fun t => if t = 2 then .high else .low }

/-- After this run task 1 calls `sleep` again, and the switch at once runs it on. -/
theorem sleep_not_exact_stale : system.Run lowAndHigh staleRun ∧
    let k := (system.reached lowAndHigh staleRun).shared.kernel
    CanSleep 1 k ∧ (around 1).Valid (k.asleep 1 5) [.switch] ∧
      ¬ SleepsExactly 1 5 0 ((around 1).exec (k.asleep 1 5) [.switch]) := by
  have hrun : system.Run lowAndHigh staleRun := by decide +kernel
  have hreg := (system.sound_reached hrun).1.registry
  refine ⟨hrun, ⟨⟨hreg.tabled.toSeated, ?_, fun i a hi => ?_⟩, by decide +kernel⟩,
    ⟨trivial, trivial⟩, fun hexact => ?_⟩
  · exact ⟨1, by decide +kernel⟩
  · rw [hreg.alarms] at hi
    cases hi
  · have hstate := (hexact.sleeping (by decide)).1
    exact absurd hstate (by decide +kernel)

end CppRtos.Kernel
