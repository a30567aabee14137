import CppRtos.Context.Fidelity
import CppRtos.Kernel.Agreement
import Mathlib.Data.List.Induction

/-! From the constructors to the first task: registration, the start of the scheduler in the
idle task, and the first switch. -/
namespace CppRtos

namespace Kernel

theorem SameSchedule.addTask {k k' : Kernel} (h : SameSchedule k k') {t : TaskPtr}
    (hroom : k.taskCount < maxTasks) (hl : (k.getPriority t).level < maxPrioryLevels) :
    SameSchedule (k.addTask t) (k'.addTask t) := by
  have hroom' : k'.taskCount < maxTasks := by
    rw [h.taskCount]
    exact hroom
  have hl' : (k'.getPriority t).level < maxPrioryLevels := by
    rw [h.priority]
    exact hl
  have ha := adds_addTask hroom t hl
  have ha' := adds_addTask hroom' t hl'
  refine ⟨⟨?_, ?_, ?_, ?_, ?_, ?_⟩, ⟨?_, ?_, ?_⟩, ?_, ?_, ?_⟩
  · rw [ha'.tasks, ha.tasks, h.tasks, h.taskCount]
  · rw [ha'.currentTask, ha.currentTask, h.currentTask]
  · rw [ha'.highestTaskPriority, ha.highestTaskPriority, h.highestTaskPriority, h.priority]
  · rw [ha'.taskCount, ha.taskCount, h.taskCount]
  · rw [ha'.idleTask, ha.idleTask, h.idleTask]
  · rw [ha'.alarms, ha.alarms, h.alarms]
  · intro u
    rw [ha'.priority, ha.priority, h.priority]
  · intro u
    rw [ha'.basePriority, ha.basePriority, h.basePriority]
  · intro u
    rw [ha'.id, ha.id, h.id, h.taskCount]
  · rw [readyTasks_addTask hroom' t hl', readyTasks_addTask hroom t hl, h.readyTasks, h.priority,
      h.taskCount]
  · intro u
    rw [ha'.getState, ha.getState, h.getState]
  · rw [ha'.sleepingTasksBitmap, ha.sleepingTasksBitmap, h.sleepingTasksBitmap]

theorem setCurrent_eq (k : Kernel) {t : TaskPtr} (h : k.currentTask = t) :
    { k with currentTask := t } = k := by
  subst h
  rfl

theorem new_eq (idleTask : TaskPtr) (assigned : TaskPtr → TaskPriority) :
    new idleTask assigned = (initial idleTask assigned).addTask idleTask := by
  refine setCurrent_eq ((initial idleTask assigned).addTask idleTask) ?_
  rw [currentTask_addTask]
  rfl

/-- The kernel after the constructor and the registration of the tasks `ts`, in this order. -/
def launched (idleTask : TaskPtr) (assigned : TaskPtr → TaskPriority) (ts : List TaskPtr) :
    Kernel :=
  ts.foldl addTask (new idleTask assigned)

def startLevel (assigned : TaskPtr → TaskPriority) (t : TaskPtr) : ℕ :=
  (TaskData.fresh (assigned t)).priority.level

structure Launched (k : Kernel) (idleTask : TaskPtr) (assigned : TaskPtr → TaskPriority)
    (ts : List TaskPtr) : Prop where
  registry : k.Registry
  exact : Stands Standing.Exact k
  taskCount : k.taskCount = ts.length + 1
  registered : ∀ t, k.Registered t ↔ t = idleTask ∨ t ∈ ts
  ready : ∀ t, k.getState t = .eReady
  priority : ∀ t, k.getPriority t = (initial idleTask assigned).getPriority t
  id : ∀ t ∈ ts, (k.taskData t).id = ts.idxOf t + 1
  currentTask : k.currentTask = idleTask

theorem launched_append (idleTask : TaskPtr) (assigned : TaskPtr → TaskPriority)
    (ts : List TaskPtr) (t : TaskPtr) :
    launched idleTask assigned (ts ++ [t]) = (launched idleTask assigned ts).addTask t := by
  unfold launched
  rw [List.foldl_append]
  rfl

theorem launched_spec {idleTask : TaskPtr} {assigned : TaskPtr → TaskPriority}
    {ts : List TaskPtr} (hnodup : (idleTask :: ts).Nodup) (hlen : ts.length < maxTasks) :
    Launched (launched idleTask assigned ts) idleTask assigned ts := by
  induction ts using List.reverseRecOn with
  | nil =>
    have ha := adds_new idleTask assigned
    constructor
    · exact registry_new _ _
    · exact stands_new (Standing.closed_exact.added 15 le_rfl) _ _
    · exact ha.taskCount
    · intro t
      refine (registered_new _ _ t).trans ?_
      rw [or_iff_left List.not_mem_nil]
    · exact fun t => (ha.getState t).trans (priorities_initial _ _ t).2.2
    · exact ha.priority
    · exact fun t ht => absurd ht List.not_mem_nil
    · exact ha.currentTask
  | append_singleton ts t ih =>
    rw [List.length_append, List.length_singleton] at hlen
    rw [← List.cons_append, List.nodup_append_comm, List.singleton_append, List.nodup_cons,
      List.mem_cons] at hnodup
    obtain ⟨hnew, hnodup⟩ := hnodup
    have h := ih hnodup (by omega)
    have hroom : (launched idleTask assigned ts).taskCount < maxTasks := by
      rw [h.taskCount]
      exact hlen
    have hunregistered : ¬ (launched idleTask assigned ts).Registered t := by
      rw [h.registered]
      exact hnew
    have ha := adds_addTask hroom t ((h.registry.level_le t).trans_lt (by decide))
    rw [launched_append]
    constructor
    · exact h.registry.addTask hunregistered
    · exact fun u hu =>
        h.registry.keeps_adds Standing.closed_exact hunregistered ha hu (h.exact u)
    · rw [ha.taskCount, h.taskCount, List.length_append, List.length_singleton]
    · intro u
      rw [h.registry.registered_adds ha, h.registered, List.mem_append, List.mem_singleton]
      tauto
    · exact fun u => (ha.getState u).trans (h.ready u)
    · exact fun u => (ha.priority u).trans (h.priority u)
    · intro u hu
      rw [ha.id]
      by_cases hut : u = t
      · have hnot : t ∉ ts := fun hmem => hnew (.inr hmem)
        rw [if_pos hut, h.taskCount, hut, List.idxOf_append_of_notMem hnot, List.idxOf_cons_self,
          Nat.add_zero]
      · have hmem : u ∈ ts :=
          (List.mem_append.mp hu).resolve_right fun hm => hut (List.mem_singleton.mp hm)
        rw [if_neg hut, h.id u hmem, List.idxOf_append_of_mem hmem]
    · exact ha.currentTask.trans h.currentTask

/-- The scheduler first takes the task of the highest level that was registered first. -/
theorem Launched.first {k k' : Kernel} {idleTask : TaskPtr} {assigned : TaskPtr → TaskPriority}
    {ts : List TaskPtr} (h : Launched k idleTask assigned ts) (hs : SameSchedule k k')
    (hidle : idleTask ∉ ts) (habove : ∃ t ∈ ts, startLevel assigned t < 15) :
    ∃ t ∈ ts, (∀ u ∈ ts, startLevel assigned t < startLevel assigned u ∨
        startLevel assigned t = startLevel assigned u ∧ ts.idxOf t ≤ ts.idxOf u) ∧
      k'.selectHighestPriorityTask.currentTask = t := by
  have hlevel : ∀ t ∈ ts, (k'.getPriority t).level = startLevel assigned t := by
    intro t ht
    have hne : t ≠ idleTask := fun he => hidle (he ▸ ht)
    rw [hs.priority, h.priority]
    unfold getPriority initial startLevel
    dsimp only
    rw [Function.update_of_ne hne]
  have hid : ∀ t ∈ ts, (k'.taskData t).id = ts.idxOf t + 1 :=
    fun t ht => (hs.id t).trans (h.id t ht)
  have hregistered : ∀ t, k'.Registered t ↔ t = idleTask ∨ t ∈ ts :=
    fun t => (hs.registered t).trans (h.registered t)
  have hready : ∀ t, k'.getState t = .eReady := fun t => (hs.getState t).trans (h.ready t)
  obtain ⟨t₀, ht₀, hlt⟩ := habove
  have habove₀ : k'.AboveIdle t₀ := by
    unfold AboveIdle
    rwa [hlevel t₀ ht₀]
  obtain ⟨t, hn, hd, -⟩ := ((h.registry.agrees h.exact).same hs).select_next
    ((hregistered t₀).mpr (.inr ht₀)) (hready t₀) habove₀
  have ht : t ∈ ts := by
    refine ((hregistered t).mp hn.registered).resolve_left fun he => ?_
    have habove := hn.aboveIdle
    unfold AboveIdle at habove
    rw [he, hs.priority, h.priority] at habove
    unfold getPriority initial at habove
    dsimp only at habove
    rw [Function.update_self] at habove
    exact absurd habove (by decide)
  refine ⟨t, ht, fun u hu => ?_, hd.currentTask⟩
  have hfirst := hn.first u ((hregistered u).mpr (.inr hu)) (hready u)
  unfold Precedes at hfirst
  rw [hlevel t ht, hlevel u hu, hid t ht, hid u hu] at hfirst
  exact hfirst.imp_right fun hsame => ⟨hsame.1, Nat.le_of_succ_le_succ hsame.2⟩

end Kernel

namespace Context
open Kernel

/-- The constructors of the tasks have left the tops of their stacks in the control blocks. -/
def powerOn (K : Stacks) (idleTask : TaskPtr) (assigned : TaskPtr → TaskPriority)
    (r : Registers) : State :=
  start { registers := r
          kernel := { initial idleTask assigned with
            taskData := fun t =>
              ((initial idleTask assigned).taskData t).setCurrentStackPtr (K.top t) }
          currentStackPtr := 0
          gPtrPort := false }

/-- The tasks before the start of the scheduler: those registered have their first frames. -/
structure Prepared (K : Stacks) (s : State) (k : Kernel) (ts : List TaskPtr) : Prop where
  sameSchedule : SameSchedule k s.cpu.kernel
  started : s.started = false
  saved : ∀ t ∈ ts, s.saved t = .prepared
  fresh : ∀ t ∉ ts, s.saved t = .never ∧ s.cpu.stackPointer t = K.top t

section
variable {K : Stacks} {s : State} {k : Kernel} {ts : List TaskPtr} {t : TaskPtr}

theorem Prepared.addTask (h : Prepared K s k ts) (ht : t ∉ ts) (hroom : k.taskCount < maxTasks)
    (hl : (k.getPriority t).level < maxPrioryLevels) (hstack : K.base t + 68 ≤ K.top t) :
    guard K (.addTask t) s ∧ Prepared K (apply K (.addTask t) s) (k.addTask t) (ts ++ [t]) := by
  obtain ⟨hsaved, htop⟩ := h.fresh t ht
  have hroom' : s.cpu.kernel.taskCount < maxTasks := by
    rw [h.sameSchedule.taskCount]
    exact hroom
  have hsp : (s.cpu.kernel.taskData t).currentStackPointer = K.top t := htop
  have hprepares := prepares_addTask hroom' (t := t) (by omega)
  refine ⟨⟨hroom', hsaved, fun hs => ?_, htop, hstack⟩,
    h.sameSchedule.addTask hroom hl, h.started, fun u hu => ?_, fun u hu => ?_⟩
  · rw [h.started] at hs
    cases hs
  · show Function.update s.saved t .prepared u = .prepared
    by_cases hut : u = t
    · rw [hut, Function.update_self]
    · rw [Function.update_of_ne hut]
      exact h.saved u ((List.mem_append.mp hu).resolve_right fun hm =>
        hut (List.mem_singleton.mp hm))
  · have hut : u ≠ t := fun he => hu (List.mem_append_right ts (List.mem_singleton.mpr he))
    obtain ⟨hnever, hutop⟩ := h.fresh u fun hmem => hu (List.mem_append_left [t] hmem)
    exact ⟨(Function.update_of_ne hut _ _).trans hnever, (hprepares.others u hut).trans hutop⟩

theorem prepared {idleTask : TaskPtr} (assigned : TaskPtr → TaskPriority) (r : Registers)
    (hnodup : (idleTask :: ts).Nodup) (hlen : ts.length < maxTasks)
    (hstacks : ∀ t ∈ idleTask :: ts, K.base t + 68 ≤ K.top t) :
    (machine K).Valid (powerOn K idleTask assigned r) ((idleTask :: ts).map .addTask) ∧
      Prepared K ((machine K).exec (powerOn K idleTask assigned r)
        ((idleTask :: ts).map .addTask)) (launched idleTask assigned ts) (idleTask :: ts) := by
  induction ts using List.reverseRecOn with
  | nil =>
    have hinitial : Prepared K (powerOn K idleTask assigned r) (initial idleTask assigned) [] :=
      ⟨⟨⟨rfl, rfl, rfl, rfl, rfl, rfl⟩, ⟨fun _ => rfl, fun _ => rfl, fun _ => rfl⟩, rfl,
        fun _ => rfl, rfl⟩, rfl, fun _ ht => absurd ht List.not_mem_nil, fun _ _ => ⟨rfl, rfl⟩⟩
    have hlevel : ((initial idleTask assigned).getPriority idleTask).level < maxPrioryLevels :=
      (priorities_initial idleTask assigned idleTask).1.trans_lt (by decide)
    obtain ⟨hguard, hadded⟩ := hinitial.addTask List.not_mem_nil (by decide : 0 < maxTasks) hlevel
      (hstacks idleTask List.mem_cons_self)
    have hnew : launched idleTask assigned [] = (initial idleTask assigned).addTask idleTask :=
      new_eq idleTask assigned
    rw [hnew]
    exact ⟨⟨hguard, trivial⟩, hadded⟩
  | append_singleton ts t ih =>
    rw [List.length_append, List.length_singleton] at hlen
    rw [← List.cons_append] at hnodup hstacks ⊢
    have hold : (idleTask :: ts).Nodup := hnodup.of_append_left
    have hnew : t ∉ idleTask :: ts := by
      rw [List.nodup_append_comm, List.singleton_append, List.nodup_cons] at hnodup
      exact hnodup.1
    obtain ⟨hvalid, hprepared⟩ := ih hold (by omega) fun u hu =>
      hstacks u (List.mem_append_left _ hu)
    have hspec : Launched (launched idleTask assigned ts) idleTask assigned ts :=
      launched_spec hold (by omega)
    obtain ⟨hguard, hadded⟩ := hprepared.addTask hnew
      (by rw [hspec.taskCount]; exact hlen) ((hspec.registry.level_le t).trans_lt (by decide))
      (hstacks t (List.mem_append_right _ (List.mem_singleton.mpr rfl)))
    rw [List.map_append, Machine.valid_append, Machine.exec_append, launched_append]
    exact ⟨⟨hvalid, hguard, trivial⟩, hadded⟩

theorem sameSchedule_setCurrentStackPtr (k : Kernel) (t : TaskPtr) (sp : ℕ) :
    SameSchedule k (k.modifyTask t (·.setCurrentStackPtr sp)) := by
  have hstate : (TaskData.setCurrentStackPtr (k.taskData t) sp).state = (k.taskData t).state := rfl
  exact ⟨⟨rfl, rfl, rfl, rfl, rfl, rfl⟩,
    sameParameters_of_taskData (fun u => taskData_modifyTask k t u _) rfl rfl rfl, rfl,
    modifyTask_congr k t hstate, rfl⟩

theorem Kept.enters (h : Kept K s) (hg : guard K .startFirstTask s) :
    Enters K (apply K .startFirstTask s).cpu s.cpu.currentTask := by
  have hin := h s.cpu.currentTask fun hs => by
    rw [hg.1] at hs
    cases hs
  rw [hg.2] at hin
  have hfirst : First K s.cpu s.cpu.currentTask := hin
  have hspared : First K (apply K .startFirstTask s).cpu s.cpu.currentTask :=
    ⟨hfirst.lower, hfirst.pointer, hfirst.excReturn, hfirst.xPSR, hfirst.pc⟩
  exact hspared.enters rfl rfl

/-- The task that PendSV resumes is the choice of the scheduler. -/
theorem currentTask_pendSV {c : Cpu} (h : c.gPtrPort = true) : ∃ k, SameSchedule c.kernel k ∧
    c.pendSVHandler.currentTask = k.selectHighestPriorityTask.currentTask := by
  have hswitch : ∀ c : Cpu, c.gPtrPort = true → c.taskSwitchContext.currentTask =
      (c.kernel.modifyTask c.kernel.currentTask
        (·.setCurrentStackPtr c.currentStackPtr)).selectHighestPriorityTask.currentTask := by
    intro c hc
    unfold Cpu.taskSwitchContext
    rw [if_pos hc]
    dsimp only
    split_ifs <;> rfl
  refine ⟨_, ?_, hswitch _ h⟩
  exact (sameSchedule_port c.kernel _).trans (sameSchedule_setCurrentStackPtr _ _ _)

theorem sameSchedule_execute {k' : Kernel} (hcurrent : k'.currentTask = s.cpu.currentTask) :
    SameSchedule k' (s.execute K k') := by
  have hsame : (s.execute K k').currentTask = k'.currentTask := by
    unfold State.execute
    dsimp only
    rw [hcurrent, ite_self]
  exact ⟨⟨rfl, hsame, rfl, rfl, rfl, rfl⟩, ⟨fun _ => rfl, fun _ => rfl, fun _ => rfl⟩, rfl,
    fun _ => rfl, rfl⟩

end

/-- What precedes the first switch: the constructor and the registrations, and the start of the
scheduler. -/
def startup (idleTask : TaskPtr) (ts : List TaskPtr) : List Event :=
  (idleTask :: ts).map .addTask ++ [.startFirstTask]

/-- The idle task executes, and the tasks `ts` have their first frames. -/
structure Idles (K : Stacks) (s : State) (k : Kernel) (idleTask : TaskPtr) (ts : List TaskPtr) :
    Prop where
  kept : Kept K s
  sameSchedule : SameSchedule k s.cpu.kernel
  started : s.started = true
  currentTask : s.cpu.currentTask = idleTask
  saved : ∀ t ∈ ts, s.saved t = .prepared

section
variable {K : Stacks} {s : State} {k : Kernel} {idleTask : TaskPtr} {ts : List TaskPtr}
  {assigned : TaskPtr → TaskPriority}

theorem idles_startup (assigned : TaskPtr → TaskPriority) (r : Registers)
    (hnodup : (idleTask :: ts).Nodup) (hlen : ts.length < maxTasks)
    (hstacks : ∀ t ∈ idleTask :: ts, K.base t + 68 ≤ K.top t) :
    let s := (machine K).exec (powerOn K idleTask assigned r) (startup idleTask ts)
    Enters K s.cpu idleTask ∧ Idles K s (launched idleTask assigned ts) idleTask ts := by
  intro s
  obtain ⟨hvalid, hprepared⟩ := prepared assigned r hnodup hlen hstacks
  have hspec : Launched (launched idleTask assigned ts) idleTask assigned ts :=
    launched_spec hnodup hlen
  set s₀ := (machine K).exec (powerOn K idleTask assigned r) ((idleTask :: ts).map .addTask)
  have hs : s = apply K .startFirstTask s₀ := Machine.exec_append _ _ _ _
  have hcurrent : s₀.cpu.currentTask = idleTask :=
    hprepared.sameSchedule.currentTask.trans hspec.currentTask
  have hstart : guard K .startFirstTask s₀ :=
    ⟨hprepared.started, hprepared.saved _ (hcurrent ▸ List.mem_cons_self)⟩
  have hkept : Kept K s₀ := Machine.invariant (I := Kept K) kept_step (fun _ _ => trivial) hvalid
  have henters := hkept.enters hstart
  rw [hcurrent, ← hs] at henters
  refine ⟨henters, ?_⟩
  rw [hs]
  exact ⟨kept_step .startFirstTask s₀ hkept hstart,
    hprepared.sameSchedule.trans (sameSchedule_port _ _), rfl, hcurrent,
    fun t ht => hprepared.saved t (List.mem_cons_of_mem _ ht)⟩

namespace Idles
variable (h : Idles K s k idleTask ts)
include h

theorem execute {r : Registers} {k' : Kernel} {gPtrPort : Bool}
    (hsame : SameSchedule s.cpu.kernel k') :
    Idles K (apply K (.execute r k' gPtrPort) s) k idleTask ts where
  kept := kept_step (.execute r k' gPtrPort) s h.kept trivial
  sameSchedule := (h.sameSchedule.trans hsame).trans (sameSchedule_execute hsame.currentTask)
  started := h.started
  currentTask := by
    have hif : (apply K (.execute r k' gPtrPort) s).cpu.currentTask =
        if s.started then s.cpu.currentTask else k'.currentTask := rfl
    rw [hif, if_pos h.started, h.currentTask]
  saved := h.saved

/-- The first switch enters the first frame of the task that the scheduler takes. -/
theorem pendSV (hk : Launched k idleTask assigned ts) (hidle : idleTask ∉ ts)
    (habove : ∃ t ∈ ts, startLevel assigned t < 15) (hg : guard K .pendSV s) :
    ∃ t ∈ ts, (∀ u ∈ ts, startLevel assigned t < startLevel assigned u ∨
        startLevel assigned t = startLevel assigned u ∧ ts.idxOf t ≤ ts.idxOf u) ∧
      (apply K .pendSV s).cpu.currentTask = t ∧ Enters K (apply K .pendSV s).cpu t := by
  obtain ⟨k₂, hsame, hchoice⟩ := currentTask_pendSV hg.2.1
  obtain ⟨t, ht, hfirst, hselected⟩ := hk.first (h.sameSchedule.trans hsame) hidle habove
  have hresumed : (apply K .pendSV s).cpu.currentTask = t := hchoice.trans hselected
  have hsaved : (apply K .pendSV s).saved (apply K .pendSV s).cpu.currentTask = .prepared := by
    have hupdate : (apply K .pendSV s).saved =
        Function.update s.saved s.cpu.currentTask (.context s.cpu.registers) := rfl
    have hne : t ≠ idleTask := fun he => hidle (he ▸ ht)
    rw [hresumed, hupdate, h.currentTask, Function.update_of_ne hne]
    exact h.saved t ht
  have hframe := (resumes_pendSV h.kept hg).first hsaved
  rw [hresumed] at hframe
  exact ⟨t, ht, hfirst, hresumed, hframe⟩

end Idles

end

/-- The scheduler starts in the first frame of the idle task, and the first switch enters the
first frame of the task with the highest priority, of several the one registered first,
whatever the idle task has left in the registers and on its stack. -/
theorem boots {K : Stacks} {idleTask : TaskPtr} {assigned : TaskPtr → TaskPriority}
    {ts : List TaskPtr} (hnodup : (idleTask :: ts).Nodup) (hlen : ts.length < maxTasks)
    (hstacks : ∀ t ∈ idleTask :: ts, K.base t + 68 ≤ K.top t) (r r' : Registers) (k' : Kernel) :
    let s := (machine K).exec (powerOn K idleTask assigned r) (startup idleTask ts)
    Enters K s.cpu idleTask ∧
      (SameSchedule s.cpu.kernel k' → K.base idleTask + r'.frameSize ≤ r'.psp →
        r'.psp ≤ K.top idleTask → (∃ t ∈ ts, startLevel assigned t < 15) →
        let s' := (machine K).exec s [.execute r' k' true, .pendSV]
        ∃ t ∈ ts, (∀ u ∈ ts, startLevel assigned t < startLevel assigned u ∨
            startLevel assigned t = startLevel assigned u ∧ ts.idxOf t ≤ ts.idxOf u) ∧
          s'.cpu.currentTask = t ∧ Enters K s'.cpu t) := by
  intro s
  obtain ⟨henters, hidles⟩ := idles_startup assigned r hnodup hlen hstacks
  refine ⟨henters, fun hsame hlower hupper habove => ?_⟩
  have hexecuted : Idles K (apply K (.execute r' k' true) s) (launched idleTask assigned ts)
    idleTask ts := hidles.execute hsame
  have hcurrent := hexecuted.currentTask
  have hswitch : guard K .pendSV (apply K (.execute r' k' true) s) := by
    refine ⟨hexecuted.started, rfl, ?_, ?_⟩
    · rw [hcurrent]
      exact hlower
    · rw [hcurrent]
      exact hupper
  exact hexecuted.pendSV (launched_spec hnodup hlen) (List.nodup_cons.mp hnodup).1 habove hswitch

/-- Of the three tasks the second is the first of the two with high priority. -/
theorem boots_second :
    let assigned : TaskPtr → TaskPriority := fun t => if t = 1 then .low else .high
    let r (psp : ℕ) : Registers := ⟨psp, fun _ => 0xfffffffd, fun _ => 0⟩
    let s := (machine thousands).exec (powerOn thousands 0 assigned (r 0)) (startup 0 [1, 2, 3])
    let s' := (machine thousands).exec s [.execute (r 900) s.cpu.kernel true, .pendSV]
    Enters thousands s'.cpu 2 := by
  intro assigned r s s'
  have hstacks : ∀ t ∈ [0, 1, 2, 3], thousands.base t + 68 ≤ thousands.top t := by
    intro t _
    unfold thousands
    dsimp only
    omega
  obtain ⟨t, ht, hfirst, -, henters⟩ :=
    (@boots thousands 0 assigned [1, 2, 3] (by decide) (by decide) hstacks (r 0) (r 900)
      s.cpu.kernel).2 (.refl _) (by decide) (by decide) ⟨2, by decide, by decide⟩
  have htwo : ∀ t ∈ [1, 2, 3], (startLevel assigned t < startLevel assigned 2 ∨
      startLevel assigned t = startLevel assigned 2 ∧
        [1, 2, 3].idxOf t ≤ [1, 2, 3].idxOf 2) → t = 2 := by decide
  rwa [htwo t ht (hfirst 2 (by decide))] at henters

end Context

end CppRtos
