import CppRtos.Context.Frames
import CppRtos.Library.Machine

/-! What a task finds in its registers when it is resumed, for every order of switches
between tasks with disjoint stacks. -/
namespace CppRtos.Context

open BlockTransfer

/-- The stacks of the tasks: disjoint ranges of addresses. -/
structure Stacks where
  base : TaskPtr → ℕ
  top : TaskPtr → ℕ
  disjoint : ∀ t u, t ≠ u → top t ≤ base u ∨ top u ≤ base t

/-- What lies on the stack of a task that does not execute: nothing yet, its first frame, or
the registers at the time it was last switched out. -/
inductive Saved where
  | never
  | prepared
  | context (r : Registers)

/-- `saved` is recorded beside the processor; no step reads it. -/
structure State where
  cpu : Cpu
  saved : TaskPtr → Saved := fun _ => .never
  started : Bool := false

/-- A switch, the start of the first task, registration, and execution: of the current task,
or before the start of the main program. It leaves any registers and any kernel. -/
inductive Event where
  | pendSV
  | startFirstTask
  | addTask (t : TaskPtr)
  | execute (r : Registers) (k : Kernel) (gPtrPort : Bool)

/-- Execution writes to no stack but that of the current task, and does not write saved stack
pointers; the current task changes only in a switch. -/
def State.execute (K : Stacks) (s : State) (k' : Kernel) : Kernel :=
  { k' with
    currentTask := if s.started then s.cpu.currentTask else k'.currentTask
    taskData := fun t => (k'.taskData t).setCurrentStackPtr (s.cpu.stackPointer t)
    port := { k'.port with
      stackMemory := fun a =>
        if s.started ∧ K.base s.cpu.currentTask ≤ a ∧ a < K.top s.cpu.currentTask then
          k'.port.stackMemory a
        else s.cpu.memory a
      callFirstTime := s.cpu.kernel.port.callFirstTime } }

/-- A switch finds room for the frame on the stack of the current task. A task is registered
once, with its stack pointer at the top of its stack. -/
def guard (K : Stacks) : Event → State → Prop
  | .pendSV, s => s.started = true ∧ s.cpu.gPtrPort = true ∧
      K.base s.cpu.currentTask + s.cpu.registers.frameSize ≤ s.cpu.registers.psp ∧
      s.cpu.registers.psp ≤ K.top s.cpu.currentTask
  | .startFirstTask, s => s.started = false ∧ s.saved s.cpu.currentTask = .prepared
  | .addTask t, s => s.cpu.kernel.taskCount < maxTasks ∧ s.saved t = .never ∧
      (s.started = true → t ≠ s.cpu.currentTask) ∧ s.cpu.stackPointer t = K.top t ∧
      K.base t + 68 ≤ K.top t
  | .execute _ _ _, _ => True

def apply (K : Stacks) : Event → State → State
  | .pendSV, s =>
    { s with
      cpu := s.cpu.pendSVHandler
      saved := Function.update s.saved s.cpu.currentTask (.context s.cpu.registers) }
  | .startFirstTask, s => { s with cpu := s.cpu.startFirstTask, started := true }
  | .addTask t, s =>
    { s with
      cpu := { s.cpu with kernel := s.cpu.kernel.addTask t }
      saved := Function.update s.saved t .prepared }
  | .execute r k' g, s =>
    { s with cpu := { s.cpu with registers := r, kernel := s.execute K k', gPtrPort := g } }

def machine (K : Stacks) : Machine State Event := ⟨guard K, apply K⟩

/-- Nothing registered and nothing saved yet. -/
def start (c : Cpu) : State := { cpu := c }

instance (v : Saved) : Decidable (v = .prepared) :=
  match v with
  | .prepared => isTrue rfl
  | .never => isFalse (by simp)
  | .context _ => isFalse (by simp)

instance (v : Saved) : Decidable (v = .never) :=
  match v with
  | .never => isTrue rfl
  | .prepared => isFalse (by simp)
  | .context _ => isFalse (by simp)

instance (K : Stacks) : ∀ e s, Decidable ((machine K).guard e s)
  | .pendSV, s => inferInstanceAs (Decidable (s.started = true ∧ s.cpu.gPtrPort = true ∧
      K.base s.cpu.currentTask + s.cpu.registers.frameSize ≤ s.cpu.registers.psp ∧
      s.cpu.registers.psp ≤ K.top s.cpu.currentTask))
  | .startFirstTask, s =>
    inferInstanceAs (Decidable (s.started = false ∧ s.saved s.cpu.currentTask = .prepared))
  | .addTask t, s => inferInstanceAs (Decidable (s.cpu.kernel.taskCount < maxTasks ∧
      s.saved t = .never ∧ (s.started = true → t ≠ s.cpu.currentTask) ∧
      s.cpu.stackPointer t = K.top t ∧ K.base t + 68 ≤ K.top t))
  | .execute _ _ _, _ => inferInstanceAs (Decidable True)

/-! ## Frames of tasks that do not execute -/

/-- The registers of a task lie on its stack, above its stack pointer. -/
structure Holds (K : Stacks) (c : Cpu) (t : TaskPtr) (r : Registers) : Prop where
  lower : K.base t ≤ c.stackPointer t
  pointer : c.stackPointer t + r.frameSize = r.psp
  upper : r.psp ≤ K.top t
  core : load c.memory (c.stackPointer t) 9 = r.core
  vfp : r.fpuContext = true → load c.memory (c.stackPointer t + 36) 16 = r.vfp

/-- The first frame of a task ends at the top of its stack. -/
structure First (K : Stacks) (c : Cpu) (t : TaskPtr) : Prop where
  lower : K.base t ≤ c.stackPointer t
  pointer : c.stackPointer t + 68 = K.top t
  excReturn : c.memory (K.top t - 36) = 0xfffffffd
  xPSR : c.memory (K.top t - 4) = 0x01000000
  pc : c.memory (K.top t - 8) = c.kernel.port.callFirstTime &&& 0xfffffffe

def Intact (K : Stacks) (c : Cpu) (t : TaskPtr) : Saved → Prop
  | .never => True
  | .prepared => First K c t
  | .context r => Holds K c t r

def Kept (K : Stacks) (s : State) : Prop :=
  ∀ t, (s.started = true → t ≠ s.cpu.currentTask) → Intact K s.cpu t (s.saved t)

/-- The stack of a task, its stack pointer and the start address are left alone. -/
structure Spares (K : Stacks) (c c' : Cpu) (t : TaskPtr) : Prop where
  stackPointer : c'.stackPointer t = c.stackPointer t
  memory : ∀ a, K.base t ≤ a → a < K.top t → c'.memory a = c.memory a
  callFirstTime : c'.kernel.port.callFirstTime = c.kernel.port.callFirstTime

variable {K : Stacks}

theorem Intact.spare {c c' : Cpu} {t : TaskPtr} {v : Saved} (h : Intact K c t v)
    (hs : Spares K c c' t) : Intact K c' t v := by
  cases v with
  | never => trivial
  | prepared =>
    obtain ⟨hlower, hpointer, hexc, hxpsr, hpc⟩ := h
    constructor
    · rw [hs.stackPointer]
      exact hlower
    · rw [hs.stackPointer]
      exact hpointer
    · rw [hs.memory _ (by omega) (by omega)]
      exact hexc
    · rw [hs.memory _ (by omega) (by omega)]
      exact hxpsr
    · rw [hs.memory _ (by omega) (by omega), hs.callFirstTime]
      exact hpc
  | context r =>
    obtain ⟨hlower, hpointer, hupper, hcore, hvfp⟩ := h
    have hsize : 36 ≤ r.frameSize ∧ (r.fpuContext = true → r.frameSize = 100) := by
      unfold Registers.frameSize
      split_ifs with hf
      · exact ⟨by omega, fun _ => rfl⟩
      · exact ⟨le_refl _, fun hn => absurd hn hf⟩
    constructor
    · rw [hs.stackPointer]
      exact hlower
    · rw [hs.stackPointer]
      exact hpointer
    · exact hupper
    · rw [hs.stackPointer, ← hcore]
      exact load_congr fun a ha ha' => hs.memory a (by omega) (by omega)
    · intro hf
      have h100 := hsize.2 hf
      rw [hs.stackPointer, ← hvfp hf]
      exact load_congr fun a ha ha' => hs.memory a (by omega) (by omega)

/-! ## A switch -/

/-- What `taskSwitchContext` does once the port is known: the stack pointer goes into the
control block of the current task, and out comes that of the next one. -/
structure Switched (c c' : Cpu) : Prop where
  pointer : c'.currentStackPtr = c'.stackPointer c'.currentTask
  stackPointer : ∀ t, c'.stackPointer t =
    if t = c.currentTask then c.currentStackPtr else c.stackPointer t
  memory : c'.memory = c.memory
  callFirstTime : c'.kernel.port.callFirstTime = c.kernel.port.callFirstTime
  registers : c'.registers = c.registers

theorem switched_taskSwitchContext {c : Cpu} (h : c.gPtrPort = true) :
    Switched c c.taskSwitchContext := by
  set k := c.kernel.modifyTask c.kernel.currentTask (·.setCurrentStackPtr c.currentStackPtr)
    with hk
  have hsel := k.sameStacks_select
  have hsp : ∀ t, (k.selectHighestPriorityTask.taskData t).currentStackPointer =
      if t = c.currentTask then c.currentStackPtr else c.stackPointer t := by
    intro t
    rw [hsel.stackPointer, hk, Kernel.taskData_modifyTask]
    unfold Cpu.currentTask
    split_ifs <;> rfl
  unfold Cpu.taskSwitchContext
  rw [if_pos h]
  dsimp only
  rw [← hk]
  split_ifs with hne
  · exact ⟨rfl, hsp, hsel.stackMemory, hsel.callFirstTime, rfl⟩
  · exact ⟨(not_not.mp hne).symm, hsp, hsel.stackMemory, hsel.callFirstTime, rfl⟩

/-- What `PendSV_Handler` does: it saves the registers below the stack pointer of the current
task and restores those of the next one from its saved stack pointer. -/
structure Handled (c c' : Cpu) : Prop where
  memory : c'.memory = (Cpu.saveContext c.registers c.memory).1
  stackPointer : ∀ t, c'.stackPointer t =
    if t = c.currentTask then (Cpu.saveContext c.registers c.memory).2 else c.stackPointer t
  callFirstTime : c'.kernel.port.callFirstTime = c.kernel.port.callFirstTime
  registers : c'.registers =
    Cpu.restoreContext c.registers c'.memory (c'.stackPointer c'.currentTask)

theorem handled_pendSV {c : Cpu} (h : c.gPtrPort = true) : Handled c c.pendSVHandler := by
  unfold Cpu.pendSVHandler
  dsimp only
  set c₁ : Cpu := { c with
    kernel := { c.kernel with port := { c.kernel.port with
      stackMemory := (Cpu.saveContext c.registers c.memory).1
      pendSV := false
      masked := true } }
    currentStackPtr := (Cpu.saveContext c.registers c.memory).2 }
  have hsw : Switched c₁ c₁.taskSwitchContext := switched_taskSwitchContext h
  refine ⟨hsw.memory, hsw.stackPointer, hsw.callFirstTime, ?_⟩
  dsimp only
  rw [hsw.registers, hsw.pointer]
  rfl

theorem Handled.spares {c c' : Cpu} (h : Handled c c')
    (hlower : K.base c.currentTask + c.registers.frameSize ≤ c.registers.psp)
    (hupper : c.registers.psp ≤ K.top c.currentTask) {t : TaskPtr} (ht : t ≠ c.currentTask) :
    Spares K c c' t := by
  refine ⟨(h.stackPointer t).trans (if_neg ht), fun a ha ha' => ?_, h.callFirstTime⟩
  have hdisj := K.disjoint t c.currentTask ht
  rw [h.memory]
  exact Cpu.saveContext_of_outside _ _ (by omega) (by omega)

theorem Handled.holds {c c' : Cpu} (h : Handled c c')
    (hlower : K.base c.currentTask + c.registers.frameSize ≤ c.registers.psp)
    (hupper : c.registers.psp ≤ K.top c.currentTask) :
    Holds K c' c.currentTask c.registers := by
  have hsize : c.registers.frameSize ≤ c.registers.psp := by omega
  have hsp : c'.stackPointer c.currentTask = (Cpu.saveContext c.registers c.memory).2 :=
    (h.stackPointer _).trans (if_pos rfl)
  have hpointer := Cpu.saveContext_pointer c.registers c.memory hsize
  constructor
  · rw [hsp]
    omega
  · rw [hsp]
    exact hpointer
  · exact hupper
  · rw [hsp, h.memory]
    exact Cpu.saveContext_core _ _
  · intro hf
    rw [hsp, h.memory]
    exact Cpu.saveContext_vfp _ _ hsize hf

theorem Handled.intact {c c' : Cpu} (h : Handled c c')
    (hlower : K.base c.currentTask + c.registers.frameSize ≤ c.registers.psp)
    (hupper : c.registers.psp ≤ K.top c.currentTask) {saved : TaskPtr → Saved}
    (hk : ∀ t, t ≠ c.currentTask → Intact K c t (saved t)) (t : TaskPtr) :
    Intact K c' t (Function.update saved c.currentTask (.context c.registers) t) := by
  by_cases ht : t = c.currentTask
  · rw [ht, Function.update_self]
    exact h.holds hlower hupper
  · rw [Function.update_of_ne ht]
    exact (hk t ht).spare (h.spares hlower hupper ht)

/-! ## Resumption -/

/-- The processor is about to return from the exception into the first frame of a task: eight
words that end at the top of its stack. -/
structure Enters (K : Stacks) (c : Cpu) (t : TaskPtr) : Prop where
  r14 : c.registers.r14 = 0xfffffffd
  psp : c.registers.psp + 8 * 4 = K.top t
  xPSR : c.memory (c.registers.psp + 7 * 4) = 0x01000000
  pc : c.memory (c.registers.psp + 6 * 4) = c.kernel.port.callFirstTime &&& 0xfffffffe

theorem First.enters {c : Cpu} {t : TaskPtr} (h : First K c t)
    (hcore : c.registers.core = load c.memory (c.stackPointer t) 9)
    (hpsp : c.registers.psp = c.stackPointer t + 36) : Enters K c t := by
  have hpointer := h.pointer
  constructor
  · unfold Registers.r14
    rw [hcore, ← h.excReturn]
    exact congrArg c.memory (show c.stackPointer t + 4 * 8 = K.top t - 36 by omega)
  · omega
  · rw [← h.xPSR]
    congr 1
    omega
  · rw [← h.pc]
    congr 1
    omega

/-- A frame whose r14 is the initial one holds no floating-point registers. -/
theorem First.fpuContext {c : Cpu} {t : TaskPtr} (h : First K c t) {r : Registers}
    (hr : r.core = load c.memory (c.stackPointer t) 9) : r.fpuContext = false := by
  have hpointer := h.pointer
  have hr14 : r.r14 = 0xfffffffd := by
    unfold Registers.r14
    rw [hr, ← h.excReturn]
    exact congrArg c.memory (show c.stackPointer t + 4 * 8 = K.top t - 36 by omega)
  unfold Registers.fpuContext
  rw [hr14]
  decide

/-- How a switch from state `s` resumes a task in state `s'`. -/
structure Resumes (K : Stacks) (s s' : State) : Prop where
  /-- A task that was switched out before finds the registers of that time, -/
  context : ∀ r, s'.saved s'.cpu.currentTask = .context r →
    s'.cpu.registers.psp = r.psp ∧ s'.cpu.registers.core = r.core ∧
      (r.fpuContext = true → s'.cpu.registers.vfp = r.vfp)
  /-- and a new one its first frame. -/
  first : s'.saved s'.cpu.currentTask = .prepared → Enters K s'.cpu s'.cpu.currentTask
  others : ∀ t, t ≠ s.cpu.currentTask → s'.cpu.stackPointer t = s.cpu.stackPointer t

theorem resumes_pendSV {s : State} (hk : Kept K s) (hg : guard K .pendSV s) :
    Resumes K s (apply K .pendSV s) := by
  obtain ⟨hstarted, hport, hlower, hupper⟩ := hg
  have hh := handled_pendSV hport
  have hint := hh.intact hlower hupper fun t ht => hk t fun _ => ht
  set c' := s.cpu.pendSVHandler with hc'
  constructor
  · intro r hr
    have hin := hint c'.currentTask
    have hr' : Function.update s.saved s.cpu.currentTask (.context s.cpu.registers)
        c'.currentTask = .context r := hr
    rw [hr'] at hin
    obtain ⟨-, hpointer, -, hcore, hvfp⟩ := hin
    obtain ⟨h1, h2, h3⟩ := Cpu.restoreContext_of_core s.cpu.registers c'.memory _ r hcore
    change c'.registers.psp = r.psp ∧ c'.registers.core = r.core ∧
      (r.fpuContext = true → c'.registers.vfp = r.vfp)
    rw [hh.registers]
    exact ⟨h2.trans hpointer, h1, fun hf => (h3 hf).trans (hvfp hf)⟩
  · intro hp
    have hin := hint c'.currentTask
    have hp' : Function.update s.saved s.cpu.currentTask (.context s.cpu.registers)
        c'.currentTask = .prepared := hp
    rw [hp'] at hin
    have hfirst : First K c' c'.currentTask := hin
    obtain ⟨h1, h2, -⟩ := Cpu.restoreContext_of_core s.cpu.registers c'.memory _
      { s.cpu.registers with core := load c'.memory (c'.stackPointer c'.currentTask) 9 } rfl
    have hfpu := hfirst.fpuContext (r := { s.cpu.registers with
      core := load c'.memory (c'.stackPointer c'.currentTask) 9 }) rfl
    rw [Registers.frameSize, if_neg (by rw [hfpu]; exact Bool.false_ne_true)] at h2
    rw [← hh.registers] at h1 h2
    exact hfirst.enters h1 h2
  · exact fun t ht => (hh.spares hlower hupper ht).stackPointer

theorem kept_step (e : Event) (s : State) (hk : Kept K s) (hg : guard K e s) :
    Kept K (apply K e s) := by
  cases e with
  | pendSV =>
    obtain ⟨hstarted, hport, hlower, hupper⟩ := hg
    intro t _
    exact (handled_pendSV hport).intact hlower hupper (fun t ht => hk t fun _ => ht) t
  | startFirstTask =>
    intro t _
    exact (hk t fun hs => by rw [hg.1] at hs; cases hs).spare ⟨rfl, fun _ _ _ => rfl, rfl⟩
  | addTask t =>
    obtain ⟨hcount, hnever, hcur, hsp, hroom⟩ := hg
    have hsp' : (s.cpu.kernel.taskData t).currentStackPointer = K.top t := hsp
    have hadd := Kernel.prepares_addTask (t := t) hcount (by rw [hsp']; omega)
    obtain ⟨hframed, hfirst, hpointer, hothers, hcurrent⟩ := hadd
    rw [hsp'] at hframed hpointer
    intro u hu
    by_cases hut : u = t
    · subst u
      simp only [apply, Function.update_self]
      constructor
      · change K.base t ≤ ((s.cpu.kernel.addTask t).taskData t).currentStackPointer
        omega
      · exact hpointer
      · exact hframed.excReturn
      · exact hframed.xPSR
      · refine hframed.pc.trans ?_
        dsimp only
        rw [hfirst]
    · simp only [apply, Function.update_of_ne hut]
      refine Intact.spare (hk u fun hs => ?_) ⟨hothers u hut, fun a ha ha' => ?_, hfirst⟩
      · have hne := hu hs
        simp only [apply, Cpu.currentTask, hcurrent] at hne
        exact hne
      · have hdisj := K.disjoint u t hut
        exact hframed.outside a (by omega)
  | execute r k' g =>
    intro t ht
    have ht' : s.started = true → t ≠ s.cpu.currentTask := by
      intro hs
      have hne := ht hs
      simp only [apply, Cpu.currentTask, State.execute, hs, if_true] at hne
      exact hne
    refine (hk t ht').spare ⟨rfl, fun a ha ha' => ?_, rfl⟩
    simp only [apply, Cpu.memory, State.execute]
    refine if_neg ?_
    rintro ⟨hs, hlo, hhi⟩
    have hdisj := K.disjoint t s.cpu.currentTask (ht' hs)
    omega

/-- Context fidelity: in every run, whichever tasks are chosen, a resumed task finds the
registers that it was last switched out with, or its first frame. -/
theorem context_fidelity (K : Stacks) (c : Cpu) (es : List Event)
    (h : (machine K).Valid (start c) es) :
    let s := (machine K).exec (start c) es
    ((machine K).guard .pendSV s → Resumes K s ((machine K).apply .pendSV s)) ∧
      ((machine K).guard .startFirstTask s →
        Enters K ((machine K).apply .startFirstTask s).cpu s.cpu.currentTask) := by
  have hkept : Kept K ((machine K).exec (start c) es) :=
    Machine.invariant (I := Kept K) kept_step (fun _ _ => trivial) h
  refine ⟨resumes_pendSV hkept, fun hg => ?_⟩
  set s := (machine K).exec (start c) es
  have hin := hkept s.cpu.currentTask fun hs => by
    rw [hg.1] at hs
    cases hs
  rw [hg.2] at hin
  have hfirst : First K s.cpu s.cpu.currentTask := hin
  have hspared : First K ((machine K).apply .startFirstTask s).cpu s.cpu.currentTask :=
    ⟨hfirst.lower, hfirst.pointer, hfirst.excReturn, hfirst.xPSR, hfirst.pc⟩
  exact hspared.enters rfl rfl

def thousands : Stacks where
  base t := 1000 * t
  top t := 1000 * t + 1000
  disjoint t u h := by
    rcases Nat.lt_or_gt_of_ne h with hlt | hlt <;> omega

/-- Tasks 1 and 2 begin one after the other, and task 1 is resumed with the floating-point
registers that it was using. -/
theorem context_fidelity_two :
    let k (current ready : ℕ) : Kernel :=
      { currentTask := current, idleTask := 0, highestTaskPriority := .high,
        tasks := fun i => some (i + 1), readyTasks := fun _ => BitVec.ofNat 32 ready,
        taskData := fun t => { currentStackPointer := 1000 * t + 1000, priority := .high } }
    let r (psp : ℕ) (r14 : BitVec 32) : Registers := ⟨psp, fun _ => r14, fun i => i.val⟩
    let es : List Event :=
      [.addTask 1, .addTask 2, .execute (r 0 0) (k 1 2) false, .startFirstTask,
        .execute (r 1900 0xffffffed) (k 1 2) true, .pendSV,
        .execute (r 2800 0xfffffffd) (k 2 1) true]
    let s := (machine thousands).exec (start ⟨r 0 0, k 0 0, 0, false⟩) es
    Resumes thousands s ((machine thousands).apply .pendSV s) :=
  (context_fidelity thousands _ _ (by decide +kernel)).1 (by decide +kernel)

end CppRtos.Context
