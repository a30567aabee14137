import CppRtos.Context
import CppRtos.Kernel.ReadyTable

/-! The frames on the stacks: what the scheduler leaves alone, what saving a context writes
and restoring it reads, and the first frame of a task. -/
namespace CppRtos

namespace Port

/-- The counter and the mask do not matter for the stacks. -/
theorem stacks_update (p : Port) (nesting : ℕ) (masked underflow : Bool) :
    ({ p with
        nestingCounter := nesting
        masked := masked
        exitUnderflow := underflow } : Port).stackMemory = p.stackMemory ∧
      ({ p with
        nestingCounter := nesting
        masked := masked
        exitUnderflow := underflow } : Port).callFirstTime = p.callFirstTime := ⟨rfl, rfl⟩

theorem stacks_enterCritical (p : Port) : p.enterCritical.stackMemory = p.stackMemory ∧
    p.enterCritical.callFirstTime = p.callFirstTime := by
  unfold enterCritical
  exact stacks_update p _ _ _

theorem stacks_exitCritical (p : Port) : p.exitCritical.stackMemory = p.stackMemory ∧
    p.exitCritical.callFirstTime = p.callFirstTime := by
  unfold exitCritical
  exact stacks_update p _ _ _

end Port

namespace Kernel

/-- Agreement on the stacks, on the stack pointers and on where tasks begin. -/
structure SameStacks (k k' : Kernel) : Prop where
  stackMemory : k'.port.stackMemory = k.port.stackMemory
  callFirstTime : k'.port.callFirstTime = k.port.callFirstTime
  stackPointer : ∀ t, (k'.taskData t).currentStackPointer = (k.taskData t).currentStackPointer

theorem SameStacks.trans {k k' k'' : Kernel} (h : SameStacks k k') (h' : SameStacks k' k'') :
    SameStacks k k'' where
  stackMemory := h'.stackMemory.trans h.stackMemory
  callFirstTime := h'.callFirstTime.trans h.callFirstTime
  stackPointer t := (h'.stackPointer t).trans (h.stackPointer t)

theorem sameStacks_enterCritical (k : Kernel) : SameStacks k k.enterCritical :=
  ⟨(Port.stacks_enterCritical k.port).1, (Port.stacks_enterCritical k.port).2, fun _ => rfl⟩

theorem sameStacks_exitCritical (k : Kernel) : SameStacks k k.exitCritical :=
  ⟨(Port.stacks_exitCritical k.port).1, (Port.stacks_exitCritical k.port).2, fun _ => rfl⟩

theorem sameStacks_modifyTask (k : Kernel) (t : TaskPtr) {f : TaskData → TaskData}
    (hf : (f (k.taskData t)).currentStackPointer = (k.taskData t).currentStackPointer) :
    SameStacks k (k.modifyTask t f) :=
  ⟨rfl, rfl, modifyTask_congr k t (g := TaskData.currentStackPointer) hf⟩

theorem sameStacks_setTaskReady (k : Kernel) (t : TaskPtr) :
    SameStacks k (k.setTaskReady (some t)) := by
  constructor
  · rw [port_setTaskReady]
  · rw [port_setTaskReady]
  · intro u
    rw [taskData_setTaskReady]
    split_ifs with hu
    · rw [hu]
      rfl
    · rfl

theorem sameStacks_switchTo (k : Kernel) (p i : ℕ) : SameStacks k (k.switchTo p i) := by
  unfold switchTo
  cases k.tasks i with
  | none => exact ⟨rfl, rfl, fun _ => rfl⟩
  | some u =>
    have hset : ∀ k' : Kernel, SameStacks k' (clearReadyBit
        { k'.setState u .eRunning with currentTask := u } p i) := by
      intro k'
      have hstate := sameStacks_modifyTask k' u (f := (·.setState .eRunning)) rfl
      exact ⟨hstate.stackMemory, hstate.callFirstTime, hstate.stackPointer⟩
    dsimp only
    split_ifs
    · exact (sameStacks_setTaskReady k k.currentTask).trans (hset _)
    · exact hset k

theorem sameStacks_select (k : Kernel) : SameStacks k k.selectHighestPriorityTask := by
  have henter := sameStacks_enterCritical k
  unfold selectHighestPriorityTask
  dsimp only
  cases k.enterCritical.findReady with
  | none => exact henter.trans (sameStacks_exitCritical _)
  | some q =>
    exact (henter.trans (sameStacks_switchTo _ q.1 q.2)).trans (sameStacks_exitCritical _)

end Kernel

namespace Cpu

/-! ## Saving and restoring -/

theorem saveContext_core (r : Registers) (m : ℕ → BitVec 32) :
    BlockTransfer.load (saveContext r m).1 (saveContext r m).2 9 = r.core := by
  unfold saveContext
  dsimp only
  exact BlockTransfer.load_store _ _ _

section
variable (r : Registers) (m : ℕ → BitVec 32) (h : r.frameSize ≤ r.psp)
include h

theorem saveContext_pointer : (saveContext r m).2 + r.frameSize = r.psp := by
  unfold Registers.frameSize at h ⊢
  unfold saveContext
  dsimp only
  split_ifs at h ⊢ <;> dsimp only <;> omega

theorem saveContext_vfp (hf : r.fpuContext = true) :
    BlockTransfer.load (saveContext r m).1 ((saveContext r m).2 + 36) 16 = r.vfp := by
  unfold Registers.frameSize at h
  rw [if_pos hf] at h
  unfold saveContext
  dsimp only
  rw [if_pos hf]
  dsimp only
  rw [BlockTransfer.load_store_of_disjoint _ _ (by omega),
    show r.psp - 64 - 36 + 36 = r.psp - 64 by omega]
  exact BlockTransfer.load_store _ _ _

theorem saveContext_of_outside {a : ℕ} (ha : a + r.frameSize < r.psp ∨ r.psp ≤ a) :
    (saveContext r m).1 a = m a := by
  unfold Registers.frameSize at h ha
  unfold saveContext
  dsimp only
  split_ifs at h ha ⊢
  · dsimp only
    rw [BlockTransfer.store_of_outside _ _ (by omega),
      BlockTransfer.store_of_outside _ _ (by omega)]
  · dsimp only
    rw [BlockTransfer.store_of_outside _ _ (by omega)]

end

/-- What is restored is decided by the words that r14 and the others are loaded from. -/
theorem restoreContext_of_core (r' : Registers) (m : ℕ → BitVec 32) (r0 : ℕ) (r : Registers)
    (hcore : BlockTransfer.load m r0 9 = r.core) :
    (restoreContext r' m r0).core = r.core ∧
      (restoreContext r' m r0).psp = r0 + r.frameSize ∧
      (r.fpuContext = true →
        (restoreContext r' m r0).vfp = BlockTransfer.load m (r0 + 36) 16) := by
  have hfpu : ({ r' with core := r.core } : Registers).fpuContext = r.fpuContext := rfl
  unfold restoreContext Registers.frameSize
  dsimp only
  rw [hcore, hfpu]
  cases hf : r.fpuContext with
  | true => exact ⟨rfl, rfl, fun _ => rfl⟩
  | false => exact ⟨rfl, rfl, fun hn => absurd hn Bool.false_ne_true⟩

end Cpu

/-! ## The first frame -/

namespace Port

/-- The words of the frame of a new task that its first resumption reads, and the rest of the
memory. -/
structure Framed (m m' : ℕ → BitVec 32) (top : ℕ) (pc : BitVec 32) : Prop where
  xPSR : m' (top - 4) = 0x01000000
  pc : m' (top - 8) = pc
  excReturn : m' (top - 36) = 0xfffffffd
  outside : ∀ a, a + 68 < top ∨ top ≤ a → m' a = m a

theorem stackMemory_initialiseStack (p : Port) (top : ℕ) (h : 68 ≤ top) :
    Framed p.stackMemory (p.initialiseStack top).1.stackMemory top
        (p.callFirstTime &&& 0xfffffffe) ∧
      (p.initialiseStack top).1.callFirstTime = p.callFirstTime ∧
      (p.initialiseStack top).2 + 68 = top := by
  simp only [initialiseStack, push, List.foldl_cons, List.foldl_nil]
  refine ⟨⟨?_, ?_, ?_, fun a ha => ?_⟩, trivial, by omega⟩
  · repeat rw [Function.update_of_ne (by omega)]
    exact Function.update_self _ _ _
  · repeat rw [Function.update_of_ne (by omega)]
    exact Function.update_self _ _ _
  · repeat rw [Function.update_of_ne (by omega)]
    exact Function.update_self _ _ _
  · repeat rw [Function.update_of_ne (by omega)]

end Port

namespace Kernel

/-- Registration prepares the stack of the task at its stack pointer and touches no other. -/
structure Prepares (k k' : Kernel) (t : TaskPtr) : Prop where
  framed : Port.Framed k.port.stackMemory k'.port.stackMemory
    (k.taskData t).currentStackPointer (k.port.callFirstTime &&& 0xfffffffe)
  callFirstTime : k'.port.callFirstTime = k.port.callFirstTime
  stackPointer : (k'.taskData t).currentStackPointer + 68 = (k.taskData t).currentStackPointer
  others : ∀ u, u ≠ t →
    (k'.taskData u).currentStackPointer = (k.taskData u).currentStackPointer
  currentTask : k'.currentTask = k.currentTask

theorem port_addTask {k : Kernel} {t : TaskPtr} (h : k.taskCount < maxTasks) :
    (k.addTask t).port = (k.port.enterCritical.initialiseStack
      (k.taskData t).currentStackPointer).1.exitCritical := by
  unfold addTask
  rw [if_pos h]
  dsimp only
  split_ifs <;> simp [exitCritical, setReadyBit, assert, modifyTask, enterCritical,
    TaskData.setId]

theorem stackPointer_addTask {k : Kernel} {t : TaskPtr} (h : k.taskCount < maxTasks)
    (u : TaskPtr) : ((k.addTask t).taskData u).currentStackPointer =
      if u = t then (k.port.enterCritical.initialiseStack (k.taskData t).currentStackPointer).2
      else (k.taskData u).currentStackPointer := by
  unfold addTask
  rw [if_pos h]
  dsimp only
  by_cases hu : u = t
  · subst u
    rw [if_pos rfl]
    split_ifs <;> simp [exitCritical, setReadyBit, assert, modifyTask, enterCritical,
      TaskData.setId, TaskData.setCurrentStackPtr]
  · rw [if_neg hu]
    split_ifs <;> simp [exitCritical, setReadyBit, assert, modifyTask, enterCritical,
      Function.update_of_ne hu]

theorem currentTask_addTask (k : Kernel) (t : TaskPtr) :
    (k.addTask t).currentTask = k.currentTask := by
  unfold addTask
  dsimp only
  split_ifs <;> rfl

theorem prepares_addTask {k : Kernel} {t : TaskPtr} (h : k.taskCount < maxTasks)
    (ht : 68 ≤ (k.taskData t).currentStackPointer) : Prepares k (k.addTask t) t := by
  obtain ⟨hm, hc⟩ := Port.stacks_enterCritical k.port
  obtain ⟨hframed, hfirst, hsp⟩ := Port.stackMemory_initialiseStack k.port.enterCritical
    (k.taskData t).currentStackPointer ht
  rw [hm, hc] at hframed
  obtain ⟨hm', hc'⟩ := Port.stacks_exitCritical
    (k.port.enterCritical.initialiseStack (k.taskData t).currentStackPointer).1
  constructor
  · rw [port_addTask h, hm']
    exact hframed
  · rw [port_addTask h, hc', hfirst, hc]
  · rw [stackPointer_addTask h, if_pos rfl]
    exact hsp
  · intro u hu
    rw [stackPointer_addTask h, if_neg hu]
  · exact currentTask_addTask k t

end Kernel

end CppRtos
