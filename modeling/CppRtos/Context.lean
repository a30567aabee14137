import CppRtos.Kernel
import CppRtos.Library.BlockTransfer

/-! The register context of a task switch: the handlers PendSV and SVC, which save and
restore it on the stacks of the tasks, and the function that they call between. -/
namespace CppRtos

/-- What the handlers save in software, and the process stack pointer. `core` holds r4 to r11
and r14 in the order of the register lists, `vfp` s16 to s31. -/
structure Registers where
  psp : ℕ
  core : Fin 9 → BitVec 32
  vfp : Fin 16 → BitVec 32

namespace Registers

def r14 (r : Registers) : BitVec 32 := r.core 8

/-- `tst r14, #0x10` sets the zero flag. -/
def fpuContext (r : Registers) : Bool := r.r14 &&& 0x10 == 0

/-- The bytes that the handler stores below the stack pointer. -/
def frameSize (r : Registers) : ℕ := if r.fpuContext then 100 else 36

end Registers

/-- The processor with the words of `Port.cpp`: `currentStackPtr` is the one that
`ptrCurrentTask` leads to, `gPtrPort` whether the pointer of this name is set. The two words
that PendSV keeps on the main stack meanwhile are left out. -/
structure Cpu where
  registers : Registers
  kernel : Kernel
  currentStackPtr : ℕ
  gPtrPort : Bool

namespace Cpu

def memory (c : Cpu) : ℕ → BitVec 32 := c.kernel.port.stackMemory

def currentTask (c : Cpu) : TaskPtr := c.kernel.currentTask

def stackPointer (c : Cpu) (t : TaskPtr) : ℕ := (c.kernel.taskData t).currentStackPointer

def taskSwitchContext (c : Cpu) : Cpu :=
  if c.gPtrPort then
    let k := c.kernel.modifyTask c.kernel.currentTask (·.setCurrentStackPtr c.currentStackPtr)
    let k := k.selectHighestPriorityTask
    let c := { c with kernel := k }
    if c.stackPointer c.currentTask ≠ c.currentStackPtr then
      { c with currentStackPtr := c.stackPointer c.currentTask }
    else c
  else c

/-- `vstmdbeq r0!, {s16-s31}`, then `stmdb r0!, {r4-r11, r14}`: the memory, and r0. -/
def saveContext (r : Registers) (m : ℕ → BitVec 32) : (ℕ → BitVec 32) × ℕ :=
  let s := if r.fpuContext then (BlockTransfer.store m (r.psp - 64) r.vfp, r.psp - 64)
    else (m, r.psp)
  (BlockTransfer.store s.1 (s.2 - 36) r.core, s.2 - 36)

/-- `ldmia r0!, {r4-r11, r14}`, then `vldmiaeq r0!, {s16-s31}` and `msr psp, r0`. -/
def restoreContext (r : Registers) (m : ℕ → BitVec 32) (r0 : ℕ) : Registers :=
  let r := { r with core := BlockTransfer.load m r0 9 }
  if r.fpuContext then { r with vfp := BlockTransfer.load m (r0 + 36) 16, psp := r0 + 36 + 64 }
  else { r with psp := r0 + 36 }

/-- `PendSV_Handler`. The pending bit falls on entry; BASEPRI is raised for the call. -/
def pendSVHandler (c : Cpu) : Cpu :=
  let s := saveContext c.registers c.memory
  let c := { c with
    kernel := { c.kernel with port := { c.kernel.port with
      stackMemory := s.1
      pendSV := false
      masked := true } }
    currentStackPtr := s.2 }
  let c := c.taskSwitchContext
  { c with
    kernel := { c.kernel with port := { c.kernel.port with masked := false } }
    registers := restoreContext c.registers c.memory c.currentStackPtr }

/-- `startFirstTask`, which points to the control block of the current task, and
`SVC_Handler`. The first word of a control block is its stack pointer. -/
def startFirstTask (c : Cpu) : Cpu :=
  let r0 := c.stackPointer c.currentTask
  { c with
    currentStackPtr := c.currentTask
    kernel := { c.kernel with port := { c.kernel.port with masked := false } }
    registers := { c.registers with core := BlockTransfer.load c.memory r0 9, psp := r0 + 36 } }

end Cpu

end CppRtos
