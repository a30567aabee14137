import Mathlib.Algebra.Group.Nat.Defs
import Mathlib.Data.Nat.Basic
import Mathlib.Logic.Function.Basic

/-! The part of the Cortex-M7 port the kernel calls: tick count, critical sections,
the pending context switch, and the first stack frame of a task. -/
namespace CppRtos

/-- `masked` is a raised BASEPRI, `pendSV` the pending bit of ICSR, `insideInterrupt`
a nonzero IPSR. `exitUnderflow` records an `exitCritical` at counter 0, the case of
the check left as a comment there. The last two fields are link-time addresses. -/
structure Port where
  tickCount : ℕ := 0
  nestingCounter : ℕ := 0
  masked : Bool := false
  pendSV : Bool := false
  insideInterrupt : Bool := false
  exitUnderflow : Bool := false
  stackMemory : ℕ → BitVec 32 := fun _ => 0
  callFirstTime : BitVec 32 := 0
  taskExitError : BitVec 32 := 0

namespace Port

def enterCritical (p : Port) : Port :=
  { p with nestingCounter := (p.nestingCounter + 1) % 2 ^ 32, masked := true }

def exitCritical (p : Port) : Port :=
  let nesting := (p.nestingCounter + (2 ^ 32 - 1)) % 2 ^ 32
  { p with
    nestingCounter := nesting
    masked := if nesting = 0 then false else p.masked
    exitUnderflow := p.exitUnderflow || p.nestingCounter == 0 }

/-- Request a context switch. -/
def yield (p : Port) : Port := { p.enterCritical with pendSV := true }.exitCritical

def incrementTickCount (p : Port) : Port := { p with tickCount := (p.tickCount + 1) % 2 ^ 64 }

/-- Store a word and leave the pointer on it: `*topOfStack = word`. -/
def push (p : Port) (address : ℕ) (word : BitVec 32) : Port :=
  { p with stackMemory := Function.update p.stackMemory address word }

/-- Prepare the frame from which a task is first resumed. Word `k` below the top is at
`top - 4 * k`; R12, R3, R2, R1 and the saved R4 keep what the memory held. -/
def initialiseStack (p : Port) (pxTopOfStack : ℕ) : Port × ℕ :=
  let at' k := pxTopOfStack - 4 * k
  let p := p.push (at' 1) 0x01000000
  let p := p.push (at' 2) (p.callFirstTime &&& 0xfffffffe)
  let p := p.push (at' 3) p.taskExitError
  let p := p.push (at' 8) 0
  let p := p.push (at' 9) 0xfffffffd
  let p := [10, 11, 12, 13, 14, 15, 16].foldl (fun p k => p.push (at' k) 0) p
  (p, at' 17)

/-! ## Time -/

/-- The counter, the mask and the pending bit do not matter for the time. -/
theorem tickCount_update (p : Port) (nesting : ℕ) (masked pendSV underflow : Bool) :
    ({ p with
      nestingCounter := nesting
      masked := masked
      pendSV := pendSV
      exitUnderflow := underflow } : Port).tickCount = p.tickCount := rfl

theorem tickCount_enterCritical (p : Port) : p.enterCritical.tickCount = p.tickCount := by
  unfold Port.enterCritical
  exact tickCount_update p _ _ _ _

theorem tickCount_exitCritical (p : Port) : p.exitCritical.tickCount = p.tickCount := by
  unfold Port.exitCritical
  exact tickCount_update p _ _ _ _

theorem tickCount_yield (p : Port) : p.yield.tickCount = p.tickCount := by
  unfold Port.yield Port.exitCritical Port.enterCritical
  exact tickCount_update p _ _ _ _

/-! ## Nesting -/

/-- Nesting depth `c`, reached without an `exitCritical` too many. -/
structure Depth (p : Port) (c : ℕ) : Prop where
  nestingCounter : p.nestingCounter = c
  exitUnderflow : p.exitUnderflow = false

/-- Depth `c` with interrupts enabled if no critical section is open. -/
structure At (p : Port) (c : ℕ) : Prop extends Depth p c where
  unmasked : c = 0 → p.masked = false

theorem Depth.enterCritical {p : Port} {c : ℕ} (h : p.Depth c) (hc : c + 1 < 2 ^ 32) :
    p.enterCritical.Depth (c + 1) := by
  have hmod : (c + 1) % 2 ^ 32 = c + 1 := Nat.mod_eq_of_lt hc
  unfold Port.enterCritical
  exact ⟨by simp only [h.nestingCounter, hmod], h.exitUnderflow⟩

theorem Depth.exitCritical {p : Port} {c : ℕ} (h : p.Depth (c + 1)) (hc : c + 1 < 2 ^ 32) :
    p.exitCritical.At c := by
  have hmod : (c + 1 + (2 ^ 32 - 1)) % 2 ^ 32 = c := by omega
  have hzero : (c + 1 == 0) = false := by simp
  unfold Port.exitCritical
  simp only [h.nestingCounter, h.exitUnderflow, hmod, hzero, Bool.or_false]
  exact ⟨⟨rfl, rfl⟩, fun h0 => if_pos h0⟩

theorem Depth.yield {p : Port} {c : ℕ} (h : p.Depth c) (hc : c + 1 < 2 ^ 32) :
    p.yield.At c := by
  have hin := h.enterCritical hc
  have hpend : Port.Depth { p.enterCritical with pendSV := true } (c + 1) :=
    ⟨hin.nestingCounter, hin.exitUnderflow⟩
  unfold Port.yield
  exact hpend.exitCritical hc

/-- Two entries and one exit leave the counter one higher. -/
theorem nestingCounter_enter_enter_exit {p : Port} {c : ℕ} (h : p.nestingCounter = c)
    (hc : c + 1 < 2 ^ 32) : p.enterCritical.enterCritical.exitCritical.nestingCounter = c + 1 := by
  unfold Port.exitCritical Port.enterCritical
  simp only [h]
  omega

theorem Depth.initialiseStack {p : Port} {c : ℕ} (h : p.Depth c) (top : ℕ) :
    (p.initialiseStack top).1.Depth c := by
  simp only [Port.initialiseStack, push, List.foldl_cons, List.foldl_nil]
  exact ⟨h.nestingCounter, h.exitUnderflow⟩

end Port

end CppRtos
