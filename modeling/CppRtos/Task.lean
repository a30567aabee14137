import Mathlib.Algebra.Group.Nat.Defs
import Mathlib.Data.Nat.Basic
import Mathlib.Logic.Function.Basic
import Mathlib.Order.Basic
import Mathlib.Tactic.Common

/-! Task states, priority levels and the scheduling fields of a task control block. -/
namespace CppRtos

/-- Address of a `TaskData` object. A nullable pointer is an `Option TaskPtr`. -/
abbrev TaskPtr := ℕ

inductive TaskStateType where
  | eReady | eRunning | eBlocked | eSuspended | eSleeping
deriving DecidableEq, Repr

/-- The states in which a task must not execute. -/
def TaskStateType.Waiting (s : TaskStateType) : Prop :=
  s = .eBlocked ∨ s = .eSleeping ∨ s = .eSuspended

instance : DecidablePred TaskStateType.Waiting := fun s =>
  inferInstanceAs (Decidable (s = .eBlocked ∨ s = .eSleeping ∨ s = .eSuspended))

inductive TaskPriority where
  | highest | veryHigh | high | moderatelyHigh | mediumHigh | slightlyHigh | aboveAverage
  | average | belowAverage | slightlyLow | mediumLow | moderatelyLow | low | veryLow
  | lowerLow | idle | reserved
deriving DecidableEq, Repr

namespace TaskPriority

/-- The numerical value of the enumeration; smaller numbers are higher priorities. -/
def level : TaskPriority → ℕ
  | highest => 0 | veryHigh => 1 | high => 2 | moderatelyHigh => 3 | mediumHigh => 4
  | slightlyHigh => 5 | aboveAverage => 6 | average => 7 | belowAverage => 8
  | slightlyLow => 9 | mediumLow => 10 | moderatelyLow => 11 | low => 12 | veryLow => 13
  | lowerLow => 14 | idle => 15 | reserved => 0xFF

/-- The overloaded comparisons of the source: lower means numerically greater. -/
instance : LT TaskPriority := ⟨fun lhs rhs => rhs.level < lhs.level⟩

instance : DecidableRel (α := TaskPriority) (· < ·) := fun lhs rhs =>
  inferInstanceAs (Decidable (rhs.level < lhs.level))

theorem lt_iff (p q : TaskPriority) : p < q ↔ q.level < p.level := Iff.rfl

protected theorem lt_irrefl (p : TaskPriority) : ¬ p < p := Nat.lt_irrefl p.level

@[simp] theorem level_idle : level idle = 15 := rfl

@[simp] theorem level_reserved : level reserved = 255 := rfl

theorem level_le_idle_or_reserved (p : TaskPriority) : p.level ≤ 15 ∨ p = reserved := by
  cases p <;> simp [level]

end TaskPriority

/-- `MAX_PRIORY_LEVELS` of the source: one word of the ready table for each level. -/
def maxPrioryLevels : ℕ := 16

structure TaskData where
  currentStackPointer : ℕ := 0
  priority : TaskPriority := .idle
  basePriority : TaskPriority := .idle
  flagsToWaitFor : BitVec 32 := 0
  state : TaskStateType := .eReady
  id : ℕ := 0
deriving DecidableEq, Repr

namespace TaskData

def resetPriority (d : TaskData) : TaskData := { d with priority := d.basePriority }

def setPriority (d : TaskData) (prio : TaskPriority) : TaskData :=
  if prio < .idle then { d with priority := .idle, basePriority := prio }
  else { d with priority := prio, basePriority := prio }

def setFlagsToWaitFor (d : TaskData) (flags : BitVec 32) : TaskData :=
  { d with flagsToWaitFor := flags }

def setState (d : TaskData) (state : TaskStateType) : TaskData := { d with state := state }

def setId (d : TaskData) (id : ℕ) : TaskData := { d with id := id }

def setCurrentStackPtr (d : TaskData) (p : ℕ) : TaskData := { d with currentStackPointer := p }

theorem setPriority_of_level_le (d : TaskData) {prio : TaskPriority} (h : prio.level ≤ 15) :
    d.setPriority prio = { d with priority := prio, basePriority := prio } := by
  rw [setPriority, if_neg (by rw [TaskPriority.lt_iff, TaskPriority.level_idle]; omega)]

/-- A priority that is higher than some other is one of the 16 levels. -/
theorem setPriority_of_lt (d : TaskData) {p q : TaskPriority} (h : p < q) :
    d.setPriority q = { d with priority := q, basePriority := q } := by
  apply d.setPriority_of_level_le
  have hlt := (TaskPriority.lt_iff p q).mp h
  rcases q.level_le_idle_or_reserved with hq | rfl
  · exact hq
  · rcases p.level_le_idle_or_reserved with hp | rfl
    · rw [TaskPriority.level_reserved] at hlt
      omega
    · exact absurd hlt (lt_irrefl _)

/-- A task as the application hands it over: only its priority has been assigned. -/
def fresh (prio : TaskPriority) : TaskData := ({} : TaskData).setPriority prio

theorem fresh_cases (prio : TaskPriority) :
    (prio ≠ .reserved ∧ fresh prio = { priority := prio, basePriority := prio }) ∨
      (prio = .reserved ∧ fresh prio = { priority := .idle, basePriority := .reserved }) := by
  cases prio <;> decide

end TaskData

end CppRtos
