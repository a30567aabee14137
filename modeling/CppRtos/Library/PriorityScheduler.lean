import Mathlib.Data.List.Basic
import Mathlib.Data.Set.Insert
import Mathlib.Logic.Relation
import Mathlib.Order.Defs.LinearOrder
import Mathlib.Tactic.Common

/-! A preemptive priority scheduler in terms of sets and orders. Lower levels are more urgent,
and among equals the task that was enrolled first is taken. -/

@[ext] structure PriorityScheduler (τ π : Type*) where
  order : List τ
  level : τ → π
  ready : Set τ
  current : τ
  running : Prop

namespace PriorityScheduler
variable {τ π : Type*} [DecidableEq τ] [LinearOrder π] {s s' : PriorityScheduler τ π} {t u : τ}

def start (idleTask : τ) (level : τ → π) : PriorityScheduler τ π where
  order := [idleTask]
  level := level
  ready := {idleTask}
  current := idleTask
  running := False

def enroll (capacity : ℕ) (s : PriorityScheduler τ π) (t : τ) : PriorityScheduler τ π :=
  if s.order.length < capacity then
    { s with order := s.order ++ [t], ready := insert t s.ready }
  else s

/-! ## Changes without a choice -/

def wake (s : PriorityScheduler τ π) (t : τ) : PriorityScheduler τ π :=
  { s with ready := insert t s.ready, running := s.running ∧ s.current ≠ t }

def suspend (s : PriorityScheduler τ π) (t : τ) : PriorityScheduler τ π :=
  { s with ready := s.ready \ {t}, running := s.running ∧ s.current ≠ t }

/-- The ready task that is chosen: above the idle level, and before all others. -/
structure Chosen (s : PriorityScheduler τ π) (idle : π) (t : τ) : Prop where
  enrolled : t ∈ s.order
  ready : t ∈ s.ready
  aboveIdle : s.level t < idle
  first : ∀ u ∈ s.order, u ∈ s.ready →
    s.level t < s.level u ∨ s.level t = s.level u ∧ s.order.idxOf t ≤ s.order.idxOf u

theorem Chosen.unique {idle : π} (ht : s.Chosen idle t) (hu : s.Chosen idle u) : t = u := by
  have htu := ht.first u hu.enrolled hu.ready
  have hut := hu.first t ht.enrolled ht.ready
  rcases htu with hlt | ⟨heq, hle⟩
  · rcases hut with hgt | ⟨heq, -⟩
    · exact absurd hgt hlt.asymm
    · exact absurd heq hlt.ne'
  · rcases hut with hgt | ⟨-, hge⟩
    · exact absurd heq hgt.ne'
    · exact (List.idxOf_inj ht.enrolled).mp (le_antisymm hle hge)

/-- The task that was running is ready again. -/
def switchTo (s : PriorityScheduler τ π) (t : τ) : PriorityScheduler τ π where
  order := s.order
  level := s.level
  ready := {u | u ≠ t ∧ (u ∈ s.ready ∨ s.running ∧ u = s.current)}
  current := t
  running := True

open Classical in
/-- Without a task to choose everything stays as it is. -/
noncomputable def dispatch (idle : π) (s : PriorityScheduler τ π) : PriorityScheduler τ π :=
  if h : ∃ t, s.Chosen idle t then s.switchTo h.choose else s

inductive Action (τ : Type*) where
  | dispatch
  | enroll (t : τ)
  | adjust

end PriorityScheduler
