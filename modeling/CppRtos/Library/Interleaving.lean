import CppRtos.Library.Machine
import Mathlib.Logic.Function.Basic

/-! Threads that execute calls on shared state, one atomic step at a time, under
interference of an environment. Safety is proved with one assertion on the shared
state and one for each thread, in the manner of Owicki and Gries. -/

/-- What an atomic step leaves of a call: the rest of the call, or its result. -/
inductive Outcome (γ ρ : Type*) where
  | next (call : γ)
  | ret (result : ρ)
deriving DecidableEq, Repr

def Outcome.call? {γ ρ : Type*} : Outcome γ ρ → Option γ
  | .next c => some c
  | .ret _ => none

@[simp] theorem Outcome.call?_next {γ ρ : Type*} (c : γ) :
    (Outcome.next c : Outcome γ ρ).call? = some c := rfl

@[simp] theorem Outcome.call?_ret {γ ρ : Type*} (r : ρ) :
    (Outcome.ret r : Outcome γ ρ).call? = none := rfl

def Outcome.map {γ γ' ρ ρ' : Type*} (f : γ → γ') (g : ρ → ρ') : Outcome γ ρ → Outcome γ' ρ'
  | .next c => .next (f c)
  | .ret r => .ret (g r)

@[simp] theorem Outcome.call?_map {γ γ' ρ ρ' : Type*} (f : γ → γ') (g : ρ → ρ')
    (o : Outcome γ ρ) : (o.map f g).call? = o.call?.map f := by
  cases o <;> rfl

/-- `entry` says which calls a thread outside any call may begin, `enabled` when a
thread may take the next step of its call, `interferes` what the environment may do. -/
structure Protocol (τ σ γ ρ ε : Type*) where
  entry : τ → γ → σ → Prop
  enabled : τ → γ → σ → Prop
  step : τ → γ → σ → σ × Outcome γ ρ
  interferes : ε → σ → Prop
  interfere : ε → σ → σ

structure Config (τ σ γ : Type*) where
  shared : σ
  call : τ → Option γ

inductive Protocol.Action (τ γ ε : Type*) where
  | invoke (t : τ) (c : γ)
  | exec (t : τ)
  | env (e : ε)

namespace Protocol
variable {τ σ γ ρ ε : Type*} [DecidableEq τ] (P : Protocol τ σ γ ρ ε)

/-- The step a thread is about to take is enabled. -/
def Pending (t : τ) : Option γ → σ → Prop
  | none, _ => False
  | some c, s => P.enabled t c s

def guard : Action τ γ ε → Config τ σ γ → Prop
  | .invoke t c, s => s.call t = none ∧ P.entry t c s.shared
  | .exec t, s => P.Pending t (s.call t) s.shared
  | .env e, s => P.interferes e s.shared

def apply : Action τ γ ε → Config τ σ γ → Config τ σ γ
  | .invoke t c, s => { s with call := Function.update s.call t (some c) }
  | .exec t, s => match s.call t with
    | none => s
    | some c =>
      ⟨(P.step t c s.shared).1, Function.update s.call t (P.step t c s.shared).2.call?⟩
  | .env e, s => { s with shared := P.interfere e s.shared }

def machine : Machine (Config τ σ γ) (Action τ γ ε) := ⟨P.guard, P.apply⟩

section
variable {P} {s : Config τ σ γ} {t : τ} {c : γ}

theorem guard_exec (hc : s.call t = some c) :
    P.machine.guard (.exec t) s ↔ P.enabled t c s.shared := by
  simp only [machine, guard, hc, Pending]

theorem apply_exec (hc : s.call t = some c) : P.machine.apply (.exec t) s =
    ⟨(P.step t c s.shared).1, Function.update s.call t (P.step t c s.shared).2.call?⟩ := by
  simp only [machine, apply, hc]

theorem call_of_guard (hg : P.machine.guard (.exec t) s) :
    ∃ c, s.call t = some c ∧ P.enabled t c s.shared := by
  cases hc : s.call t with
  | none => simp [machine, guard, Pending, hc] at hg
  | some c => exact ⟨c, rfl, (guard_exec hc).mp hg⟩

end

def start (s : σ) : Config τ σ γ := ⟨s, fun _ => none⟩

instance [∀ t c s, Decidable (P.enabled t c s)] (t : τ) :
    ∀ c s, Decidable (P.Pending t c s)
  | none, _ => inferInstanceAs (Decidable False)
  | some c, s => inferInstanceAs (Decidable (P.enabled t c s))

instance [∀ t c s, Decidable (P.entry t c s)] [∀ t c s, Decidable (P.enabled t c s)]
    [∀ e s, Decidable (P.interferes e s)] [DecidableEq γ] :
    ∀ a s, Decidable (P.machine.guard a s)
  | .invoke t c, s => inferInstanceAs (Decidable (s.call t = none ∧ P.entry t c s.shared))
  | .exec t, s => inferInstanceAs (Decidable (P.Pending t (s.call t) s.shared))
  | .env e, s => inferInstanceAs (Decidable (P.interferes e s.shared))

/-- The assertions on the shared state and on every thread. -/
def Holds (I : σ → Prop) (A : τ → Option γ → σ → Prop) (s : Config τ σ γ) : Prop :=
  I s.shared ∧ ∀ t, A t (s.call t) s.shared

section
variable {P} {C : Action τ γ ε → Config τ σ γ → Prop} {I : σ → Prop} {A : τ → Option γ → σ → Prop}
  (invoke : ∀ t c s, I s → A t none s → P.entry t c s → A t (some c) s)
  (step : ∀ t c (s : Config τ σ γ), s.call t = some c → C (.exec t) s → Holds I A s →
    P.enabled t c s.shared → I (P.step t c s.shared).1 ∧
      A t (P.step t c s.shared).2.call? (P.step t c s.shared).1)
  (frame : ∀ t c (s : Config τ σ γ) u, s.call t = some c → C (.exec t) s → Holds I A s →
    P.enabled t c s.shared → u ≠ t → A u (s.call u) (P.step t c s.shared).1)
  (env : ∀ e (s : Config τ σ γ), C (.env e) s → Holds I A s → P.interferes e s.shared →
    I (P.interfere e s.shared) ∧ ∀ u, A u (s.call u) (P.interfere e s.shared))
include invoke step frame env

/-- Sequential correctness of each step and freedom from interference keep the
assertions, also when only steps that meet `C` count. -/
theorem holds_apply {a : Action τ γ ε} {s : Config τ σ γ} (hs : Holds I A s)
    (hg : P.machine.guard a s) (hC : C a s) : Holds I A (P.machine.apply a s) := by
  rcases a with ⟨t, c⟩ | t | e
  · refine ⟨hs.1, fun u => ?_⟩
    by_cases hu : u = t
    · subst u
      simpa [machine, apply] using invoke t c s.shared hs.1 (hg.1 ▸ hs.2 t) hg.2
    · simpa [machine, apply, hu] using hs.2 u
  · obtain ⟨c, hc, hen⟩ := call_of_guard hg
    obtain ⟨hI, hA⟩ := step t c s hc hC hs hen
    rw [apply_exec hc]
    refine ⟨hI, fun u => ?_⟩
    by_cases hu : u = t
    · subst u
      simpa using hA
    · simpa [hu] using frame t c s u hc hC hs hen hu
  · exact env e s hC hs hg

theorem holds_of_run {s : Config τ σ γ} {es : List (Action τ γ ε)} (h0 : Holds I A s)
    (h : (P.machine.restrict C).Valid s es) : Holds I A (P.machine.exec s es) := by
  refine Machine.invariant (M := P.machine.restrict C) (fun a s hs hg => ?_) h0 h
  exact holds_apply invoke step frame env hs hg.1 hg.2

end

end Protocol
