import CppRtos.Library.Interleaving
import Mathlib.Logic.Function.Iterate

/-! A call that is executed step by step without interference. -/
namespace Outcome
variable {σ γ ρ : Type*} {step : γ → σ → σ × Outcome γ ρ} {c c' : γ} {s s' : σ} {r : ρ}

/-- The next step of a call, if it has not returned. -/
def resume (step : γ → σ → σ × Outcome γ ρ) : σ × Outcome γ ρ → σ × Outcome γ ρ
  | (s, .next c) => step c s
  | (s, .ret r) => (s, .ret r)

def after (step : γ → σ → σ × Outcome γ ρ) (n : ℕ) (c : γ) (s : σ) : σ × Outcome γ ρ :=
  (resume step)^[n] (s, .next c)

/-- The call returns, in a finite number of steps. -/
def Returns (step : γ → σ → σ × Outcome γ ρ) (c : γ) (s s' : σ) (r : ρ) : Prop :=
  ∃ n, after step n c s = (s', .ret r)

theorem after_succ (n : ℕ) : after step (n + 1) c s = (resume step)^[n] (step c s) :=
  Function.iterate_succ_apply _ _ _

theorem Returns.of_ret (h : step c s = (s', .ret r)) : Returns step c s s' r := by
  refine ⟨1, ?_⟩
  rw [after_succ, h]
  rfl

theorem Returns.of_next {s₁ : σ} (h : step c s = (s₁, .next c')) (hr : Returns step c' s₁ s' r) :
    Returns step c s s' r := by
  obtain ⟨n, hn⟩ := hr
  refine ⟨n + 1, ?_⟩
  rw [after_succ, h]
  exact hn

theorem Returns.next {s₁ : σ} (hr : Returns step c s s' r) (h : step c s = (s₁, .next c')) :
    Returns step c' s₁ s' r := by
  obtain ⟨n, hn⟩ := hr
  cases n with
  | zero => cases hn
  | succ n =>
    rw [after_succ, h] at hn
    exact ⟨n, hn⟩

/-- A call does not return if from every point of a set it goes on to a point of the set. -/
theorem not_returns {P : γ → σ → Prop}
    (hP : ∀ c s, P c s → ∃ c' s', step c s = (s', .next c') ∧ P c' s') (h : P c s) :
    ¬ Returns step c s s' r := by
  rintro ⟨n, hn⟩
  induction n generalizing c s with
  | zero => cases hn
  | succ n ih =>
    obtain ⟨c', s₁, hstep, hnext⟩ := hP c s h
    rw [after_succ, hstep] at hn
    exact ih hnext hn

end Outcome
