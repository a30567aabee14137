import CppRtos.Library.Interleaving

/-! Calls of one class that are made one after another. -/
namespace Protocol
variable {τ σ γ ρ ε : Type*} [DecidableEq τ] {P : Protocol τ σ γ ρ ε} {K : γ → Bool}

/-- At most one thread is inside a call of the class. -/
def Serial (K : γ → Bool) (s : Config τ σ γ) : Prop :=
  ∀ t u, (s.call t).any K = true → (s.call u).any K = true → t = u

/-- A call of the class begins only when no other one is under way. -/
def BeginsAlone (K : γ → Bool) : Action τ γ ε → Config τ σ γ → Prop
  | .invoke _ c, s => K c = true → ∀ u, (s.call u).any K = false
  | _, _ => True

omit [DecidableEq τ] in
theorem serial_start (K : γ → Bool) (s : σ) : Serial K (start s : Config τ σ γ) :=
  fun _ _ h => nomatch h

/-- Calls that begin alone stay alone, where no step leads into the class. -/
theorem serial_apply
    (hstep : ∀ t c s c', (P.step t c s).2.call? = some c' → K c' = true → K c = true)
    {a : Action τ γ ε} {s : Config τ σ γ} (h : Serial K s) (ha : BeginsAlone K a s) :
    Serial K (P.machine.apply a s) := by
  cases a with
  | invoke v c =>
    intro t u ht hu
    change (Function.update s.call v (some c) t).any K = true at ht
    change (Function.update s.call v (some c) u).any K = true at hu
    by_cases hK : K c = true
    · have honly : ∀ w, (Function.update s.call v (some c) w).any K = true → w = v := by
        intro w hw
        by_contra hwv
        rw [Function.update_of_ne hwv, ha hK w] at hw
        cases hw
      exact (honly t ht).trans (honly u hu).symm
    · have hold : ∀ w, (Function.update s.call v (some c) w).any K = true →
          (s.call w).any K = true := by
        intro w hw
        by_cases hwv : w = v
        · subst hwv
          rw [Function.update_self] at hw
          exact absurd hw hK
        · rwa [Function.update_of_ne hwv] at hw
      exact h t u (hold t ht) (hold u hu)
  | exec v =>
    cases hc : s.call v with
    | none => simpa only [machine, apply, hc] using h
    | some c =>
      have hold : ∀ w, (Function.update s.call v (P.step v c s.shared).2.call? w).any K = true →
          (s.call w).any K = true := by
        intro w hw
        by_cases hwv : w = v
        · subst hwv
          rw [Function.update_self] at hw
          obtain ⟨c', hc', hK⟩ := (Option.any_eq_true _ _).mp hw
          rw [hc]
          exact hstep w c s.shared c' hc' hK
        · rwa [Function.update_of_ne hwv] at hw
      simp only [machine, apply, hc]
      exact fun t u ht hu => h t u (hold t ht) (hold u hu)
  | env e => exact h

end Protocol
