import CppRtos.Library.Interleaving

/-! A thread that needs a bounded number of its own steps, however many other threads make in
between. -/
namespace Protocol
variable {τ σ γ ρ ε : Type*} [DecidableEq τ]

def steps (t : τ) : List (Action τ γ ε) → ℕ
  | [] => 0
  | .exec u :: es => if u = t then steps t es + 1 else steps t es
  | _ :: es => steps t es

variable {P : Protocol τ σ γ ρ ε} {t : τ} {c : γ} {s : Config τ σ γ}

theorem call_apply_of_ne (hc : s.call t = some c) {a : Action τ γ ε} (hg : P.machine.guard a s)
    (ha : ∀ u, a = .exec u → u ≠ t) : (P.machine.apply a s).call t = some c := by
  cases a with
  | invoke u d =>
    have hu : t ≠ u := by
      rintro rfl
      rw [hg.1] at hc
      cases hc
    exact (Function.update_of_ne hu _ _).trans hc
  | env e => exact hc
  | exec u =>
    have hu := ha u rfl
    obtain ⟨d, hcu, -⟩ := call_of_guard hg
    rw [apply_exec hcu]
    exact (Function.update_of_ne hu.symm _ _).trans hc

/-- If each step of the thread reaches the goal or lowers its rank, a run with as many steps of
the thread as its rank passes through the goal. -/
theorem reaches (goal : Config τ σ γ → Prop) (K : γ → Prop) (rank : γ → ℕ)
    (hpos : ∀ c, K c → 0 < rank c)
    (hstep : ∀ c (s : Config τ σ γ), K c → s.call t = some c → P.enabled t c s.shared →
      goal (P.machine.apply (.exec t) s) ∨
        ∃ c', (P.step t c s.shared).2.call? = some c' ∧ K c' ∧ rank c' < rank c)
    {es : List (Action τ γ ε)} (hv : P.machine.Valid s es) (hc : s.call t = some c) (hK : K c)
    (hn : rank c ≤ steps t es) : ∃ fs, fs <+: es ∧ goal (P.machine.exec s fs) := by
  induction es generalizing s c with
  | nil =>
    have hc0 := hpos c hK
    simp only [steps] at hn
    omega
  | cons a es ih =>
    by_cases ha : ∀ u, a = .exec u → u ≠ t
    · have hsteps : steps t (a :: es) = steps t es := by
        cases a with
        | exec u => exact if_neg (ha u rfl)
        | _ => rfl
      obtain ⟨fs, hfs, hgoal⟩ := ih hv.2 (call_apply_of_ne hc hv.1 ha) hK (hsteps ▸ hn)
      exact ⟨a :: fs, List.cons_prefix_cons.mpr ⟨rfl, hfs⟩, hgoal⟩
    · push Not at ha
      obtain ⟨u, rfl, rfl⟩ := ha
      rcases hstep c s hK hc ((guard_exec hc).mp hv.1) with hgoal | ⟨c', hc', hK', hlt⟩
      · exact ⟨[.exec u], by simp, hgoal⟩
      · have hnext : (P.machine.apply (.exec u) s).call u = some c' := by
          rw [apply_exec hc, hc']
          exact Function.update_self ..
        have hrest : rank c' ≤ steps u es := by
          simp only [steps, if_true] at hn
          omega
        obtain ⟨fs, hfs, hgoal⟩ := ih hv.2 hnext hK' hrest
        exact ⟨.exec u :: fs, List.cons_prefix_cons.mpr ⟨rfl, hfs⟩, hgoal⟩

end Protocol
