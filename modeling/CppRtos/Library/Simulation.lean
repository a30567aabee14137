import CppRtos.Library.Interleaving

/-! Runs of one machine as runs of another, where an event stands for a list of events, and
relations between configurations that the steps of a protocol keep. -/

namespace Machine
variable {σ σ' ε ε' : Type*}

/-- The events of another machine that a run stands for. -/
def images (M : Machine σ ε) (image : ε → σ → List ε') : σ → List ε → List ε'
  | _, [] => []
  | s, e :: es => image e s ++ images M image (M.apply e s) es

/-- Every event is answered by the events that it stands for, by none at all if it only changes
what the other machine does not have. -/
theorem simulates {M : Machine σ ε} {N : Machine σ' ε'} {R : σ → σ' → Prop}
    {image : ε → σ → List ε'}
    (step : ∀ e s t, R s t → M.guard e s →
      N.Valid t (image e s) ∧ R (M.apply e s) (N.exec t (image e s)))
    {s : σ} {t : σ'} {es : List ε} (h0 : R s t) (h : M.Valid s es) :
    N.Valid t (M.images image s es) ∧ R (M.exec s es) (N.exec t (M.images image s es)) := by
  induction es generalizing s t with
  | nil => exact ⟨trivial, h0⟩
  | cons e es ih =>
    obtain ⟨hvalid, hnext⟩ := step e s t h0 h.1
    obtain ⟨hrest, hlast⟩ := ih hnext h.2
    have hexec : N.exec t (M.images image s (e :: es)) =
        N.exec (N.exec t (image e s)) (M.images image (M.apply e s) es) := N.exec_append _ _ _
    rw [hexec]
    exact ⟨(N.valid_append _ _ _).mpr ⟨hvalid, hrest⟩, hlast⟩

end Machine

namespace Protocol
variable {τ σ γ ρ ε : Type*} [DecidableEq τ]

/-- Related shared states allow the same steps, which return the same and stay related. Only the
interference in `E` counts. -/
structure Respects (P : Protocol τ σ γ ρ ε) (E : ε → Prop) (R : σ → σ → Prop) : Prop where
  entry : ∀ {t c s s'}, R s s' → P.entry t c s → P.entry t c s'
  enabled : ∀ {t c s s'}, R s s' → P.enabled t c s → P.enabled t c s'
  interferes : ∀ {e s s'}, E e → R s s' → P.interferes e s → P.interferes e s'
  step : ∀ {t c s s'}, R s s' → R (P.step t c s).1 (P.step t c s').1
  outcome : ∀ {t c s s'}, R s s' → (P.step t c s).2 = (P.step t c s').2
  interfere : ∀ {e s s'}, E e → R s s' → R (P.interfere e s) (P.interfere e s')

/-- The threads are at the same points of their calls, on related shared states. -/
structure Related (R : σ → σ → Prop) (s s' : Config τ σ γ) : Prop where
  shared : R s.shared s'.shared
  call : s.call = s'.call

/-- The step of a thread, or interference in `E`. -/
def Action.IsIn (E : ε → Prop) : Action τ γ ε → Prop
  | .env e => E e
  | .invoke _ _ | .exec _ => True

instance (E : ε → Prop) [DecidablePred E] : DecidablePred (Action.IsIn (τ := τ) (γ := γ) E)
  | .env e => inferInstanceAs (Decidable (E e))
  | .invoke _ _ | .exec _ => inferInstanceAs (Decidable True)

variable {P : Protocol τ σ γ ρ ε} {E : ε → Prop} {R : σ → σ → Prop} {s s' : Config τ σ γ}
  {a : Action τ γ ε}

theorem Respects.guard (h : P.Respects E R) (ha : a.IsIn E) (hs : Related R s s')
    (hg : P.machine.guard a s) : P.machine.guard a s' := by
  cases a with
  | invoke t c => exact ⟨hs.call ▸ hg.1, h.entry hs.shared hg.2⟩
  | env e => exact h.interferes ha hs.shared hg
  | exec t =>
    have hpending : P.Pending t (s.call t) s.shared := hg
    have hgoal : P.machine.guard (.exec t) s' = P.Pending t (s.call t) s'.shared := by
      rw [hs.call]
      rfl
    rw [hgoal]
    cases hc : s.call t with
    | none => simp [Pending, hc] at hpending
    | some c =>
      rw [hc] at hpending
      exact h.enabled hs.shared hpending

theorem Respects.apply (h : P.Respects E R) (ha : a.IsIn E) (hs : Related R s s') :
    Related R (P.machine.apply a s) (P.machine.apply a s') := by
  cases a with
  | invoke t c => exact ⟨hs.shared, by simp only [machine, Protocol.apply, hs.call]⟩
  | env e => exact ⟨h.interfere ha hs.shared, hs.call⟩
  | exec t =>
    have hcall := congrFun hs.call t
    cases hc : s.call t with
    | none =>
      rw [hc] at hcall
      simp only [machine, Protocol.apply, hc, ← hcall]
      exact hs
    | some c =>
      rw [hc] at hcall
      simp only [machine, Protocol.apply, hc, ← hcall]
      exact ⟨h.step hs.shared, by rw [hs.call, h.outcome hs.shared]⟩

end Protocol
