import CppRtos.Library.Interleaving

/-! A protocol seen from one of its parts. The calls of the other parts and the environment
count as interference with the part, so that every run of the whole is a run of the part. -/
namespace Protocol
variable {τ σ γ ρ ε σ' γ' ρ' ε' : Type*} [DecidableEq τ]

/-- `Q` describes a part of `P`. `R` relates the shared states and `part` maps the calls; calls
of other parts have no image. `I` is an invariant of `P`. -/
structure Projects (P : Protocol τ σ γ ρ ε) (Q : Protocol τ σ' γ' ρ' ε')
    (I : Config τ σ γ → Prop) (R : σ → σ' → Prop) (part : γ → Option γ') : Prop where
  entry : ∀ t c d s s', R s s' → part c = some d → P.entry t c s → Q.entry t d s'
  step : ∀ t c d (s : Config τ σ γ) s', I s → s.call t = some c → part c = some d →
    R s.shared s' → P.enabled t c s.shared → Q.enabled t d s' ∧
      R (P.step t c s.shared).1 (Q.step t d s').1 ∧
      (P.step t c s.shared).2.call?.bind part = (Q.step t d s').2.call?
  other : ∀ t c (s : Config τ σ γ) s', I s → s.call t = some c → part c = none →
    R s.shared s' → P.enabled t c s.shared →
      (P.step t c s.shared).2.call?.bind part = none ∧
      ∃ e, Q.interferes e s' ∧ R (P.step t c s.shared).1 (Q.interfere e s')
  env : ∀ e (s : Config τ σ γ) s', I s → R s.shared s' → P.interferes e s.shared →
    ∃ e', Q.interferes e' s' ∧ R (P.interfere e s.shared) (Q.interfere e' s')

/-- A state of the whole and the state of the part that it stands for. -/
structure Matches (R : σ → σ' → Prop) (part : γ → Option γ') (s : Config τ σ γ)
    (s' : Config τ σ' γ') : Prop where
  shared : R s.shared s'.shared
  call : ∀ t, s'.call t = (s.call t).bind part

namespace Projects
variable {P : Protocol τ σ γ ρ ε} {Q : Protocol τ σ' γ' ρ' ε'} {I : Config τ σ γ → Prop}
  {R : σ → σ' → Prop} {part : γ → Option γ'} (h : Projects P Q I R part)
  {s : Config τ σ γ} {s' : Config τ σ' γ'}
include h

/-- An event of the whole is at most one event of the part. -/
theorem apply {a : Action τ γ ε} (hI : I s) (hm : Matches R part s s')
    (hg : P.machine.guard a s) : ∃ es, Q.machine.Valid s' es ∧
      Matches R part (P.machine.apply a s) (Q.machine.exec s' es) := by
  cases a with
  | invoke t c =>
    have hupdate : ∀ u, Function.update s'.call t (part c) u =
        (Function.update s.call t (some c) u).bind part := by
      intro u
      by_cases hu : u = t
      · subst u
        simp
      · simpa [hu] using hm.call u
    cases hc : part c with
    | none =>
      refine ⟨[], trivial, hm.shared, fun u => ?_⟩
      rw [hc, Function.update_eq_self_iff.mpr] at hupdate
      · exact hupdate u
      · rw [hm.call t, hg.1]
        rfl
    | some d =>
      rw [hc] at hupdate
      have hidle : s'.call t = none := by
        rw [hm.call t, hg.1]
        rfl
      have hentry := h.entry t c d _ _ hm.shared hc hg.2
      exact ⟨[.invoke t d], ⟨⟨hidle, hentry⟩, trivial⟩, hm.shared, hupdate⟩
  | exec t =>
    obtain ⟨c, hcall, hen⟩ := call_of_guard hg
    rw [apply_exec hcall]
    cases hc : part c with
    | none =>
      obtain ⟨hret, e, he, hR⟩ := h.other t c s s'.shared hI hcall hc hm.shared hen
      refine ⟨[.env e], ⟨he, trivial⟩, hR, fun u => ?_⟩
      change s'.call u = (Function.update s.call t (P.step t c s.shared).2.call? u).bind part
      by_cases hu : u = t
      · subst u
        rw [Function.update_self, hret, hm.call, hcall]
        exact hc
      · rw [Function.update_of_ne hu]
        exact hm.call u
    | some d =>
      obtain ⟨hen', hR, hnext⟩ := h.step t c d s s'.shared hI hcall hc hm.shared hen
      have hcall' : s'.call t = some d := by
        rw [hm.call t, hcall]
        exact hc
      refine ⟨[.exec t], ⟨(guard_exec hcall').mpr hen', trivial⟩, ?_⟩
      rw [Machine.exec_cons, Machine.exec_nil, apply_exec hcall']
      refine ⟨hR, fun u => ?_⟩
      by_cases hu : u = t
      · subst u
        simpa using hnext.symm
      · simpa [hu] using hm.call u
  | env e =>
    obtain ⟨e', he', hR⟩ := h.env e s s'.shared hI hm.shared hg
    exact ⟨[.env e'], ⟨he', trivial⟩, hR, hm.call⟩

/-- A run of the whole is a run of the part. -/
theorem run (hI : ∀ a s, I s → P.machine.guard a s → I (P.machine.apply a s))
    {es : List (Action τ γ ε)} (h0 : I s) (hm : Matches R part s s') (hv : P.machine.Valid s es) :
    ∃ es', Q.machine.Valid s' es' ∧
      Matches R part (P.machine.exec s es) (Q.machine.exec s' es') := by
  induction es generalizing s s' with
  | nil => exact ⟨[], trivial, hm⟩
  | cons a es ih =>
    obtain ⟨fs, hfs, hnext⟩ := h.apply h0 hm hv.1
    obtain ⟨gs, hgs, hlast⟩ := ih (hI a s h0 hv.1) hnext hv.2
    refine ⟨fs ++ gs, (Machine.valid_append _ _ _ _).mpr ⟨hfs, hgs⟩, ?_⟩
    rw [Machine.exec_append]
    exact hlast

end Projects

end Protocol
