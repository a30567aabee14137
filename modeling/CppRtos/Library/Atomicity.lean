import CppRtos.Library.Interleaving
import Mathlib.Logic.Relation

/-! Calls in small steps that behave as calls in large steps. A fine call takes effect in one of
its steps; there the coarse call makes its step, and it may return while the fine call still has
something to clean up. What the fine call returns later is what the coarse one has returned. -/

namespace Outcome
variable {γ γ' ρ : Type*}

def result? : Outcome γ ρ → Option ρ
  | .next _ => none
  | .ret r => some r

/-- The outcome in terms of other calls. -/
def bind (view : γ → Outcome γ' ρ) : Outcome γ ρ → Outcome γ' ρ
  | .next c => view c
  | .ret r => .ret r

end Outcome

namespace Protocol
variable {τ σ γ ρ ε σ' γ' ε' : Type*} [DecidableEq τ]

section
variable (P : Protocol τ σ γ ρ ε)

/-- What an event returns to thread `t`. -/
def returned (t : τ) : Action τ γ ε → Config τ σ γ → Option ρ
  | .exec u, s => if u = t then (s.call u).bind fun c => (P.step u c s.shared).2.result? else none
  | _, _ => none

/-- The results of the calls of thread `t` along a run. -/
def results (t : τ) : Config τ σ γ → List (Action τ γ ε) → List ρ
  | _, [] => []
  | s, a :: es => (P.returned t a s).toList ++ results t (P.machine.apply a s) es

theorem results_append (t : τ) (s : Config τ σ γ) (es fs : List (Action τ γ ε)) :
    P.results t s (es ++ fs) = P.results t s es ++ P.results t (P.machine.exec s es) fs := by
  induction es generalizing s with
  | nil => rfl
  | cons a es ih => simp only [List.cons_append, results, ih, List.append_assoc,
      Machine.exec_cons]

/-- What interference can make of the shared state. -/
def Drifts : σ → σ → Prop :=
  Relation.ReflTransGen fun s s' => ∃ e, P.interferes e s ∧ P.interfere e s = s'

variable {P}

/-- Interference is a run in which nothing is returned. -/
theorem Drifts.run {s s' : σ} (h : P.Drifts s s') (call : τ → Option γ) :
    ∃ es, P.machine.Valid ⟨s, call⟩ es ∧ P.machine.exec ⟨s, call⟩ es = ⟨s', call⟩ ∧
      ∀ t, P.results t ⟨s, call⟩ es = [] := by
  induction h with
  | refl => exact ⟨[], trivial, rfl, fun _ => rfl⟩
  | tail _ hstep ih =>
    obtain ⟨es, hv, hexec, hres⟩ := ih
    obtain ⟨e, he, rfl⟩ := hstep
    refine ⟨es ++ [.env e], (Machine.valid_append _ _ _ _).mpr ⟨hv, ?_⟩, ?_, fun t => ?_⟩
    · rw [hexec]
      exact ⟨he, trivial⟩
    · rw [Machine.exec_append, hexec]
      rfl
    · rw [results_append, hres, hexec]
      rfl

end

/-- The step is not seen from outside. -/
def Silent (P : Protocol τ σ γ ρ ε) (Q : Protocol τ σ' γ' ρ ε') (R : Config τ σ γ → σ' → Prop)
    (view : γ → Outcome γ' ρ) (t : τ) (c : γ) (s : Config τ σ γ) (s' : σ') : Prop :=
  (P.step t c s.shared).2.bind view = view c ∧
    ∃ s'', Q.Drifts s' s'' ∧ R (P.machine.apply (.exec t) s) s''

/-- The coarse call makes its step here. -/
def Effective (P : Protocol τ σ γ ρ ε) (Q : Protocol τ σ' γ' ρ ε') (R : Config τ σ γ → σ' → Prop)
    (view : γ → Outcome γ' ρ) (t : τ) (c : γ) (s : Config τ σ γ) (s' : σ') : Prop :=
  ∃ d s'', view c = .next d ∧ Q.Drifts s' s'' ∧ Q.enabled t d s'' ∧
    (P.step t c s.shared).2.bind view = (Q.step t d s'').2 ∧
    R (P.machine.apply (.exec t) s) (Q.step t d s'').1

/-- `R` relates the states of the fine protocol `P` to the shared states of the coarse protocol
`Q`. `view` is what the coarse protocol sees of a fine call: a call of its own, or the result
that it has returned already. -/
structure Refines (P : Protocol τ σ γ ρ ε) (Q : Protocol τ σ' γ' ρ ε')
    (R : Config τ σ γ → σ' → Prop) (view : γ → Outcome γ' ρ) : Prop where
  entry : ∀ t c s s', R s s' → s.call t = none → P.entry t c s.shared → ∃ d s'',
    view c = .next d ∧ Q.Drifts s' s'' ∧ Q.entry t d s'' ∧ R (P.machine.apply (.invoke t c) s) s''
  step : ∀ t c s s', R s s' → s.call t = some c → P.enabled t c s.shared →
    P.Silent Q R view t c s s' ∨ P.Effective Q R view t c s s'
  env : ∀ e s s', R s s' → P.interferes e s.shared →
    ∃ s'', Q.Drifts s' s'' ∧ R (P.machine.apply (.env e) s) s''

/-- A fine state and the coarse state that it stands for. -/
structure Represents (R : Config τ σ γ → σ' → Prop) (view : γ → Outcome γ' ρ)
    (s : Config τ σ γ) (s' : Config τ σ' γ') : Prop where
  shared : R s s'.shared
  call : ∀ t, s'.call t = (s.call t).bind fun c => (view c).call?

/-- The result that the coarse call of the thread has returned and the fine one has not. -/
def pending (view : γ → Outcome γ' ρ) (t : τ) (s : Config τ σ γ) : List ρ :=
  ((s.call t).bind fun c => (view c).result?).toList

/-! ## One step -/

section
variable {P : Protocol τ σ γ ρ ε} {view : γ → Outcome γ' ρ} {s : Config τ σ γ} {v : τ} {c : γ}
  (hc : s.call v = some c)
include hc

theorem returned_exec (t : τ) : P.returned t (.exec v) s =
    if v = t then (P.step v c s.shared).2.result? else none := by
  simp only [returned, hc, Option.bind_some]

theorem call_exec (u : τ) :
    ((P.machine.apply (.exec v) s).call u).bind (fun c => (view c).call?) =
      if u = v then ((P.step v c s.shared).2.bind view).call?
      else (s.call u).bind fun c => (view c).call? := by
  rw [apply_exec hc]
  by_cases hu : u = v
  · subst hu
    simp only [Function.update_self, if_true]
    cases (P.step u c s.shared).2 <;> rfl
  · simp only [Function.update_of_ne hu, if_neg hu]

theorem pending_exec (t : τ) : (P.returned t (.exec v) s).toList ++
    pending view t (P.machine.apply (.exec v) s) =
      if t = v then ((P.step v c s.shared).2.bind view).result?.toList else pending view t s := by
  rw [returned_exec hc, apply_exec hc]
  by_cases ht : t = v
  · subst ht
    simp only [pending, Function.update_self, if_true]
    cases (P.step t c s.shared).2 <;> rfl
  · simp only [pending, Function.update_of_ne ht, if_neg ht, if_neg (Ne.symm ht)]
    rfl

end

/-- The coarse protocol follows an event of the fine one: every thread gets the same results. -/
def Follows (P : Protocol τ σ γ ρ ε) (Q : Protocol τ σ' γ' ρ ε') (R : Config τ σ γ → σ' → Prop)
    (view : γ → Outcome γ' ρ) (a : Action τ γ ε) (s : Config τ σ γ) (s' : Config τ σ' γ') : Prop :=
  ∃ es, Q.machine.Valid s' es ∧
    Represents R view (P.machine.apply a s) (Q.machine.exec s' es) ∧
    ∀ t, pending view t s ++ Q.results t s' es =
      (P.returned t a s).toList ++ pending view t (P.machine.apply a s)

section
variable {P : Protocol τ σ γ ρ ε} {Q : Protocol τ σ' γ' ρ ε'} {R : Config τ σ γ → σ' → Prop}
  {view : γ → Outcome γ' ρ} {s : Config τ σ γ} {s' : Config τ σ' γ'} {v : τ} {c : γ}

theorem follows_invoke {d : γ'} {s'' : σ'} (hm : Represents R view s s') (hidle : s.call v = none)
    (hview : view c = .next d) (hd : Q.Drifts s'.shared s'') (hentry : Q.entry v d s'')
    (hR : R (P.machine.apply (.invoke v c) s) s'') : Follows P Q R view (.invoke v c) s s' := by
  obtain ⟨es, hv, hexec, hres⟩ := hd.run s'.call
  have hidle' : s'.call v = none := (hm.call v).trans (by rw [hidle]; rfl)
  refine ⟨es ++ [.invoke v d], (Machine.valid_append _ _ _ _).mpr ⟨hv, ?_⟩, ?_, fun t => ?_⟩
  · rw [hexec]
    exact ⟨⟨hidle', hentry⟩, trivial⟩
  · rw [Machine.exec_append, hexec]
    refine ⟨hR, fun u => ?_⟩
    change Function.update s'.call v (some d) u =
      (Function.update s.call v (some c) u).bind fun c => (view c).call?
    by_cases hu : u = v
    · subst hu
      rw [Function.update_self, Function.update_self]
      exact (congrArg Outcome.call? hview).symm
    · rw [Function.update_of_ne hu, Function.update_of_ne hu]
      exact hm.call u
  · rw [results_append, hres, hexec]
    change pending view t s ++ [] = [] ++
      ((Function.update s.call v (some c) t).bind fun c => (view c).result?).toList
    rw [List.append_nil, List.nil_append, pending]
    by_cases ht : t = v
    · subst ht
      rw [Function.update_self, hidle, Option.bind_some, hview]
      rfl
    · rw [Function.update_of_ne ht]

/-- The coarse call stays where it is, or has returned before. -/
theorem Silent.follows (h : P.Silent Q R view v c s s'.shared) (hm : Represents R view s s')
    (hc : s.call v = some c) : Follows P Q R view (.exec v) s s' := by
  obtain ⟨hsame, s'', hd, hR⟩ := h
  obtain ⟨es, hv, hexec, hres⟩ := hd.run s'.call
  have hcv : s'.call v = (view c).call? := (hm.call v).trans (by rw [hc]; rfl)
  refine ⟨es, hv, ?_, fun t => ?_⟩
  · rw [hexec]
    refine ⟨hR, fun u => ?_⟩
    rw [call_exec hc, hsame]
    split_ifs with hu
    · rw [hu]
      exact hcv
    · exact hm.call u
  · rw [pending_exec hc, hres, List.append_nil, hsame]
    split_ifs with ht
    · rw [ht, pending, hc]
      rfl
    · rfl

theorem Effective.follows (h : P.Effective Q R view v c s s'.shared)
    (hm : Represents R view s s') (hc : s.call v = some c) :
    Follows P Q R view (.exec v) s s' := by
  obtain ⟨d, s'', hview, hd, hen, hout, hR⟩ := h
  obtain ⟨es, hv, hexec, hres⟩ := hd.run s'.call
  have hcd : (⟨s'', s'.call⟩ : Config τ σ' γ').call v = some d :=
    (hm.call v).trans (by rw [hc, Option.bind_some, hview]; rfl)
  refine ⟨es ++ [.exec v], (Machine.valid_append _ _ _ _).mpr ⟨hv, ?_⟩, ?_, fun t => ?_⟩
  · rw [hexec]
    exact ⟨(guard_exec hcd).mpr hen, trivial⟩
  · rw [Machine.exec_append, hexec, Machine.exec_cons, Machine.exec_nil, apply_exec hcd]
    refine ⟨hR, fun u => ?_⟩
    rw [call_exec hc, hout]
    by_cases hu : u = v
    · subst hu
      simp only [Function.update_self, if_true]
    · simp only [Function.update_of_ne hu, if_neg hu]
      exact hm.call u
  · rw [pending_exec hc, hout, results_append, hres, hexec, List.nil_append]
    simp only [results, List.append_nil, returned_exec hcd]
    by_cases ht : t = v
    · subst ht
      simp only [if_true, pending, hc, Option.bind_some, hview]
      rfl
    · simp only [if_neg ht, if_neg (Ne.symm ht)]
      exact List.append_nil _

end

namespace Refines
variable {P : Protocol τ σ γ ρ ε} {Q : Protocol τ σ' γ' ρ ε'} {R : Config τ σ γ → σ' → Prop}
  {view : γ → Outcome γ' ρ} (h : Refines P Q R view) {s : Config τ σ γ} {s' : Config τ σ' γ'}
include h

/-- An event of the fine protocol is at most one event of a thread of the coarse one. -/
theorem apply {a : Action τ γ ε} (hm : Represents R view s s') (hg : P.machine.guard a s) :
    Follows P Q R view a s s' := by
  cases a with
  | env e =>
    obtain ⟨s'', hd, hR⟩ := h.env e s _ hm.shared hg
    obtain ⟨es, hv, hexec, hres⟩ := hd.run s'.call
    refine ⟨es, hv, ?_, fun t => ?_⟩
    · rw [hexec]
      exact ⟨hR, hm.call⟩
    · rw [hres, List.append_nil]
      rfl
  | invoke v c =>
    obtain ⟨d, s'', hview, hd, hentry, hR⟩ := h.entry v c s _ hm.shared hg.1 hg.2
    exact follows_invoke hm hg.1 hview hd hentry hR
  | exec v =>
    obtain ⟨c, hc, hen⟩ := call_of_guard hg
    obtain hsilent | heffective := h.step v c s _ hm.shared hc hen
    · exact hsilent.follows hm hc
    · exact heffective.follows hm hc

/-- Every run of the fine protocol is a run of the coarse one in which every thread gets the same
results, in the same order; the last result of a thread may still be on its way. -/
theorem run {es : List (Action τ γ ε)} (hm : Represents R view s s') (hv : P.machine.Valid s es) :
    ∃ es', Q.machine.Valid s' es' ∧
      Represents R view (P.machine.exec s es) (Q.machine.exec s' es') ∧
      ∀ t, pending view t s ++ Q.results t s' es' =
        P.results t s es ++ pending view t (P.machine.exec s es) := by
  induction es generalizing s s' with
  | nil => exact ⟨[], trivial, hm, fun t => List.append_nil _⟩
  | cons a es ih =>
    obtain ⟨fs, hfs, hnext, hres⟩ := h.apply hm hv.1
    obtain ⟨gs, hgs, hlast, hrest⟩ := ih hnext hv.2
    refine ⟨fs ++ gs, (Machine.valid_append _ _ _ _).mpr ⟨hfs, hgs⟩, ?_, fun t => ?_⟩
    · rw [Machine.exec_append]
      exact hlast
    · rw [results_append, ← List.append_assoc, hres, List.append_assoc, hrest]
      simp only [results, Machine.exec_cons, List.append_assoc]

end Refines

end Protocol
