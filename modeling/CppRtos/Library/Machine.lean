import Mathlib.Data.List.Induction
import Mathlib.Tactic.Common

/-! Guarded deterministic machines. A run is a list of events; every prefix of a
run is a run, so a property of all final states is a property of all states. -/

/-- An event may occur in a state its guard accepts and then has one outcome. -/
structure Machine (σ ε : Type*) where
  guard : ε → σ → Prop
  apply : ε → σ → σ

namespace Machine
variable {σ ε : Type*}

def exec (M : Machine σ ε) (s : σ) (es : List ε) : σ := es.foldl (fun s e => M.apply e s) s

/-- Every event of the list is accepted in the state it meets. -/
def Valid (M : Machine σ ε) : σ → List ε → Prop
  | _, [] => True
  | s, e :: es => M.guard e s ∧ M.Valid (M.apply e s) es

/-- The runs of a machine whose steps all meet a further condition. -/
def restrict (M : Machine σ ε) (cond : ε → σ → Prop) : Machine σ ε where
  guard e s := M.guard e s ∧ cond e s
  apply := M.apply

instance (M : Machine σ ε) [∀ e s, Decidable (M.guard e s)] :
    ∀ s es, Decidable (M.Valid s es)
  | _, [] => inferInstanceAs (Decidable True)
  | s, e :: es =>
    haveI := instDecidableValidOfGuard M (M.apply e s) es
    inferInstanceAs (Decidable (M.guard e s ∧ M.Valid (M.apply e s) es))

instance (M : Machine σ ε) (cond : ε → σ → Prop) [∀ e s, Decidable (M.guard e s)]
    [∀ e s, Decidable (cond e s)] : ∀ e s, Decidable ((M.restrict cond).guard e s) :=
  fun e s => inferInstanceAs (Decidable (M.guard e s ∧ cond e s))

@[simp] theorem exec_nil (M : Machine σ ε) (s : σ) : M.exec s [] = s := rfl

@[simp] theorem exec_cons (M : Machine σ ε) (s : σ) (e : ε) (es : List ε) :
    M.exec s (e :: es) = M.exec (M.apply e s) es := rfl

theorem exec_append (M : Machine σ ε) (s : σ) (es fs : List ε) :
    M.exec s (es ++ fs) = M.exec (M.exec s es) fs := List.foldl_append

theorem valid_append (M : Machine σ ε) (s : σ) (es fs : List ε) :
    M.Valid s (es ++ fs) ↔ M.Valid s es ∧ M.Valid (M.exec s es) fs := by
  induction es generalizing s with
  | nil => simp [Valid]
  | cons e es ih => simp [Valid, ih, and_assoc]

@[simp] theorem restrict_exec (M : Machine σ ε) (cond : ε → σ → Prop) (s : σ) (es : List ε) :
    (M.restrict cond).exec s es = M.exec s es := rfl

theorem Valid.imp {M : Machine σ ε} {cond cond' : ε → σ → Prop} {s : σ} {es : List ε}
    (h : (M.restrict cond).Valid s es) (hc : ∀ e s, cond e s → cond' e s) :
    (M.restrict cond').Valid s es := by
  induction es generalizing s with
  | nil => trivial
  | cons e es ih => exact ⟨⟨h.1.1, hc e s h.1.2⟩, ih h.2⟩

theorem valid_restrict_true (M : Machine σ ε) (s : σ) (es : List ε) :
    (M.restrict fun _ _ => True).Valid s es ↔ M.Valid s es := by
  induction es generalizing s with
  | nil => exact Iff.rfl
  | cons e es ih => exact and_congr (and_iff_left trivial) (ih _)

/-- What holds at the start and is preserved by every accepted event holds in
every state of every run. -/
theorem invariant {M : Machine σ ε} {I : σ → Prop}
    (step : ∀ e s, I s → M.guard e s → I (M.apply e s)) {s : σ} {es : List ε}
    (h0 : I s) (h : M.Valid s es) : I (M.exec s es) := by
  induction es generalizing s with
  | nil => exact h0
  | cons e es ih => exact ih (step e s h0 h.1) h.2

/-- In the proof of an invariant, what is known of every state of every run may be used. -/
theorem invariant_of_reached {M : Machine σ ε} {I J : σ → Prop} {s : σ}
    (reached : ∀ es, M.Valid s es → J (M.exec s es))
    (step : ∀ e s, J s → I s → M.guard e s → I (M.apply e s)) {es : List ε} (h0 : I s)
    (h : M.Valid s es) : I (M.exec s es) := by
  induction es using List.reverseRecOn with
  | nil => exact h0
  | append_singleton es e ih =>
    obtain ⟨hes, hg, -⟩ := (M.valid_append _ _ _).mp h
    rw [exec_append]
    exact step e _ (reached es hes) (ih hes) hg

theorem valid_prefix {M : Machine σ ε} {s : σ} {es fs : List ε} (h : M.Valid s es)
    (hfs : fs <+: es) : M.Valid s fs := by
  obtain ⟨gs, rfl⟩ := hfs
  exact ((M.valid_append s fs gs).mp h).1

/-- Where a property is kept by exactly the events that meet `cond`, it holds in all states
of a run exactly if all its events meet `cond`. `I` is an invariant as long as it holds. -/
theorem forall_prefix_iff {M : Machine σ ε} {I P : σ → Prop} {cond : ε → σ → Prop}
    (hI : ∀ e s, I s → P s → M.guard e s → P (M.apply e s) → I (M.apply e s))
    (step : ∀ e s, I s → P s → M.guard e s → (P (M.apply e s) ↔ cond e s))
    {s : σ} {es : List ε} (h0 : I s) (hP : P s) (h : M.Valid s es) :
    (∀ fs, fs <+: es → P (M.exec s fs)) ↔ (M.restrict cond).Valid s es := by
  induction es generalizing s with
  | nil =>
    refine ⟨fun _ => trivial, fun _ fs hfs => ?_⟩
    rwa [List.prefix_nil.mp hfs]
  | cons e es ih =>
    have hstep := step e s h0 hP h.1
    constructor
    · intro hall
      have hnext : P (M.apply e s) := hall [e] (by simp)
      refine ⟨⟨h.1, hstep.mp hnext⟩, (ih (hI e s h0 hP h.1 hnext) hnext h.2).mp fun fs hfs => ?_⟩
      exact hall (e :: fs) (List.cons_prefix_cons.mpr ⟨rfl, hfs⟩)
    · rintro ⟨⟨-, hc⟩, hv⟩ fs hfs
      have hnext := hstep.mpr hc
      cases fs with
      | nil => exact hP
      | cons e' fs =>
        obtain ⟨rfl, htail⟩ := List.cons_prefix_cons.mp hfs
        exact (ih (hI e' s h0 hP h.1 hnext) hnext h.2).mpr hv fs htail

/-- The same, with what is known of every state of every run in place of an invariant. -/
theorem forall_prefix_iff_of_reached {M : Machine σ ε} {J P : σ → Prop} {cond : ε → σ → Prop}
    {s : σ} (reached : ∀ es, M.Valid s es → J (M.exec s es))
    (step : ∀ e s, J s → P s → M.guard e s → (P (M.apply e s) ↔ cond e s)) {es : List ε}
    (hP : P s) (h : M.Valid s es) :
    (∀ fs, fs <+: es → P (M.exec s fs)) ↔ (M.restrict cond).Valid s es := by
  induction es using List.reverseRecOn with
  | nil => exact ⟨fun _ => trivial, fun _ fs hfs => List.prefix_nil.mp hfs ▸ hP⟩
  | append_singleton es e ih =>
    obtain ⟨hes, hg, -⟩ := (M.valid_append _ _ _).mp h
    rw [valid_append, ← ih hes]
    have hlast : P (M.exec s es) → (P (M.exec s (es ++ [e])) ↔ cond e (M.exec s es)) := by
      intro hbefore
      rw [exec_append]
      exact step e _ (reached es hes) hbefore hg
    constructor
    · intro hall
      have hbefore := hall es (List.prefix_append es [e])
      refine ⟨fun fs hfs => hall fs (hfs.trans (List.prefix_append es [e])), ⟨hg, ?_⟩, trivial⟩
      exact (hlast hbefore).mp (hall _ List.prefix_rfl)
    · rintro ⟨hall, ⟨-, hc⟩, -⟩ fs hfs
      rcases List.prefix_concat_iff.mp hfs with rfl | hfs
      · exact (hlast (hall es List.prefix_rfl)).mpr hc
      · exact hall fs hfs

theorem valid_restrict_restrict (M : Machine σ ε) (cond cond' : ε → σ → Prop) (s : σ)
    (es : List ε) : ((M.restrict cond).restrict cond').Valid s es ↔
      (M.restrict cond).Valid s es ∧ (M.restrict cond').Valid s es := by
  induction es generalizing s with
  | nil => simp [Valid]
  | cons e es ih =>
    have htail := ih (M.apply e s)
    unfold Valid
    constructor
    · rintro ⟨⟨⟨hg, hc⟩, hc'⟩, hv⟩
      exact ⟨⟨⟨hg, hc⟩, (htail.mp hv).1⟩, ⟨hg, hc'⟩, (htail.mp hv).2⟩
    · rintro ⟨⟨⟨hg, hc⟩, hv⟩, ⟨-, hc'⟩, hv'⟩
      exact ⟨⟨⟨hg, hc⟩, hc'⟩, htail.mpr ⟨hv, hv'⟩⟩

/-! ## Histories -/
section
variable {η : Type*}

/-- The machine beside a history of its run. `observe` is given the states before and after
the event; nothing depends on the history. -/
def withHistory (M : Machine σ ε) (observe : ε → σ → σ → η → η) : Machine (σ × η) ε where
  guard e s := M.guard e s.1
  apply e s := (M.apply e s.1, observe e s.1 (M.apply e s.1) s.2)

variable (M : Machine σ ε) (observe : ε → σ → σ → η → η)

instance [∀ e s, Decidable (M.guard e s)] : ∀ e s, Decidable ((M.withHistory observe).guard e s) :=
  fun e s => inferInstanceAs (Decidable (M.guard e s.1))

theorem exec_withHistory_fst (s : σ × η) (es : List ε) :
    ((M.withHistory observe).exec s es).1 = M.exec s.1 es := by
  induction es generalizing s with
  | nil => rfl
  | cons e es ih => exact ih _

theorem valid_withHistory (s : σ × η) (es : List ε) :
    (M.withHistory observe).Valid s es ↔ M.Valid s.1 es := by
  induction es generalizing s with
  | nil => exact Iff.rfl
  | cons e es ih => exact and_congr Iff.rfl (ih _)

end

end Machine
