import Mathlib.Data.Set.Finite.Basic
import Mathlib.Logic.Relation
import Mathlib.Order.Preorder.Finite

/-! Processes that ask for resources held by other processes. A ranking of the resources that
all requests follow excludes cycles, and a cycle whose members only wait is there to stay. -/

/-- The resource each process waits for, and the process that holds each resource. -/
structure WaitGraph (τ μ : Type*) where
  wants : τ → Option μ
  owner : μ → Option τ

namespace WaitGraph
variable {τ μ κ : Type*} {g g' : WaitGraph τ μ}

def WaitsFor (g : WaitGraph τ μ) (t u : τ) : Prop :=
  ∃ m, g.wants t = some m ∧ g.owner m = some u

/-- Every member of the set waits for a member of the set. -/
structure Deadlocked (g : WaitGraph τ μ) (T : Set τ) : Prop where
  nonempty : T.Nonempty
  waits : ∀ t ∈ T, ∃ u ∈ T, g.WaitsFor t u

/-- A process waits only for resources that rank above all those it holds. -/
def Ranked [LT κ] (rank : μ → κ) (g : WaitGraph τ μ) : Prop :=
  ∀ t m m', g.wants t = some m → g.owner m' = some t → rank m' < rank m

section
variable [Preorder κ] {rank : μ → κ} (h : g.Ranked rank)
include h

theorem Ranked.chain {t u : τ} (hc : Relation.TransGen g.WaitsFor t u) :
    ∃ m m', g.wants t = some m ∧ g.owner m' = some u ∧ rank m ≤ rank m' := by
  induction hc with
  | single hw =>
    obtain ⟨m, hwants, howner⟩ := hw
    exact ⟨m, m, hwants, howner, le_rfl⟩
  | tail _ hw ih =>
    obtain ⟨m, m', hwants, howner, hle⟩ := ih
    obtain ⟨m'', hwants', howner'⟩ := hw
    have hlt := h _ m'' m' hwants' howner
    exact ⟨m, m'', hwants, howner', hle.trans hlt.le⟩

/-- No process waits for itself, through any number of others. -/
theorem Ranked.acyclic (t : τ) : ¬ Relation.TransGen g.WaitsFor t t := by
  intro hc
  obtain ⟨m, m', hwants, howner, hle⟩ := h.chain hc
  exact absurd (h t m m' hwants howner) hle.not_gt

/-- In a finite set some process waits for none of the others: one that waits for a resource of
maximal rank. -/
theorem Ranked.not_deadlocked {T : Set τ} (hT : T.Finite) : ¬ g.Deadlocked T := by
  intro hd
  obtain ⟨s, hs⟩ := hd.nonempty
  obtain ⟨-, -, n, -⟩ := hd.waits s hs
  have := Nonempty.intro n
  have := Nonempty.intro s
  choose! next hnext m hwants howner using hd.waits
  obtain ⟨t, ht, hmax⟩ := hT.exists_maximalFor (fun t => rank (m t)) T hd.nonempty
  have hlt : rank (m t) < rank (m (next t)) :=
    h (next t) _ _ (hwants _ (hnext t ht)) (howner t ht)
  exact absurd (hmax (hnext t ht) hlt.le) hlt.not_ge

end

/-- A set stays deadlocked while its members go on waiting and keep what they hold. -/
theorem Deadlocked.stable {T : Set τ} (h : g.Deadlocked T)
    (hwants : ∀ t ∈ T, g'.wants t = g.wants t)
    (howner : ∀ m, ∀ t ∈ T, g.owner m = some t → g'.owner m = some t) : g'.Deadlocked T := by
  refine ⟨h.nonempty, fun t ht => ?_⟩
  obtain ⟨u, hu, m, hm, ho⟩ := h.waits t ht
  exact ⟨u, hu, m, (hwants t ht).trans hm, howner m u hu ho⟩

end WaitGraph
