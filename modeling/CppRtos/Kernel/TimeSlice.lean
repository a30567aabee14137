import CppRtos.Kernel.Agreement
import Mathlib.Data.Finset.Card
import Mathlib.Order.Interval.Finset.Nat

/-! Time slicing among ready tasks of equal priority. The scheduler keeps no rotation
pointer: it takes the task with the lowest id among those that are not running. -/
namespace CppRtos.Kernel

/-- The tasks made current by `n` consecutive calls of `selectHighestPriorityTask`. -/
def visits : ℕ → Kernel → List TaskPtr
  | 0, _ => []
  | n + 1, k => k.selectHighestPriorityTask.currentTask :: visits n k.selectHighestPriorityTask

theorem length_visits (n : ℕ) (k : Kernel) : (visits n k).length = n := by
  induction n generalizing k with
  | zero => rfl
  | succ n ih => rw [visits, List.length_cons, ih]

/-- The tasks `T` are ready and of one priority above the idle level, and no other
application task is ready. -/
structure EqualGroup (k : Kernel) (T : Finset TaskPtr) (prio : TaskPriority) : Prop where
  aboveIdle : prio > .idle
  registered : ∀ t ∈ T, k.Registered t
  priority : ∀ t ∈ T, k.getPriority t = prio
  ready : ∀ t ∈ T, k.getState t = .eReady
  others : ∀ t, k.Registered t → k.AboveIdle t → k.getState t = .eReady → t ∈ T

theorem Precedes.trans {k : Kernel} {t u v : TaskPtr} (htu : k.Precedes t u)
    (huv : k.Precedes u v) : k.Precedes t v := by
  unfold Precedes at *
  omega

theorem Dispatched.precedes {k k' : Kernel} {p i : ℕ} {c : TaskPtr} (h : Dispatched k k' p i c)
    (t u : TaskPtr) : k'.Precedes t u ↔ k.Precedes t u := by
  unfold Precedes
  rw [h.parameters.priority, h.parameters.priority, h.parameters.id, h.parameters.id]

theorem Dispatched.registered {k k' : Kernel} {p i : ℕ} {c : TaskPtr}
    (h : Dispatched k k' p i c) (t : TaskPtr) : k'.Registered t ↔ k.Registered t := by
  unfold Registered
  rw [h.tasks]

/-- After a switch the preempted task and the tasks passed over are ready. -/
theorem Dispatched.ready_iff {k k' : Kernel} {p i : ℕ} {c : TaskPtr} (h : Dispatched k k' p i c)
    (t : TaskPtr) : k'.getState t = .eReady ↔
      t ≠ c ∧ (k.getState t = .eReady ∨
        k.getState k.currentTask = .eRunning ∧ t = k.currentTask) := by
  by_cases htc : t = c
  · subst htc
    rw [h.running]
    exact iff_of_false (by decide) fun hc => hc.1 rfl
  · by_cases hcur : k.getState k.currentTask = .eRunning ∧ t = k.currentTask
    · rw [hcur.2]
      exact iff_of_true (h.preempted hcur.1).1 ⟨hcur.2 ▸ htc, .inr ⟨hcur.1, rfl⟩⟩
    · rw [h.states t htc fun hrun he => hcur ⟨hrun, he⟩]
      exact ⟨fun hr => ⟨htc, .inl hr⟩, fun hr => hr.2.resolve_right hcur⟩

namespace EqualGroup
variable {k : Kernel} {T : Finset TaskPtr} {prio : TaskPriority} (hg : k.EqualGroup T prio)
include hg

theorem above {t : TaskPtr} (ht : t ∈ T) : k.AboveIdle t := by
  unfold AboveIdle
  rw [hg.priority t ht]
  exact hg.aboveIdle

theorem current_not_mem (hrun : k.getState k.currentTask = .eRunning) : k.currentTask ∉ T := by
  intro hc
  rw [hg.ready _ hc] at hrun
  cases hrun

end EqualGroup

/-- The first two choices of a group: the first task of the group, then the first of those
that are left, among them the preempted task. -/
structure TwoSwitches (k : Kernel) (T : Finset TaskPtr) (a b : TaskPtr) : Prop where
  first : k.Next a
  member : a ∈ T
  once : Dispatched k k.selectHighestPriorityTask (k.slot a).1 (k.slot a).2 a
  second : k.selectHighestPriorityTask.Next b
  twice : Dispatched k.selectHighestPriorityTask
    k.selectHighestPriorityTask.selectHighestPriorityTask
    (k.selectHighestPriorityTask.slot b).1 (k.selectHighestPriorityTask.slot b).2 b
  agrees : Agrees k.selectHighestPriorityTask.selectHighestPriorityTask

section
variable {k : Kernel} {T : Finset TaskPtr} {prio : TaskPriority}

theorem EqualGroup.twoSwitches (hg : k.EqualGroup T prio) (h : k.Agrees) (hn : 2 ≤ T.card) :
    ∃ a b, TwoSwitches k T a b := by
  obtain ⟨t, ht⟩ := Finset.card_pos.mp (show 0 < T.card by omega)
  obtain ⟨a, ha, hd, h₁⟩ := h.select_next (hg.registered t ht) (hg.ready t ht) (hg.above ht)
  obtain ⟨u, hu, hua⟩ := Finset.exists_mem_ne (show 1 < T.card by omega) a
  have hready := (hd.ready_iff u).mpr ⟨hua, .inl (hg.ready u hu)⟩
  have habove : k.selectHighestPriorityTask.AboveIdle u := by
    unfold AboveIdle
    rw [hd.parameters.priority]
    exact hg.above hu
  obtain ⟨b, hb, hd', h₂⟩ :=
    h₁.select_next ((hd.registered u).mpr (hg.registered u hu)) hready habove
  exact ⟨a, b, ha, hg.others a ha.registered ha.aboveIdle ha.ready, hd, hb, hd', h₂⟩

namespace TwoSwitches
variable {a b : TaskPtr} (hs : TwoSwitches k T a b)
include hs

theorem visits_add (n : ℕ) : visits (n + 2) k =
    a :: b :: visits n k.selectHighestPriorityTask.selectHighestPriorityTask := by
  rw [visits, visits, hs.once.currentTask, hs.twice.currentTask]

theorem ne : b ≠ a := ((hs.once.ready_iff b).mp hs.second.ready).1

theorem second_ready : k.getState b = .eReady ∨
    k.getState k.currentTask = .eRunning ∧ b = k.currentTask :=
  ((hs.once.ready_iff b).mp hs.second.ready).2

theorem second_above : k.AboveIdle b := by
  have hb := hs.second.aboveIdle
  unfold AboveIdle at hb
  rwa [hs.once.parameters.priority] at hb

theorem second_first {t : TaskPtr} (ht : k.Registered t) (hta : t ≠ a)
    (hready : k.getState t = .eReady ∨ k.getState k.currentTask = .eRunning ∧ t = k.currentTask) :
    k.Precedes b t := by
  have hp := hs.second.first t ((hs.once.registered t).mpr ht)
    ((hs.once.ready_iff t).mpr ⟨hta, hready⟩)
  rwa [hs.once.precedes] at hp

theorem second_mem (hg : k.EqualGroup T prio) (hb : b ∉ T) :
    k.getState k.currentTask = .eRunning ∧ b = k.currentTask := by
  refine hs.second_ready.resolve_left fun hready => hb ?_
  exact hg.others b ((hs.once.registered b).mp hs.second.registered) hs.second_above hready

theorem third (hg : k.EqualGroup T prio) (hb : b ∈ T) :
    k.selectHighestPriorityTask.selectHighestPriorityTask.selectHighestPriorityTask.currentTask =
      a := by
  set k₂ := k.selectHighestPriorityTask.selectHighestPriorityTask
  have hrun : k.selectHighestPriorityTask.getState k.selectHighestPriorityTask.currentTask =
      .eRunning := by
    rw [hs.once.currentTask]
    exact hs.once.running
  have hreg₂ : ∀ t, k₂.Registered t ↔ k.Registered t :=
    fun t => (hs.twice.registered t).trans (hs.once.registered t)
  have hready : k₂.getState a = .eReady :=
    (hs.twice.ready_iff a).mpr ⟨hs.ne.symm, .inr ⟨hrun, hs.once.currentTask.symm⟩⟩
  have habove : k₂.AboveIdle a := by
    unfold AboveIdle
    rw [hs.twice.parameters.priority, hs.once.parameters.priority]
    exact hg.above hs.member
  have hfirst : ∀ t, k₂.Registered t → k₂.getState t = .eReady → k₂.Precedes a t := by
    intro t ht hready
    rw [hs.twice.precedes, hs.once.precedes]
    rcases ((hs.twice.ready_iff t).mp hready).2 with hr | ⟨-, hcur⟩
    · obtain ⟨hta, hr⟩ := (hs.once.ready_iff t).mp hr
      have hab : k.Precedes a b := hs.first.first b (hg.registered b hb) (hg.ready b hb)
      exact hab.trans (hs.second_first ((hreg₂ t).mp ht) hta hr)
    · rw [hcur, hs.once.currentTask]
      exact .inr ⟨rfl, le_rfl⟩
  have hnext : k₂.Next a := ⟨(hreg₂ a).mpr hs.first.registered, hready, habove, hfirst⟩
  obtain ⟨u, hu, hd, -⟩ := hs.agrees.select_next hnext.registered hready habove
  rw [hd.currentTask]
  exact hu.unique hs.agrees.toTabled hnext

theorem mem_of_visits (hn : 2 ≤ T.card) (hv : ∀ t ∈ T, t ∈ visits T.card k) : b ∈ T := by
  obtain ⟨n, hcard⟩ : ∃ n, T.card = n + 2 := ⟨T.card - 2, by omega⟩
  by_contra hb
  rw [hcard, hs.visits_add] at hv
  set rest := visits n k.selectHighestPriorityTask.selectHighestPriorityTask
  have hsub : T.erase a ⊆ rest.toFinset := by
    intro t ht
    obtain ⟨hta, ht⟩ := Finset.mem_erase.mp ht
    have htb : t ≠ b := fun he => hb (he ▸ ht)
    have hmem := hv t ht
    rw [List.mem_cons, List.mem_cons] at hmem
    exact List.mem_toFinset.mpr ((hmem.resolve_left hta).resolve_left htb)
  have hle := (Finset.card_le_card hsub).trans (List.toFinset_card_le rest)
  rw [Finset.card_erase_of_mem hs.member, length_visits] at hle
  omega

end TwoSwitches

/-- In a state in which ready bits, states and priorities agree, as many calls as there are tasks
visit each task once exactly if there are two tasks and no running task comes before them. -/
theorem time_slicing_iff (h : k.Agrees) (hg : k.EqualGroup T prio) (hn : 2 ≤ T.card) :
    (∀ t ∈ T, (visits T.card k).count t = 1) ↔
      T.card = 2 ∧
        (k.getState k.currentTask = .eRunning → ∀ t ∈ T, k.Precedes t k.currentTask) := by
  obtain ⟨a, b, hs⟩ := hg.twoSwitches h hn
  constructor
  · intro hcount
    have hb : b ∈ T := by
      refine hs.mem_of_visits hn fun t ht => ?_
      rw [← List.count_pos_iff, hcount t ht]
      exact Nat.zero_lt_one
    have hcard : T.card = 2 := by
      by_contra hne
      obtain ⟨n, hcard⟩ : ∃ n, T.card = n + 1 + 2 := ⟨T.card - 3, by omega⟩
      have hone := hcount a hs.member
      rw [hcard, hs.visits_add, visits, hs.third hg hb, List.count_cons_self,
        List.count_cons_of_ne hs.ne, List.count_cons_self] at hone
      omega
    refine ⟨hcard, fun hrun t ht => ?_⟩
    have hca : k.currentTask ≠ a := fun he => hg.current_not_mem hrun (he ▸ hs.member)
    have hbc := hs.second_first h.current hca (.inr ⟨hrun, rfl⟩)
    by_cases hta : t = a
    · rw [hta]
      exact (hs.first.first b (hg.registered b hb) (hg.ready b hb)).trans hbc
    · have htb : t = b := by
        by_contra htb
        have hthree : ({a, b, t} : Finset TaskPtr) ⊆ T := by
          intro u hu
          simp only [Finset.mem_insert, Finset.mem_singleton] at hu
          rcases hu with rfl | rfl | rfl
          · exact hs.member
          · exact hb
          · exact ht
        have hle := Finset.card_le_card hthree
        rw [Finset.card_eq_three.mpr ⟨a, b, t, hs.ne.symm, Ne.symm hta, Ne.symm htb, rfl⟩] at hle
        omega
      rw [htb]
      exact hbc
  · rintro ⟨hcard, hcond⟩
    have hb : b ∈ T := by
      by_contra hb
      obtain ⟨hrun, rfl⟩ := hs.second_mem hg hb
      obtain ⟨t, ht, hta⟩ := Finset.exists_mem_ne (show 1 < T.card by omega) a
      have hbt := hs.second_first (hg.registered t ht) hta (.inl (hg.ready t ht))
      have heq := Precedes.antisymm h.toTabled (hg.registered t ht) h.current (hcond hrun t ht) hbt
      exact hb (heq ▸ ht)
    intro t ht
    have hpair : T = {a, b} := by
      symm
      refine Finset.eq_of_subset_of_card_le ?_ ?_
      · intro u hu
        simp only [Finset.mem_insert, Finset.mem_singleton] at hu
        rcases hu with rfl | rfl
        · exact hs.member
        · exact hb
      · rw [hcard, Finset.card_pair hs.ne.symm]
    rw [hcard, hs.visits_add 0]
    rw [hpair, Finset.mem_insert, Finset.mem_singleton] at ht
    have hnil : visits 0 k.selectHighestPriorityTask.selectHighestPriorityTask = [] := rfl
    rw [hnil]
    rcases ht with rfl | rfl
    · rw [List.count_cons_self, List.count_cons_of_ne hs.ne, List.count_nil]
    · rw [List.count_cons_of_ne hs.ne.symm, List.count_cons_self, List.count_nil]

end

theorem equalGroup_started {n : ℕ} (hn : n < maxTasks) :
    (started n).EqualGroup (Finset.Icc 1 n) .average := by
  have h := started_spec hn
  have hpos : ∀ t, t ≠ 0 → t ≤ n → t ∈ Finset.Icc 1 n :=
    fun t ht hle => Finset.mem_Icc.mpr ⟨Nat.one_le_iff_ne_zero.mpr ht, hle⟩
  constructor
  · decide
  · intro t ht
    exact (h.registered t).mpr (Finset.mem_Icc.mp ht).2
  · intro t ht
    exact h.priority t (Nat.one_le_iff_ne_zero.mp (Finset.mem_Icc.mp ht).1)
  · exact fun t _ => h.state t
  · intro t ht hl _
    refine hpos t ?_ ((h.registered t).mp ht)
    rintro rfl
    unfold AboveIdle at hl
    rw [h.idle] at hl
    exact absurd hl (by decide)

theorem time_slicing_two : (∀ t ∈ Finset.Icc 1 2, (visits 2 (started 2)).count t = 1) ↔
    (Finset.Icc 1 2).card = 2 ∧ ((started 2).getState (started 2).currentTask = .eRunning →
      ∀ t ∈ Finset.Icc 1 2, (started 2).Precedes t (started 2).currentTask) :=
  time_slicing_iff (agrees_started (by decide)) (equalGroup_started (by decide)) (by decide)

/-- Of three equal tasks the one with the highest id does not run in three ticks. -/
theorem third_task_starves : (started 3).Agrees ∧
    (started 3).EqualGroup (Finset.Icc 1 3) .average ∧
    (started 3).getState (started 3).currentTask = .eReady ∧
    visits 3 (started 3) = [1, 2, 1] ∧ (visits 3 (started 3)).count 3 = 0 := by
  have hv : visits 3 (started 3) = [1, 2, 1] := by decide +kernel
  refine ⟨agrees_started (by decide), equalGroup_started (by decide),
    (started_spec (by decide)).state _, hv, ?_⟩
  rw [hv]
  decide

end CppRtos.Kernel
