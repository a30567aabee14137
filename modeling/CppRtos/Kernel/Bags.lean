import CppRtos.Kernel.Alarms
import CppRtos.Library.Refinement
import CppRtos.Timing.Timers

/-! The tables of timers, counters and alarms as bounded bags, and the flag by which a timer
knows that it is in its table. -/
namespace CppRtos.Kernel
open SlotTable

inductive RegistryCall where
  | add (table : Table) (x : ℕ)
  | remove (table : Table) (x : ℕ)
  | tick
deriving DecidableEq, Repr

/-- What a call returns, and for a tick the objects that its loops visit. -/
inductive RegistryAnswer where
  | added (accepted : Bool)
  | removed
  | visited (visits : Table → Multiset ℕ)

def registry (k : Kernel) : DataObject RegistryCall RegistryAnswer Kernel where
  start := k
  op
    | .add table x, k => (.added (k.add table x).2, (k.add table x).1)
    | .remove table x, k => (.removed, k.remove table x)
    | .tick, k => (.visited fun table => k.tickVisits table, k.tick)

/-- What the tables are for: bags of at most 32 objects. -/
def bags : DataObject RegistryCall RegistryAnswer (Table → Multiset ℕ) where
  start := fun _ => 0
  op
    | .add table x, b =>
      if (b table).card < 32 then (.added true, Function.update b table (x ::ₘ b table))
      else (.added false, b)
    | .remove table x, b => (.removed, Function.update b table ((b table).erase x))
    | .tick, b => (.visited b, b)

def HoldsBags (k : Kernel) (b : Table → Multiset ℕ) : Prop :=
  ∀ table, bag 32 (k.slots table) = b table

section
variable {k : Kernel} {table : Table} {x : ℕ}

theorem add_snd_iff : (k.add table x).2 = true ↔ find 32 (k.slots table) none ≠ none := by
  refine ⟨fun hadded hnone => ?_, add_snd⟩
  cases table with
  | timers =>
    have hfind : find 32 k.timers none = none := hnone
    unfold add addTimer at hadded
    rw [hfind] at hadded
    cases hadded
  | counters =>
    have hsome : (find 32 k.counters none).isSome = true := hadded
    have hfind : find 32 k.counters none = none := hnone
    rw [hfind] at hsome
    cases hsome
  | alarms =>
    have hsome : (find 32 k.alarms none).isSome = true := hadded
    have hfind : find 32 k.alarms none = none := hnone
    rw [hfind] at hsome
    cases hsome

namespace HoldsBags
variable {b : Table → Multiset ℕ} (h : HoldsBags k b)
include h

theorem accepts : (k.add table x).2 = true ↔ (b table).card < 32 := by
  rw [add_snd_iff, find_none_iff, h]

theorem add (table : Table) (x : ℕ) : HoldsBags (k.add table x).1
    (if (b table).card < 32 then Function.update b table (x ::ₘ b table) else b) := by
  intro table'
  rw [slots_add]
  by_cases ht : table' = table
  · rw [ht, Function.update_self, bag_insert, h]
    split_ifs
    · rw [Function.update_self]
    · rfl
  · rw [Function.update_of_ne ht, h]
    split_ifs
    · rw [Function.update_of_ne ht]
    · rfl

theorem remove : HoldsBags (k.remove table x) (Function.update b table ((b table).erase x)) := by
  intro table'
  rw [slots_remove]
  by_cases ht : table' = table
  · rw [ht, Function.update_self, Function.update_self, bag_erase, h]
  · rw [Function.update_of_ne ht, Function.update_of_ne ht, h]

theorem tick : HoldsBags k.tick b := fun table =>
  (congrArg Multiset.ofList (tickVisits_tick k table)).trans (h table)

end HoldsBags

end

theorem simulates_bags {k : Kernel} (hempty : ∀ table, ∀ i < 32, k.slots table i = none) :
    (registry k).Simulates bags HoldsBags where
  start table := bag_of_empty (hempty table)
  value c k b h := by
    cases c with
    | add table x =>
      have haccepts : (k.add table x).2 = true ↔ (b table).card < 32 := h.accepts
      dsimp only [registry, bags]
      split_ifs with hcard
      · rw [haccepts.mpr hcard]
      · rw [Bool.eq_false_of_not_eq_true (mt haccepts.mp hcard)]
    | remove table x => rfl
    | tick => exact congrArg RegistryAnswer.visited (funext h)
  next c k b h := by
    cases c with
    | add table x =>
      have hadd := h.add table x
      dsimp only [registry, bags]
      split_ifs at hadd ⊢ <;> exact hadd
    | remove table x => exact h.remove
    | tick => exact h.tick

/-- Every sequence of registrations, removals and ticks returns what three bags of at most 32
objects return, an object that is added twice included, and then a tick advances an object as
often as it is in its bag. -/
theorem registry_refines_bags {k : Kernel} (hempty : ∀ table, ∀ i < 32, k.slots table i = none)
    (calls : List RegistryCall) :
    let k' := ((registry k).run calls).2
    let b := (bags.run calls).2
    ((registry k).run calls).1 = (bags.run calls).1 ∧ ∀ table x,
      k'.tick.object table x = k'.advance^[(b table).count x] (k'.object table x) := by
  intro k' b
  obtain ⟨hanswers, hlast⟩ := (simulates_bags hempty).run calls
  refine ⟨hanswers, fun table x => ?_⟩
  have hbag : bag 32 (k'.slots table) = b table := hlast table
  rw [object_tick, ← hbag, count_bag]
  rfl

/-- A removal takes one of two slots of a timer. -/
theorem registry_refines_bags_twice :
    let calls : List RegistryCall :=
      [.add .timers 7, .add .timers 7, .tick, .remove .timers 7]
    let k := ((registry sampleTables).run calls).2
    k.tick.object .timers 7 = k.advance (k.object .timers 7) := by
  intro calls k
  have hcount : ((bags.run calls).2 .timers).count 7 = 1 := by decide
  have hobject := (registry_refines_bags (fun table i _ => sampleTables_empty table i) calls).2
    .timers 7
  rwa [hcount, Function.iterate_one] at hobject

/-! ## The flag of a timer -/

/-- `isAllocated` tells which timers are in the table. -/
def Allocated (k : Kernel) : Prop :=
  ∀ t, (k.timerData t).allocated = true ↔ k.InTable .timers t

/-- Nothing but registration and removal writes the flags. -/
def KeepsFlags : Registration → Kernel → Prop
  | .other k', k => ∀ t, (k'.timerData t).allocated = (k.timerData t).allocated
  | _, _ => True

/-- No timer is removed that holds two slots. -/
def RemovesLast : Registration → Kernel → Prop
  | .remove .timers t, k => (k.tickVisits .timers).count t ≤ 1
  | _, _ => True

section
variable {k : Kernel} {t : TimerPtr}

theorem frame_tick (timer : Timer) : (timer.tick id).callback = timer.callback ∧
    (timer.tick id).arg = timer.arg ∧ (timer.tick id).allocated = timer.allocated := by
  obtain ⟨n, hn⟩ := timer.countdown_eq
  rw [Timer.tick_eq, hn]
  unfold Timer.reload
  dsimp only [id]
  split_ifs <;> exact ⟨rfl, rfl, rfl⟩

theorem keepsFlags_tick (k : Kernel) : KeepsFlags (.other k.tick) k := by
  intro t
  rw [timerData_tick]
  generalize (k.tickVisits .timers).count t = n
  induction n with
  | zero => rfl
  | succ n ih => rw [Function.iterate_succ_apply', (frame_tick _).2.2, ih]

theorem timerData_addTimer (h : find 32 k.timers none ≠ none) :
    (k.add .timers t).1.timerData =
      Function.update k.timerData t (k.timerData t).allocate := by
  unfold add addTimer
  cases hfind : find 32 k.timers none with
  | none => exact absurd hfind h
  | some i => rfl

theorem addTimer_of_full (h : find 32 k.timers none = none) : (k.add .timers t).1 = k := by
  unfold add addTimer
  rw [h]

theorem timerData_removeTimer (h : t ∈ entries 32 k.timers) :
    (k.remove .timers t).timerData =
      Function.update k.timerData t (k.timerData t).deallocate := by
  unfold remove removeTimer
  dsimp only
  cases hfind : find 32 k.timers (some t) with
  | none => exact absurd h (find_some_eq_none.mp hfind)
  | some i => rfl

theorem removeTimer_of_not_mem (h : t ∉ entries 32 k.timers) : k.remove .timers t = k := by
  unfold remove removeTimer
  dsimp only
  rw [find_some_eq_none.mpr h]

theorem Allocated.congr {k' : Kernel} (h : k.Allocated) (hslots : k'.timers = k.timers)
    (hflags : ∀ t, (k'.timerData t).allocated = (k.timerData t).allocated) : k'.Allocated := by
  intro t
  have hin : k'.InTable .timers t ↔ k.InTable .timers t := by
    unfold InTable slots
    rw [hslots]
  rw [hflags, hin]
  exact h t

theorem Allocated.addTimer (h : k.Allocated) : (k.add .timers t).1.Allocated := by
  by_cases hfind : find 32 k.timers none = none
  · rwa [addTimer_of_full hfind]
  · intro u
    have hin : (k.add .timers t).1.InTable .timers u ↔ u = t ∨ k.InTable .timers u := by
      rw [registered_iff, registered_iff]
      unfold tickVisits
      rw [slots_add, Function.update_self]
      rcases insert_cases 32 (k.slots .timers) t with ⟨hnone, -⟩ | ⟨-, hp⟩
      · exact absurd hnone hfind
      · rw [hp.mem_iff, List.mem_cons]
    rw [hin, timerData_addTimer hfind]
    by_cases hu : u = t
    · rw [hu, Function.update_self]
      exact iff_of_true rfl (.inl rfl)
    · rw [Function.update_of_ne hu, h u, or_iff_right hu]

/-- A removal keeps the flags right exactly if it takes the last slot of the timer. -/
theorem Allocated.removeTimer_iff (h : k.Allocated) :
    (k.remove .timers t).Allocated ↔ (k.tickVisits .timers).count t ≤ 1 := by
  by_cases ht : t ∈ entries 32 k.timers
  · have hp := erase_perm ht
    have hcount : (k.tickVisits .timers).count t =
        (entries 32 (erase 32 k.timers t)).count t + 1 := by
      have hone := hp.count_eq t
      rwa [List.count_cons_self] at hone
    have hin : ∀ u, (k.remove .timers t).InTable .timers u ↔
        u ∈ entries 32 (erase 32 k.timers t) := by
      intro u
      rw [registered_iff]
      unfold tickVisits
      rw [slots_remove, Function.update_self]
      rfl
    constructor
    · intro hall
      have hflag := hall t
      rw [timerData_removeTimer ht, Function.update_self, hin] at hflag
      have hnot : t ∉ entries 32 (erase 32 k.timers t) := fun hmem => by cases hflag.mpr hmem
      rw [hcount, List.count_eq_zero_of_not_mem hnot]
    · intro hle u
      rw [hin, timerData_removeTimer ht]
      by_cases hu : u = t
      · have hnot : t ∉ entries 32 (erase 32 k.timers t) := by
          rw [← List.count_eq_zero]
          omega
        rw [hu, Function.update_self]
        exact iff_of_false Bool.false_ne_true hnot
      · have hold : k.InTable .timers u ↔ u ∈ entries 32 (erase 32 k.timers t) := by
          rw [registered_iff]
          refine hp.mem_iff.trans ?_
          rw [List.mem_cons, or_iff_right hu]
        rw [Function.update_of_ne hu, h u, hold]
  · have hzero : (k.tickVisits .timers).count t = 0 := List.count_eq_zero_of_not_mem ht
    rw [removeTimer_of_not_mem ht, hzero]
    exact iff_of_true h (Nat.zero_le 1)

theorem Allocated.apply_iff (h : k.Allocated) {e : Registration}
    (hg : (registering.restrict KeepsFlags).guard e k) :
    ((registering.restrict KeepsFlags).apply e k).Allocated ↔ RemovesLast e k := by
  cases e with
  | add table x =>
    refine iff_of_true ?_ trivial
    cases table with
    | timers => exact h.addTimer
    | counters => exact h.congr rfl fun _ => rfl
    | alarms => exact h.congr rfl fun _ => rfl
  | remove table x =>
    cases table with
    | timers => exact h.removeTimer_iff
    | counters => exact iff_of_true (h.congr rfl fun _ => rfl) trivial
    | alarms => exact iff_of_true (h.congr rfl fun _ => rfl) trivial
  | other k' =>
    have hslots : k'.slots = k.slots := hg.1
    exact iff_of_true (h.congr (congrFun hslots .timers) hg.2) trivial

end

/-- Timers that begin outside of the table know in every state of a run whether they are in it,
exactly if none is removed while it holds two slots: such a timer is ticked further, although
it counts as free. -/
theorem allocated_iff {k : Kernel} (hempty : ∀ i < 32, k.timers i = none)
    (hnew : ∀ t, (k.timerData t).allocated = false) {es : List Registration}
    (hes : (registering.restrict KeepsFlags).Valid k es) :
    (∀ fs, fs <+: es → ((registering.restrict KeepsFlags).exec k fs).Allocated) ↔
      ((registering.restrict KeepsFlags).restrict RemovesLast).Valid k es := by
  have hstart : k.Allocated := by
    intro t
    rw [hnew]
    refine iff_of_false Bool.false_ne_true ?_
    rintro ⟨i, hi, hslot⟩
    have hnone : k.slots .timers i = none := hempty i hi
    rw [hnone] at hslot
    cases hslot
  exact Machine.forall_prefix_iff (I := fun _ => True) (fun _ _ _ _ _ _ => trivial)
    (fun _ _ _ hk hg => hk.apply_iff hg) trivial hstart hes

/-- The timer of two slots is not flagged after the first removal. -/
theorem allocated_twice : ¬ ∀ fs, fs <+: [.add .timers 7, .add .timers 7, .remove .timers 7] →
    ((registering.restrict KeepsFlags).exec sampleTables fs).Allocated := by
  have hvalid : (registering.restrict KeepsFlags).Valid sampleTables
      [.add .timers 7, .add .timers 7, .remove .timers 7] :=
    ⟨⟨trivial, trivial⟩, ⟨trivial, trivial⟩, ⟨trivial, trivial⟩, trivial⟩
  rw [allocated_iff (fun _ _ => rfl) (fun _ => rfl) hvalid]
  intro hlast
  have hone : (((sampleTables.add .timers 7).1.add .timers 7).1.tickVisits .timers).count 7 ≤ 1 :=
    hlast.2.2.1.2
  exact absurd hone (by decide)

end CppRtos.Kernel
