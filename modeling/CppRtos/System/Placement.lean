import CppRtos.Kernel.Settled
import CppRtos.System.Sound
import Mathlib.Data.List.Nodup
import Mathlib.Data.List.Perm.Subperm

/-! The places of tasks: every blocked task is in one wait queue, and only blocked tasks
are. One lemma for each way to move a task from one place to another. -/
namespace CppRtos

inductive WaitQueue where
  | semaphore (s : ℕ)
  | mutex (m : ℕ)
  | eventGroup (g : ℕ)
deriving DecidableEq, Repr

abbrev Queues := WaitQueue → Fifo (Option TaskPtr) maxTasks

def Objects.queues (o : Objects) : Queues
  | .semaphore s => (o.semaphores s).waitingQueue
  | .mutex m => (o.mutexes m).blockedTasks
  | .eventGroup g => (o.eventGroups g).waitingTasks

/-- The tasks of `L` are between the first two statements of `setTaskReady`. -/
structure Placed (k : Kernel) (Q : Queues) (L : Set TaskPtr) : Prop where
  registry : k.Registry
  stands : ∀ t, k.Registered t → t ∉ L → (k.standing t).Settled
  unentered : ∀ t ∈ L, k.Registered t ∧ (k.standing t).Unentered
  plain : ∀ q, (Q q).Plain
  head : ∀ g, (Q (.eventGroup g)).head = 0
  nodup : ∀ q, (Q q).pointers.Nodup
  disjoint : ∀ q q' t, t ∈ (Q q).pointers → t ∈ (Q q').pointers → q = q'
  registered : ∀ q, ∀ t ∈ (Q q).pointers, k.Registered t
  blocked : ∀ t, k.Registered t → (k.getState t = .eBlocked ↔ ∃ q, t ∈ (Q q).pointers)

theorem Kernel.pendSV_port (k : Kernel) (p : Port) (nesting : ℕ) (masked underflow : Bool) :
    ({ k with port := { p with
        nestingCounter := nesting
        masked := masked
        exitUnderflow := underflow } } : Kernel).port.pendSV = p.pendSV := rfl

theorem Kernel.pendSV_enterCritical (k : Kernel) :
    k.enterCritical.port.pendSV = k.port.pendSV := by
  unfold enterCritical Port.enterCritical
  exact pendSV_port k k.port _ _ _

theorem Kernel.pendSV_exitCritical (k : Kernel) : k.exitCritical.port.pendSV = k.port.pendSV := by
  unfold exitCritical Port.exitCritical
  exact pendSV_port k k.port _ _ _

theorem Kernel.pendSV_yield (k : Kernel) : k.yield.port.pendSV = true := by
  unfold yield Port.yield Port.exitCritical
  exact pendSV_port k { k.port.enterCritical with pendSV := true } _ _ _

/-- Running tasks keep running, and no context switch is requested. -/
structure Steady (k k' : Kernel) : Prop where
  pendSV : k'.port.pendSV = k.port.pendSV
  running : ∀ t, k.getState t = .eRunning → k'.getState t = .eRunning

theorem Steady.trans {k k' k'' : Kernel} (h : Steady k k') (h' : Steady k' k'') :
    Steady k k'' where
  pendSV := h'.pendSV.trans h.pendSV
  running t ht := h'.running t (h.running t ht)

theorem Steady.same {k k' : Kernel} (h : Kernel.SameSchedule k k')
    (hp : k'.port.pendSV = k.port.pendSV) : Steady k k' :=
  ⟨hp, fun t ht => (h.getState t).trans ht⟩

theorem Steady.refl (k : Kernel) : Steady k k := .same (.refl k) rfl

theorem Steady.wake {k : Kernel} {t : TaskPtr} (ht : k.getState t ≠ .eRunning) :
    Steady k (k.setTaskReady (some t)) where
  pendSV := by rw [Kernel.port_setTaskReady]
  running u hu := by
    rw [Kernel.getState_setTaskReady]
    split_ifs with hut
    · exact absurd (hut ▸ hu) ht
    · exact hu

theorem Steady.region {k k' : Kernel} (h : Steady k.enterCritical k') : Steady k k'.exitCritical :=
  (Steady.same (Kernel.sameSchedule_enterCritical k) (Kernel.pendSV_enterCritical k)).trans
    (h.trans (.same (Kernel.sameSchedule_exitCritical k') (Kernel.pendSV_exitCritical k')))

namespace Placed
variable {k k' : Kernel} {Q : Queues} {L : Set TaskPtr} (h : Placed k Q L)
include h

theorem not_unentered {t : TaskPtr} (hs : k.getState t ≠ .eReady) : t ∉ L :=
  fun ht => hs (h.unentered t ht).2.state

theorem settled {t : TaskPtr} (ht : k.Registered t) (hs : k.getState t ≠ .eReady) :
    (k.standing t).Settled := h.stands t ht (h.not_unentered hs)

theorem blocked_of_mem {q : WaitQueue} {t : TaskPtr} (ht : t ∈ (Q q).pointers) :
    k.getState t = .eBlocked := (h.blocked t (h.registered q t ht)).mpr ⟨q, ht⟩

theorem not_mem {t : TaskPtr} (hs : k.getState t ≠ .eBlocked) (q : WaitQueue) :
    t ∉ (Q q).pointers := fun ht => hs (h.blocked_of_mem ht)

/-- A queue has room for a task that is not blocked: the tasks in it have different ids. -/
theorem room {t : TaskPtr} (ht : k.Registered t) (hs : k.getState t ≠ .eBlocked)
    (q : WaitQueue) : (Q q).size < maxTasks := by
  have hinj : ((t :: (Q q).pointers).map fun u => (k.taskData u).id).Nodup := by
    refine List.Nodup.map_on ?_ (List.nodup_cons.mpr ⟨h.not_mem hs q, h.nodup q⟩)
    have hreg : ∀ u ∈ t :: (Q q).pointers, k.Registered u := by
      intro u hu
      rcases List.mem_cons.mp hu with rfl | hu
      · exact ht
      · exact h.registered q u hu
    exact fun u hu v hv he => h.registry.id_inj (hreg u hu) (hreg v hv) he
  have hsub : ((t :: (Q q).pointers).map fun u => (k.taskData u).id) ⊆ List.range maxTasks := by
    intro i hi
    obtain ⟨u, hu, rfl⟩ := List.mem_map.mp hi
    rw [List.mem_range]
    rcases List.mem_cons.mp hu with rfl | hu
    · exact h.registry.id_lt ht
    · exact h.registry.id_lt (h.registered q u hu)
  have hle := (hinj.subperm hsub).length_le
  rw [List.length_map, List.length_cons, List.length_range, (h.plain q).length_pointers] at hle
  omega

/-! ## Steps that leave the queues alone -/

theorem same (hs : Kernel.SameSchedule k k') : Placed k' Q L where
  registry := h.registry.effect (P := .all) (.same hs)
  stands t ht hL := by
    rw [hs.standing]
    exact h.stands t ((hs.registered t).mp ht) hL
  unentered t hL := by
    rw [hs.standing, hs.registered]
    exact h.unentered t hL
  plain := h.plain
  head := h.head
  nodup := h.nodup
  disjoint := h.disjoint
  registered q t ht := (hs.registered t).mpr (h.registered q t ht)
  blocked t ht := by
    rw [hs.getState]
    exact h.blocked t ((hs.registered t).mp ht)

theorem enterCritical : Placed k.enterCritical Q L := h.same (Kernel.sameSchedule_enterCritical k)

theorem exitCritical : Placed k.exitCritical Q L := h.same (Kernel.sameSchedule_exitCritical k)

theorem standing {L' : Set TaskPtr} (hr : k'.Registry)
    (ht : ∀ u, k'.Registered u ↔ k.Registered u)
    (hset : ∀ u, k'.Registered u → u ∉ L' → (k'.standing u).Settled)
    (hun : ∀ u ∈ L', k'.Registered u ∧ (k'.standing u).Unentered)
    (hb : ∀ u, k.Registered u → (k'.getState u = .eBlocked ↔ k.getState u = .eBlocked)) :
    Placed k' Q L' where
  registry := hr
  stands := hset
  unentered := hun
  plain := h.plain
  head := h.head
  nodup := h.nodup
  disjoint := h.disjoint
  registered q t hq := (ht t).mpr (h.registered q t hq)
  blocked t hreg := (hb t ((ht t).mp hreg)).trans (h.blocked t ((ht t).mp hreg))

theorem only {L' : Set TaskPtr} (hr : k'.Registry) (htab : Kernel.SameTable k k') {t : TaskPtr}
    {w : Standing} (ht : k.Registered t)
    (hst : ∀ u, k.Registered u → k'.standing u = if u = t then w else k.standing u)
    (hL : ∀ u, u ≠ t → (u ∈ L' ↔ u ∈ L)) (hw : t ∉ L' → w.Settled) (hw' : t ∈ L' → w.Unentered)
    (hb : w.state = .eBlocked ↔ k.getState t = .eBlocked) : Placed k' Q L' := by
  refine h.standing hr htab.registered (fun u hu hout => ?_) (fun u hin => ?_) fun u hu => ?_
  · rw [hst u ((htab.registered u).mp hu)]
    split_ifs with hut
    · exact hw (hut ▸ hout)
    · exact h.stands u ((htab.registered u).mp hu) ((hL u hut).not.mp hout)
  · rw [htab.registered]
    by_cases hut : u = t
    · subst hut
      rw [hst u ht, if_pos rfl]
      exact ⟨ht, hw' hin⟩
    · obtain ⟨hu, hun⟩ := h.unentered u ((hL u hut).mp hin)
      rw [hst u hu, if_neg hut]
      exact ⟨hu, hun⟩
  · have hstate := congrArg Standing.state (hst u hu)
    have hleft : k'.getState u = (if u = t then w else k.standing u).state := hstate
    rw [hleft]
    split_ifs with hut
    · rw [hb, hut]
    · rfl

theorem rouse {t : TaskPtr} (ht : k.Registered t) (hs : k.getState t = .eRunning) :
    Placed (k.setState t .eReady) Q (insert t L) := by
  have hne : k.getState t ≠ .eReady := by
    rw [hs]
    decide
  refine h.only (h.registry.effect (P := .all) (.run (.rouse t) ⟨ht, trivial⟩))
    ⟨rfl, rfl, rfl, rfl, rfl, rfl⟩ ht (fun _ _ => Kernel.standing_setState _)
    (fun u hu => Set.mem_insert_iff.trans (or_iff_right hu))
    (fun hout => absurd (Set.mem_insert t L) hout)
    (fun _ => (h.settled ht hne).toRouse hs) ?_
  rw [hs]
  exact iff_of_false (by simp) (by decide)

theorem enter {t : TaskPtr} (ht : t ∈ L) : Placed (k.setReadyWord t) Q (L \ {t}) := by
  obtain ⟨hreg, hun⟩ := h.unentered t ht
  refine h.only (h.registry.effect (P := .all) (.run (.enter t) ⟨hreg, trivial⟩))
    (Kernel.sameTable_setReadyWord k t) hreg
    (fun u hu => h.registry.tabled.standing_setReadyWord hreg hu)
    (fun u hu => and_iff_left hu) (fun _ => hun.toEnter) (fun hin => absurd rfl hin.2) Iff.rfl

theorem sleep {t : TaskPtr} (ht : k.Registered t) (hs : k.getState t = .eRunning) (n : ℕ) :
    Placed (k.addSleepingTask t n) Q L := by
  have hne : k.getState t ≠ .eReady := by
    rw [hs]
    decide
  refine h.only (h.registry.effect (P := .all) (.run (.sleep t n) ⟨ht, trivial⟩))
    ⟨rfl, rfl, rfl, rfl, rfl, rfl⟩ ht
    (fun u hu => h.registry.tabled.standing_addSleepingTask ht hu n) (fun _ _ => Iff.rfl)
    (fun _ => (h.settled ht hne).toSleep hs) (fun hin => absurd hin (h.not_unentered hne)) ?_
  rw [hs]
  exact iff_of_false (by simp [Standing.sleep]) (by decide)

theorem boost {t : TaskPtr} (ht : k.Registered t) (hl : k.AboveIdle t) {prio : TaskPriority}
    (hlt : k.getPriority t < prio) (hle : k.highestTaskPriority.level ≤ prio.level) :
    Placed (k.modifyTask t (·.setPriority prio)) Q L :=
  h.only (h.registry.effect (P := .all) (.run (.boost t prio) ⟨ht, trivial, hlt, hle⟩))
    ⟨rfl, rfl, rfl, rfl, rfl, rfl⟩ ht (fun _ _ => Kernel.standing_boost hlt) (fun _ _ => Iff.rfl)
    (fun hout => (h.stands t ht hout).toBoost hl hlt)
    (fun hin => (h.unentered t hin).2.toBoost hlt) Iff.rfl

theorem wakeUp (now i : ℕ) : Placed (Kernel.wakeUp now k i) Q L := by
  unfold Kernel.wakeUp
  split_ifs with hw
  · rw [Bool.and_eq_true] at hw
    obtain ⟨t, ht⟩ := h.registry.sleepers i hw.1
    have hid := h.registry.slot_id i t ht
    have hreg : k.Registered t := ⟨i, ht⟩
    have hasleep : (k.standing t).asleep = true := by
      rw [← hid] at hw
      exact hw.1
    have hout : t ∉ L := by
      intro hin
      rw [(h.unentered t hin).2.awake] at hasleep
      cases hasleep
    refine h.only (h.registry.effect (P := .all) (.run (.wake i) trivial))
      (Kernel.Primitive.sameTable k (.wake i)) (t := t) (w := (k.standing t).wake) hreg
      (fun u hu => ?_) (fun _ _ => Iff.rfl) (fun _ => (h.stands t hreg hout).toWake hasleep)
      (fun hin => absurd hin hout) ?_
    · refine (h.registry.tabled.standing_wake i hu).trans ?_
      by_cases hut : u = t
      · subst hut
        rw [if_pos hid, if_pos rfl]
      · have hne : (k.taskData u).id ≠ i :=
          fun he => hut (h.registry.id_inj hu hreg (he.trans hid.symm))
        rw [if_neg hne, if_neg hut]
    · have hs : k.getState t = .eSleeping := (h.stands t hreg hout).asleep.mp hasleep
      rw [hs]
      exact iff_of_false (by simp [Standing.wake, Standing.ready]) (by decide)
  · exact h

theorem tick : Placed k.tick Q L := by
  have hwake : Placed ((List.range maxTasks).foldl (Kernel.wakeUp k.getTickCount) k) Q L :=
    List.foldlRecOn (motive := fun k' => Placed k' Q L) _ _ h fun k' hk' i _ => hk'.wakeUp _ i
  have hrest := (hwake.same (Kernel.sameSchedule_updateTimers _)).same
    (Kernel.sameSchedule_incrementCounters _)
  unfold Kernel.tick
  dsimp only
  rwa [Kernel.checkAlarms, Kernel.forSlots_none hrest.registry.alarms]

theorem sysTickHandler : Placed k.sysTickHandler Q L := by
  unfold Kernel.sysTickHandler
  set k₁ : Kernel := { k with port :=
    ({ k.port with masked := true, insideInterrupt := true } : Port).incrementTickCount }
  have hin : Kernel.SameSchedule k k₁ := Kernel.sameSchedule_port k _
  exact (h.same hin).tick.same (Kernel.sameSchedule_port k₁.tick _)

theorem switches {p i : ℕ} {t : TaskPtr} (hs : Kernel.Switches k k' p i t) : Placed k' Q L := by
  have hreg : k.Registered t := ⟨i, hs.slot⟩
  have hbit : p ∈ (k.standing t).listed := by
    have hb := hs.first.bit
    rw [← h.registry.slot_id i t hs.slot] at hb
    exact hb
  have hout : t ∉ L := fun hin => (h.unentered t hin).2.unlisted p hbit
  have hready : k.getState t = .eReady := (h.stands t hreg hout).listed p hbit
  have hnot : ¬ (t = k.currentTask ∧ k.getState k.currentTask = .eRunning) := by
    rintro ⟨rfl, hrun⟩
    rw [hready] at hrun
    cases hrun
  have hregistered := (h.registry.switches_evolves hs).registered
  refine h.standing (h.registry.switches hs) hregistered (fun u hu hu' => ?_) (fun u hin => ?_)
    fun u hu => ?_
  · have hu := (hregistered u).mp hu
    rw [h.registry.tabled.standing_switches hs hu, if_neg hnot]
    split_ifs with hut hc
    · exact (h.stands t hreg hout).toRun hbit
    · obtain ⟨rfl, hrun⟩ := hc
      have hne : ∀ s, s ≠ TaskStateType.eRunning → (k.standing k.currentTask).state ≠ s :=
        fun s hne he => hne (he.symm.trans hrun)
      exact (h.stands _ hu hu').toReady (hne _ (by decide)) (hne _ (by decide))
    · exact h.stands u hu hu'
  · obtain ⟨hu, hun⟩ := h.unentered u hin
    have hne : u ≠ t := fun he => hout (he ▸ hin)
    have hstate : k.getState u = .eReady := hun.state
    have hcur : ¬ (u = k.currentTask ∧ k.getState k.currentTask = .eRunning) := by
      rintro ⟨rfl, hrun⟩
      rw [hstate] at hrun
      cases hrun
    rw [h.registry.tabled.standing_switches hs hu, if_neg hne, if_neg hcur]
    exact ⟨(hregistered u).mpr hu, hun⟩
  · rw [hs.getState]
    split_ifs with hut hc
    · rw [hut, hready]
      decide
    · rw [hc.1, hc.2]
      decide
    · rfl

theorem adds {t : TaskPtr} (hroom : k.taskCount < maxTasks) (ht : ¬ k.Registered t)
    (ha : Kernel.Adds k k' t) : Placed k' Q L := by
  have hreg := h.registry.registered_adds ha
  constructor
  · exact h.registry.adds hroom ht ha
  · intro u hu hout
    rcases (hreg u).mp hu with rfl | hu
    · rw [h.registry.standing_added ht ha]
      exact Standing.settled_fresh (h.registry.level_le u)
    · rw [h.registry.standing_adds ht ha hu]
      exact h.stands u hu hout
  · intro u hin
    obtain ⟨hu, hun⟩ := h.unentered u hin
    rw [h.registry.standing_adds ht ha hu]
    exact ⟨(hreg u).mpr (.inr hu), hun⟩
  · exact h.plain
  · exact h.head
  · exact h.nodup
  · exact h.disjoint
  · exact fun q u hq => (hreg u).mpr (.inr (h.registered q u hq))
  · intro u hu
    rw [ha.getState]
    rcases (hreg u).mp hu with rfl | hu
    · rw [h.registry.unregistered u ht]
      exact iff_of_false (by decide) fun ⟨q, hq⟩ => ht (h.registered q u hq)
    · exact h.blocked u hu

/-! ## Steps from and to a queue -/

theorem wake {q : WaitQueue} {t : TaskPtr} {rest : Fifo (Option TaskPtr) maxTasks}
    (hplain : rest.Plain) (hhead : ∀ g, q = .eventGroup g → rest.head = 0)
    (hperm : (Q q).pointers.Perm (t :: rest.pointers)) :
    Placed (k.setTaskReady (some t)) (Function.update Q q rest) L := by
  have hnodup : t ∉ rest.pointers ∧ rest.pointers.Nodup :=
    List.nodup_cons.mp (hperm.nodup_iff.mp (h.nodup q))
  have hin : t ∈ (Q q).pointers := hperm.mem_iff.mpr List.mem_cons_self
  have ht := h.registered q t hin
  have hs := h.blocked_of_mem hin
  have hnot : k.getState t ≠ .eReady := by
    rw [hs]
    decide
  have hmem : ∀ q' u, u ∈ (Function.update Q q rest q').pointers ↔
      u ∈ (Q q').pointers ∧ u ≠ t := by
    intro q' u
    by_cases hq : q' = q
    · subst hq
      rw [Function.update_self, hperm.mem_iff, List.mem_cons]
      constructor
      · exact fun hu => ⟨.inr hu, fun he => hnodup.1 (he ▸ hu)⟩
      · exact fun hu => hu.1.resolve_left hu.2
    · rw [Function.update_of_ne hq]
      exact ⟨fun hu => ⟨hu, fun he => hq (h.disjoint q' q t (he ▸ hu) hin)⟩, fun hu => hu.1⟩
  have htab := Kernel.sameTable_setTaskReady k (some t)
  have hne : ∀ s, s ≠ TaskStateType.eBlocked → (k.standing t).state ≠ s :=
    fun s hne he => hne (he.symm.trans hs)
  constructor
  · exact h.registry.effect (P := .all) (.run (.ready t) ht)
  · intro u hu hout
    have hu' := (htab.registered u).mp hu
    rw [h.registry.tabled.standing_setTaskReady ht hu']
    split_ifs
    · exact (h.settled ht hnot).toReady (hne _ (by decide)) (hne _ (by decide))
    · exact h.stands u hu' hout
  · intro u hL
    obtain ⟨hu, hun⟩ := h.unentered u hL
    have hut : u ≠ t := fun he => h.not_unentered hnot (he ▸ hL)
    rw [h.registry.tabled.standing_setTaskReady ht hu, if_neg hut, htab.registered]
    exact ⟨hu, hun⟩
  · intro q'
    by_cases hq : q' = q
    · rwa [hq, Function.update_self]
    · rw [Function.update_of_ne hq]
      exact h.plain q'
  · intro g
    by_cases hq : WaitQueue.eventGroup g = q
    · rw [hq, Function.update_self]
      exact hhead g hq.symm
    · rw [Function.update_of_ne hq]
      exact h.head g
  · intro q'
    by_cases hq : q' = q
    · rw [hq, Function.update_self]
      exact hnodup.2
    · rw [Function.update_of_ne hq]
      exact h.nodup q'
  · intro q' q'' u hu hu'
    exact h.disjoint q' q'' u ((hmem q' u).mp hu).1 ((hmem q'' u).mp hu').1
  · intro q' u hu
    exact (htab.registered u).mpr (h.registered q' u ((hmem q' u).mp hu).1)
  · intro u hu
    rw [Kernel.getState_setTaskReady]
    simp only [hmem]
    split_ifs with hut
    · exact iff_of_false (by decide) fun ⟨q', hq'⟩ => hq'.2 hut
    · rw [h.blocked u ((htab.registered u).mp hu)]
      simp only [hut, ne_eq, not_false_iff, and_true]

theorem wait (q : WaitQueue) {t : TaskPtr} {w : Standing} (ht : k.Registered t)
    (hs : k.getState t = .eRunning) (hr : k'.Registry) (htab : Kernel.SameTable k k')
    (hst : ∀ u, k.Registered u → k'.standing u = if u = t then w else k.standing u)
    (hw : w.Settled) (hb : w.state = .eBlocked) :
    Placed k' (Function.update Q q ((Q q).enqueue (some t))) L := by
  have hrun : k.getState t ≠ .eBlocked := by
    rw [hs]
    decide
  have hnot : k.getState t ≠ .eReady := by
    rw [hs]
    decide
  have hroom := h.room ht hrun q
  have hmem : ∀ q' u, u ∈ (Function.update Q q ((Q q).enqueue (some t)) q').pointers ↔
      u ∈ (Q q').pointers ∨ (q' = q ∧ u = t) := by
    intro q' u
    by_cases hq : q' = q
    · subst hq
      rw [Function.update_self, Fifo.pointers_enqueue (h.plain q').toWellFormed _ hroom,
        List.mem_append, List.mem_singleton]
      simp only [true_and]
    · rw [Function.update_of_ne hq]
      simp only [hq, false_and, or_false]
  constructor
  · exact hr
  · intro u hu hout
    have hu' := (htab.registered u).mp hu
    rw [hst u hu']
    split_ifs
    · exact hw
    · exact h.stands u hu' hout
  · intro u hL
    obtain ⟨hu, hun⟩ := h.unentered u hL
    have hut : u ≠ t := fun he => h.not_unentered hnot (he ▸ hL)
    rw [hst u hu, if_neg hut, htab.registered]
    exact ⟨hu, hun⟩
  · intro q'
    by_cases hq : q' = q
    · rw [hq, Function.update_self]
      exact (h.plain q).enqueue t hroom
    · rw [Function.update_of_ne hq]
      exact h.plain q'
  · intro g
    by_cases hq : WaitQueue.eventGroup g = q
    · subst hq
      rw [Function.update_self, Fifo.enqueue_head]
      exact h.head g
    · rw [Function.update_of_ne hq]
      exact h.head g
  · intro q'
    by_cases hq : q' = q
    · subst hq
      rw [Function.update_self, Fifo.pointers_enqueue (h.plain q').toWellFormed _ hroom]
      exact List.nodup_append.mpr ⟨h.nodup q', List.nodup_singleton t, fun u hu v hv he =>
        h.not_mem hrun q' (List.mem_singleton.mp hv ▸ he ▸ hu)⟩
    · rw [Function.update_of_ne hq]
      exact h.nodup q'
  · intro q' q'' u hu hu'
    rcases (hmem q' u).mp hu with hin | ⟨hq, hut⟩
    · rcases (hmem q'' u).mp hu' with hin' | ⟨-, hut⟩
      · exact h.disjoint q' q'' u hin hin'
      · exact absurd (hut ▸ hin) (h.not_mem hrun q')
    · rcases (hmem q'' u).mp hu' with hin' | ⟨hq', -⟩
      · exact absurd (hut ▸ hin') (h.not_mem hrun q'')
      · exact hq.trans hq'.symm
  · intro q' u hu
    rw [htab.registered]
    rcases (hmem q' u).mp hu with hu | ⟨-, rfl⟩
    · exact h.registered q' u hu
    · exact ht
  · intro u hu
    have hu' := (htab.registered u).mp hu
    have hstate := congrArg Standing.state (hst u hu')
    have hleft : k'.getState u = (if u = t then w else k.standing u).state := hstate
    rw [hleft]
    simp only [hmem]
    split_ifs with hut
    · exact iff_of_true hb ⟨q, .inr ⟨rfl, hut⟩⟩
    · simp only [hut, and_false, or_false]
      exact h.blocked u hu'

theorem block (q : WaitQueue) {t : TaskPtr} (ht : k.Registered t)
    (hs : k.getState t = .eRunning) : Placed (k.resetTaskReady (some t) .eBlocked)
      (Function.update Q q ((Q q).enqueue (some t))) L := by
  have hne : k.getState t ≠ .eReady := by
    rw [hs]
    decide
  exact h.wait q ht hs (h.registry.effect (P := .all) (.run (.block t) ht))
    (Kernel.sameTable_resetTaskReady k t _)
    (fun _ hu => h.registry.tabled.standing_resetTaskReady ht hu) ((h.settled ht hne).toBlock hs)
    rfl

theorem suspend (q : WaitQueue) {t : TaskPtr} (ht : k.Registered t)
    (hs : k.getState t = .eRunning) : Placed (k.setState t .eBlocked)
      (Function.update Q q ((Q q).enqueue (some t))) L := by
  have hne : k.getState t ≠ .eReady := by
    rw [hs]
    decide
  exact h.wait q ht hs (h.registry.effect (P := .all) (.run (.suspend t) ⟨ht, trivial⟩))
    ⟨rfl, rfl, rfl, rfl, rfl, rfl⟩ (fun _ _ => Kernel.standing_setState _)
    ((h.settled ht hne).toSuspend hs) rfl

end Placed

end CppRtos
