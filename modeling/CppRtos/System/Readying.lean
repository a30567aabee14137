import CppRtos.Kernel.Standing
import CppRtos.System.Sound

/-! The `setTaskReady` that `signal` and `flush` call outside of any critical section: which
tasks are inside, and how tasks stand meanwhile. -/
namespace CppRtos

/-- The point between the first two statements of `setTaskReady`. -/
def Call.unentered : Call → Bool
  | .semaphore _ (.signalWord _) => true
  | _ => false

def unentered (call : TaskPtr → Option Call) : Set TaskPtr :=
  {t | ∃ c ∈ call t, c.unentered = true}

def Call.unenteredAfter (t : TaskPtr) (L : Set TaskPtr) : Call → Set TaskPtr
  | .semaphore _ .signalReady => insert t L
  | .semaphore _ (.signalWord _) => L \ {t}
  | _ => L

theorem Call.splits_cases {c : Call} (h : c.splits = true) :
    (∃ s, c = .semaphore s .signalReady) ∨ ∃ s p, c = .semaphore s (.signalWord p) := by
  cases c with
  | semaphore s c =>
    cases c with
    | signalReady => exact .inl ⟨s, rfl⟩
    | signalWord p => exact .inr ⟨s, p, rfl⟩
    | _ => cases h
  | _ => cases h

theorem Call.unenteredAfter_eq {c : Call} (h : ¬ c.splits = true) (t : TaskPtr)
    (L : Set TaskPtr) : c.unenteredAfter t L = L := by
  unfold unenteredAfter
  split
  · exact absurd rfl h
  · exact absurd rfl h
  · rfl

theorem Call.unentered_of_isEntry {t : TaskPtr} {c : Call} (h : c.isEntry t = true) :
    c.unentered = false := by
  cases c with
  | semaphore s c =>
    cases c with
    | signalWord p => cases h
    | _ => rfl
  | _ => rfl

theorem unentered_invoke {call : TaskPtr → Option Call} {t : TaskPtr} {c : Call}
    (hnone : call t = none) (hc : c.isEntry t = true) :
    unentered (Function.update call t (some c)) = unentered call := by
  ext u
  change (∃ _, _) ↔ ∃ _, _
  by_cases hut : u = t
  · subst hut
    rw [Function.update_self, hnone]
    refine iff_of_false ?_ fun ⟨_, h, _⟩ => nomatch h
    rintro ⟨c', h, hun⟩
    obtain rfl := Option.some.inj h
    rw [Call.unentered_of_isEntry hc] at hun
    cases hun
  · rw [Function.update_of_ne hut]

namespace Objects
variable {o : Objects} {t : TaskPtr} {c : Call}

/-- Only the first statement of `setTaskReady` leads to the second one. -/
theorem unentered_next {c' : Call} (h : (o.step c).2.call? = some c')
    (hun : c'.unentered = true) : ∃ s, c = .semaphore s .signalReady := by
  cases c with
  | semaphore s c =>
    rw [step, Outcome.call?_map, Option.map_eq_some_iff] at h
    obtain ⟨c', h, rfl⟩ := h
    cases c with
    | signalReady => exact ⟨s, rfl⟩
    | wait n =>
      simp only [Semaphore.step] at h
      split_ifs at h
      · cases h
      · obtain rfl := Option.some.inj h
        cases hun
    | waitRegion n e =>
      simp only [Semaphore.step] at h
      obtain ⟨-, hr⟩ | ⟨-, hr⟩ | ⟨-, hr⟩ :=
        Semaphore.waitRegion_cases o.kernel (o.semaphores s) n e <;> rw [hr] at h
      · cases h
      · cases h
      · obtain rfl := Option.some.inj h
        cases hun
    | signal | flush | signalWord p =>
      simp only [Semaphore.step] at h
      split_ifs at h <;> cases h <;> cases hun
    | waitYield | signalBitmap | signalYield =>
      obtain rfl := Option.some.inj h
      cases hun
    | waitReturn | signalReturn => cases h
  | task c | mutex i c | eventGroup i c =>
    rw [step, Outcome.call?_map, Option.map_eq_some_iff] at h
    obtain ⟨c', -, rfl⟩ := h
    cases hun

theorem unentered_step {call : TaskPtr → Option Call} (hc : call t = some c) :
    unentered (Function.update call t (o.step c).2.call?) =
      c.unenteredAfter t (unentered call) := by
  have hothers : ∀ {u}, u ≠ t → (u ∈ unentered (Function.update call t (o.step c).2.call?) ↔
      u ∈ unentered call) := by
    intro u hut
    change (∃ _ ∈ Function.update _ _ _ _, _) ↔ ∃ _ ∈ call u, _
    rw [Function.update_of_ne hut]
  have hself : t ∈ unentered (Function.update call t (o.step c).2.call?) ↔
      ∃ s, c = .semaphore s .signalReady := by
    change (∃ _ ∈ Function.update _ _ _ _, _) ↔ _
    rw [Function.update_self]
    constructor
    · rintro ⟨c', h, hun⟩
      exact unentered_next h hun
    · rintro ⟨s, rfl⟩
      exact ⟨_, rfl, rfl⟩
  ext u
  by_cases hut : u = t
  · subst hut
    rw [hself]
    by_cases hready : ∃ s, c = .semaphore s .signalReady
    · obtain ⟨s, rfl⟩ := hready
      exact iff_of_true ⟨s, rfl⟩ (Set.mem_insert u _)
    · refine iff_of_false hready fun hin => ?_
      unfold Call.unenteredAfter at hin
      split at hin
      · exact hready ⟨_, rfl⟩
      · exact hin.2 rfl
      · rename_i hword
        obtain ⟨c', hc', hun⟩ := hin
        obtain rfl := Option.some.inj (hc.symm.trans hc')
        unfold Call.unentered at hun
        split at hun
        · exact hword _ _ rfl
        · cases hun
  · rw [hothers hut]
    unfold Call.unenteredAfter
    split
    · rw [Set.mem_insert_iff, or_iff_right hut]
    · exact (and_iff_left hut).symm
    · rfl

/-- What the primitives keep, a registered task keeps through every other interrupt. -/
theorem interrupt_keeps {C D Q : Standing → Prop} (hQ : Standing.Kept C D Q) (hs : Sound o)
    {e : Interrupt} (hg : Interrupts e o) (he : e ≠ .pendSV) (ht : o.kernel.Registered t)
    (h : Q (o.kernel.standing t)) : Q ((o.interrupt e).kernel.standing t) := by
  cases e with
  | pendSV => exact absurd rfl he
  | sysTick => exact (Kernel.Effect.sysTickHandler hs.registry.alarms).keeps hQ hs.registry ht h
  | isr c => exact (isr_effect hs.entries c).1.keeps hQ hs.registry ht h
  | addTask u =>
    have hu : ¬ o.kernel.Registered u := by
      rintro ⟨i, hi⟩
      exact hg i ((hs.registry.slot_lt i u hi).trans_le hs.registry.taskCount_le) hi
    by_cases hroom : o.kernel.taskCount < maxTasks
    · have ha := Kernel.adds_addTask hroom u ((hs.registry.level_le u).trans_lt (by decide))
      change Q ((o.kernel.addTask u).standing t)
      rwa [hs.registry.standing_adds hu ha ht]
    · rwa [interrupt, Kernel.Registry.addTask_of_full hroom]

end Objects

namespace system
open Objects

/-- No context switch of the run takes the processor from a task between the first two
statements of `setTaskReady`. -/
def Completing : Event → State → Prop
  | .env .pendSV, s => s.shared.kernel.AppReady →
      ∀ c ∈ s.call s.shared.kernel.currentTask, c.unentered = false
  | _, _ => True

instance : ∀ e s, Decidable (Completing e s)
  | .env .pendSV, s => inferInstanceAs (Decidable (s.shared.kernel.AppReady →
      ∀ c ∈ s.call s.shared.kernel.currentTask, c.unentered = false))
  | .env .sysTick, _ | .env (.isr _), _ | .env (.addTask _), _ | .invoke _ _, _ | .exec _, _ =>
    inferInstanceAs (Decidable True)

/-- In such a run only the current task is there. -/
theorem sole_apply {s : State} {e : Event} (hs : Protocol.Holds Sound Local s)
    (h : ∀ t ∈ unentered s.call, t = s.shared.kernel.currentTask)
    (hg : system.machine.guard e s) (hc : Completing e s) :
    ∀ t ∈ unentered (system.machine.apply e s).call,
      t = (system.machine.apply e s).shared.kernel.currentTask := by
  intro u hu
  cases e with
  | invoke t c =>
    change u ∈ unentered (Function.update s.call t (some c)) at hu
    rw [unentered_invoke hg.1 hg.2.2.2] at hu
    exact h u hu
  | exec t =>
    obtain ⟨c, hcall, hr⟩ := Protocol.call_of_guard hg
    obtain ⟨he, -, -⟩ := step_effect (P := .all) hs.1 (hs.2 t c hcall) hr.1 (fun _ => trivial)
      (fun _ => trivial) fun _ _ => trivial
    rw [Protocol.apply_exec hcall] at hu ⊢
    refine Eq.trans ?_ he.sameTable.currentTask.symm
    have hafter : u ∈ c.unenteredAfter t (unentered s.call) := by
      rw [← unentered_step hcall]
      exact hu
    by_cases hut : u = t
    · exact hut.trans hr.1.symm
    · unfold Call.unenteredAfter at hafter
      split at hafter
      · exact h u (hafter.resolve_left hut)
      · exact h u hafter.1
      · exact h u hafter
  | env e =>
    have hin := h u hu
    by_cases he : e = .pendSV
    · subst he
      obtain ⟨c, hcall, hun⟩ := hu
      obtain ⟨-, hsame⟩ | ⟨p, i, v, hsw⟩ := hs.1.registry.pendSV
      · exact hin.trans hsame.currentTask.symm
      · have hready : s.shared.kernel.AppReady := ⟨p, i, hsw.first.level_lt, hsw.first.bit⟩
        have hno := hc hready c (hin ▸ hcall)
        rw [hun] at hno
        cases hno
    · exact hin.trans (currentTask_interrupt hs.1 he).symm

/-- A step raises the priority of an owner only if it stands as `D` says. -/
def BoostsOnly (D : Standing → Prop) : Event → State → Prop
  | .exec t, s => ∀ c ∈ s.call t, ∀ o ∈ s.shared.boosts c, D (s.shared.kernel.standing o)
  | _, _ => True

instance (D : Standing → Prop) [∀ k t, Decidable (D (Kernel.standing k t))] :
    ∀ e s, Decidable (BoostsOnly D e s)
  | .exec t, s => inferInstanceAs (Decidable (∀ c ∈ s.call t, ∀ o ∈ s.shared.boosts c,
      D (s.shared.kernel.standing o)))
  | .invoke _ _, _ => inferInstanceAs (Decidable True)
  | .env _, _ => inferInstanceAs (Decidable True)

/-- Every registered task stands as `Q` says, but one between the first two statements of
`setTaskReady` as `M`. -/
def StandsBut (M Q : Standing → Prop) (s : State) : Prop :=
  ∀ t, s.shared.kernel.Registered t →
    (t ∈ unentered s.call → M (s.shared.kernel.standing t)) ∧
      (t ∉ unentered s.call → Q (s.shared.kernel.standing t))

section
variable {D M Q : Standing → Prop} {s : State}

theorem StandsBut.exec (hM : Standing.Kept (fun _ => True) D M)
    (hQ : Standing.Kept (fun _ => True) D Q) (hsplit : Standing.Split M Q) {t : TaskPtr}
    {c : Call} (hs : Protocol.Holds Sound Local s) (hcall : s.call t = some c)
    (hr : Runs t s.shared) (hD : BoostsOnly D (.exec t) s) (h : StandsBut M Q s) :
    StandsBut M Q (system.machine.apply (.exec t) s) := by
  have hin := hs.2 t c hcall
  have hreg := hs.1.registry
  intro u hu
  rw [Protocol.apply_exec hcall] at hu ⊢
  change (u ∈ unentered (Function.update s.call t (s.shared.step c).2.call?) →
      M ((s.shared.step c).1.kernel.standing u)) ∧
    (u ∉ unentered (Function.update s.call t (s.shared.step c).2.call?) →
      Q ((s.shared.step c).1.kernel.standing u))
  rw [unentered_step hcall]
  by_cases hsp : c.splits = true
  · obtain ⟨i, rfl⟩ | ⟨i, p, rfl⟩ := Call.splits_cases hsp
    · have hu : s.shared.kernel.Registered u := hu
      have hout : t ∉ unentered s.call := by
        rintro ⟨c, hc, hun⟩
        obtain rfl := Option.some.inj (hcall.symm.trans hc)
        cases hun
      have hst : (s.shared.step (.semaphore i .signalReady)).1.kernel.standing u =
          if u = t then (s.shared.kernel.standing t).rouse else s.shared.kernel.standing u := by
        rw [← hr.1]
        exact Kernel.standing_setState _
      rw [hst, Call.unenteredAfter, Set.mem_insert_iff]
      split_ifs with hut
      · subst hut
        exact ⟨fun _ => hsplit.rouse _ ((h u hu).2 hout), fun hno => absurd (.inl rfl) hno⟩
      · rw [or_iff_right hut]
        exact h u hu
    · obtain rfl : p = t := hin.names
      have hu' := ((Kernel.sameTable_setReadyWord s.shared.kernel p).registered u).mp hu
      have hst : (s.shared.step (.semaphore i (.signalWord p))).1.kernel.standing u =
          if u = p then (s.shared.kernel.standing p).enter else s.shared.kernel.standing u :=
        hreg.tabled.standing_setReadyWord hin.registered hu'
      rw [hst, Call.unenteredAfter]
      split_ifs with hut
      · subst hut
        exact ⟨fun hno => absurd rfl hno.2,
          fun _ => hsplit.enter _ ((h u hu').1 ⟨_, hcall, rfl⟩)⟩
      · exact ⟨fun hin => (h u hu').1 hin.1, fun hno => (h u hu').2 fun hin => hno ⟨hin, hut⟩⟩
  · obtain ⟨he, -, -⟩ := step_effect (P := .of (fun _ => True) D) hs.1 hin hr.1
      (fun hsplits => absurd hsplits hsp) (fun _ => trivial) fun o ho => hD c hcall o ho
    have hu := (he.sameTable.registered u).mp hu
    rw [Call.unenteredAfter_eq hsp]
    exact ⟨fun hL => he.keeps hM hreg hu ((h u hu).1 hL),
      fun hL => he.keeps hQ hreg hu ((h u hu).2 hL)⟩

/-- What the steps and interrupts keep, if a context switch keeps `M`. -/
theorem StandsBut.apply (hM : Standing.Kept (fun _ => True) D M)
    (hQ : Standing.Closed (fun _ => True) D Q) (hsplit : Standing.Split M Q) {e : Event}
    (hs : Protocol.Holds Sound Local s) (hg : system.machine.guard e s) (hD : BoostsOnly D e s)
    (hswitch : e = .env .pendSV → ∀ t ∈ unentered s.call,
      M (s.shared.kernel.pendSVHandler.standing t))
    (h : StandsBut M Q s) : StandsBut M Q (system.machine.apply e s) := by
  cases e with
  | invoke t c =>
    intro u hu
    change (u ∈ unentered (Function.update s.call t (some c)) → _) ∧
      (u ∉ unentered (Function.update s.call t (some c)) → _)
    rw [unentered_invoke hg.1 hg.2.2.2]
    exact h u hu
  | exec t =>
    obtain ⟨c, hcall, hr⟩ := Protocol.call_of_guard hg
    exact h.exec hM hQ.toKept hsplit hs hcall hr hD
  | env e =>
    intro u hu
    obtain ⟨hm, -, -⟩ := interrupt_moves (P := .of (fun _ => True) D) hs.1 hg
    refine ⟨fun hL => ?_, fun hL => hm.keeps hQ hs.1.registry hu fun hu => (h u hu).2 hL⟩
    by_cases he : e = .pendSV
    · subst he
      exact hswitch rfl u hL
    · obtain ⟨c, hc, hun⟩ := hL
      have hreg := (hs.2 u c hc).registered
      exact interrupt_keeps hM hs.1 hg he hreg ((h u hreg).1 ⟨c, hc, hun⟩)

end

end system

end CppRtos
