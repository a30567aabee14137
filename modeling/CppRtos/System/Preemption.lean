import CppRtos.System.Readying

/-! Priorities at a context switch: the ready table lists the ready tasks at the levels of
their priorities, and the running task competes only if the switch finds another one. -/
namespace CppRtos

namespace Standing

def Unlisted (v : Standing) : Prop := ∀ p < maxPrioryLevels, p ∉ v.listed

/-- The table lists nobody at another level than its own, and no running task. -/
structure Aligned (v : Standing) : Prop where
  level : ∀ p ∈ v.listed, p = v.level
  running : v.state = .eRunning → ∀ p, p ∉ v.listed
  level_le : v.level ≤ 15

namespace Aligned
variable {v : Standing} (h : Aligned v)
include h

theorem list {w : Standing} (hs : w.state ≠ .eRunning) (hl : w.level = v.level)
    (hw : w.listed ⊆ insert v.level v.listed) : Aligned w where
  level p hp := by
    rw [hl]
    rcases hw hp with rfl | hp
    · rfl
    · exact h.level p hp
  running hr := absurd hr hs
  level_le := hl.trans_le h.level_le

theorem not_mem (hun : v.Unlisted) (p : ℕ) : p ∉ v.listed := by
  intro hp
  have hle : p ≤ 15 := (h.level p hp).le.trans h.level_le
  exact hun p (Nat.lt_succ_of_le hle) hp

theorem unlisted (hl : v.level ∉ v.listed) : v.Unlisted :=
  fun p _ hp => hl (h.level p hp ▸ hp)

end Aligned

/-- Raising the priority of a task that is listed is the only way to list it wrongly. -/
theorem closed_aligned : Closed (fun _ => True) Unlisted Aligned where
  ready v hv := hv.list (by simp [ready]) rfl fun _ hp => hp
  block v hv := by
    refine hv.list (by simp [block]) rfl fun p hp => .inr ?_
    simp only [block] at hp
    split_ifs at hp
    · exact hp.1
    · exact hp
  suspend v hv _ := hv.list (by simp [suspend]) rfl fun _ hp => .inr hp
  sleep v hv _ := hv.list (by simp [sleep]) rfl fun _ hp => .inr hp
  wake v hv := hv.list (by simp [wake, ready]) rfl fun _ hp => hp
  boost v l hv hun hl :=
    ⟨fun p hp => absurd hp (hv.not_mem hun p), fun _ => hv.not_mem hun, hl.le.trans hv.level_le⟩
  run v p hv hp := by
    refine ⟨fun q hq => hv.level q hq.1, fun _ q hq => hq.2 ?_, hv.level_le⟩
    exact (hv.level q hq.1).trans (hv.level p hp).symm
  added l hl := ⟨fun p hp => hp, (by intro hr; cases hr), hl⟩

/-- A ready task is listed besides. -/
structure Accurate (v : Standing) : Prop extends Aligned v where
  ready : v.state = .eReady → v.level ∈ v.listed

theorem closed_accurate : Closed (fun _ => True) Unlisted Accurate where
  ready v hv := ⟨closed_aligned.ready v hv.toAligned, fun _ => Set.mem_insert _ _⟩
  block v hv := ⟨closed_aligned.block v hv.toAligned, fun hr => nomatch hr⟩
  suspend v hv hc := ⟨closed_aligned.suspend v hv.toAligned hc, fun hr => nomatch hr⟩
  sleep v hv hc := ⟨closed_aligned.sleep v hv.toAligned hc, fun hr => nomatch hr⟩
  wake v hv := ⟨closed_aligned.wake v hv.toAligned, fun _ => Set.mem_insert _ _⟩
  boost v l hv hun hl := by
    refine ⟨closed_aligned.boost v l hv.toAligned hun hl, fun hr => ?_⟩
    exact absurd (hv.ready hr) (hv.not_mem hun _)
  run v p hv hp := ⟨closed_aligned.run v p hv.toAligned hp, fun hr => nomatch hr⟩
  added l hl := ⟨closed_aligned.added l hl, fun _ => rfl⟩

/-- Between the first two statements of `setTaskReady`. -/
structure Roused (v : Standing) : Prop extends Aligned v where
  unrun : v.state ≠ .eRunning

theorem kept_roused : Kept (fun _ => True) Unlisted Roused where
  ready v hv := ⟨closed_aligned.ready v hv.toAligned, by simp [ready]⟩
  block v hv := ⟨closed_aligned.block v hv.toAligned, by simp [block]⟩
  suspend v hv hc := ⟨closed_aligned.suspend v hv.toAligned hc, by simp [suspend]⟩
  sleep v hv hc := ⟨closed_aligned.sleep v hv.toAligned hc, by simp [sleep]⟩
  wake v hv := ⟨closed_aligned.wake v hv.toAligned, by simp [wake, ready]⟩
  boost v l hv hun hl := ⟨closed_aligned.boost v l hv.toAligned hun hl, hv.unrun⟩

theorem split_accurate : Split Roused Accurate where
  rouse v hv := ⟨hv.toAligned.list (by simp [rouse]) rfl fun _ hp => .inr hp, by simp [rouse]⟩
  enter v hv :=
    ⟨hv.toAligned.list hv.unrun rfl fun _ hp => hp, fun _ => Set.mem_insert _ _⟩

end Standing

namespace Kernel
variable {k k' : Kernel}

instance (k : Kernel) (t : TaskPtr) : Decidable (k.standing t).Unlisted :=
  inferInstanceAs (Decidable (∀ p < maxPrioryLevels,
    ¬ k.readyBit p (k.taskData t).id = true))

/-- How the tasks stand at a context switch: the current one may be between the first two
statements of `setTaskReady`. -/
structure Seen (k : Kernel) : Prop where
  aligned : ∀ t, k.Registered t → (k.standing t).Aligned
  accurate : ∀ t, k.Registered t → t ≠ k.currentTask → (k.standing t).Accurate

end Kernel

namespace system

/-- A context switch that takes the processor from no task between the first two statements of
`setTaskReady` keeps tasks accurate. -/
theorem accurate_apply {s : State} {e : Event} (hs : Protocol.Holds Objects.Sound Objects.Local s)
    (h : StandsBut Standing.Roused Standing.Accurate s)
    (hsole : ∀ t ∈ unentered s.call, t = s.shared.kernel.currentTask)
    (hg : system.machine.guard e s) (hc : Completing e s)
    (hb : BoostsOnly Standing.Unlisted e s) :
    StandsBut Standing.Roused Standing.Accurate (system.machine.apply e s) := by
  refine h.apply Standing.kept_roused Standing.closed_accurate Standing.split_accurate hs hg hb ?_
  rintro rfl t ht
  have hcall := ht
  obtain ⟨c, hc', hun⟩ := hcall
  obtain ⟨-, hsame⟩ | ⟨p, i, v, hsw⟩ := hs.1.registry.pendSV
  · rw [hsame.standing]
    exact (h t (hs.2 t c hc').registered).1 ht
  · have hno := hc ⟨p, i, hsw.first.level_lt, hsw.first.bit⟩ c (hsole t ht ▸ hc')
    rw [hun] at hno
    cases hno

end system

end CppRtos
