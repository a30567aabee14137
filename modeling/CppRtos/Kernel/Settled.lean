import CppRtos.Kernel.Standing

/-! Standings in which a task is in one place: ready and listed once, asleep, blocked or
running. Steps that take a task out of the right place keep it in one. -/
namespace CppRtos

namespace Standing

structure Settled (v : Standing) : Prop where
  ready : v.state = .eReady → ∃ p, p ∈ v.listed
  listed : ∀ p ∈ v.listed, v.state = .eReady
  unique : ∀ p ∈ v.listed, ∀ q ∈ v.listed, p = q
  above : ∀ p ∈ v.listed, p < 15 ∨ p = 15 ∧ v.level = 15
  asleep : v.asleep = true ↔ v.state = .eSleeping
  unsuspended : v.state ≠ .eSuspended
  level_le : v.level ≤ 15

/-- Between the first two statements of `setTaskReady`: ready and not listed. -/
structure Unentered (v : Standing) : Prop where
  state : v.state = .eReady
  unlisted : ∀ p, p ∉ v.listed
  awake : v.asleep = false
  level_le : v.level ≤ 15

namespace Unentered
variable {v : Standing} (h : Unentered v)
include h

theorem toEnter : Settled v.enter where
  ready _ := ⟨v.level, Set.mem_insert _ _⟩
  listed _ _ := h.state
  unique p hp q hq := by
    rw [hp.resolve_right (h.unlisted p), hq.resolve_right (h.unlisted q)]
  above p hp := by
    rw [hp.resolve_right (h.unlisted p)]
    have hle := h.level_le
    change v.level < 15 ∨ v.level = 15 ∧ v.level = 15
    omega
  asleep := by simp [enter, h.awake, h.state]
  unsuspended := by simp [enter, h.state]
  level_le := h.level_le

theorem toBoost {l : ℕ} (hlt : l < v.level) : Unentered { v with level := l } :=
  ⟨h.state, h.unlisted, h.awake, hlt.le.trans h.level_le⟩

end Unentered

namespace Settled
variable {v : Standing} (h : Settled v)
include h

theorem unlisted (hs : v.state ≠ .eReady) (p : ℕ) : p ∉ v.listed :=
  fun hp => hs (h.listed p hp)

theorem toReady (hs : v.state ≠ .eReady) (ha : v.state ≠ .eSleeping) : Settled v.ready where
  ready _ := ⟨v.level, Set.mem_insert _ _⟩
  listed _ _ := rfl
  unique p hp q hq := by
    rw [hp.resolve_right (h.unlisted hs p), hq.resolve_right (h.unlisted hs q)]
  above p hp := by
    rw [hp.resolve_right (h.unlisted hs p)]
    have hle := h.level_le
    change v.level < 15 ∨ v.level = 15 ∧ v.level = 15
    omega
  asleep := iff_of_false (fun hb => ha (h.asleep.mp hb)) (by simp [Standing.ready])
  unsuspended := by simp [Standing.ready]
  level_le := h.level_le

theorem toRouse (hs : v.state = .eRunning) : Unentered v.rouse where
  state := rfl
  unlisted := h.unlisted (by simp [hs])
  awake := by
    rw [rouse, ← Bool.not_eq_true, h.asleep, hs]
    decide
  level_le := h.level_le

theorem of_unlisted {w : Standing} (hs : v.state ≠ .eReady) (hw : ∀ p ∈ w.listed, p ∈ v.listed)
    (hstate : w.state ≠ .eReady) (ha : w.asleep = true ↔ w.state = .eSleeping)
    (hsus : w.state ≠ .eSuspended) (hl : w.level ≤ 15) : Settled w where
  ready hr := absurd hr hstate
  listed p hp := absurd (hw p hp) (h.unlisted hs p)
  unique p hp := absurd (hw p hp) (h.unlisted hs p)
  above p hp := absurd (hw p hp) (h.unlisted hs p)
  asleep := ha
  unsuspended := hsus
  level_le := hl

theorem toBlock (hs : v.state = .eRunning) : Settled v.block := by
  have hne : v.state ≠ .eReady := by simp [hs]
  refine h.of_unlisted hne (fun p hp => ?_) (by simp [Standing.block]) ?_ (by simp [Standing.block])
    h.level_le
  · simpa only [Standing.block, if_neg hne] using hp
  · exact iff_of_false (fun hb => absurd (h.asleep.mp hb) (by simp [hs])) (by simp [Standing.block])

theorem toSuspend (hs : v.state = .eRunning) : Settled v.suspend := by
  refine h.of_unlisted (by simp [hs]) (fun p hp => hp) (by simp [Standing.suspend]) ?_
    (by simp [Standing.suspend]) h.level_le
  exact iff_of_false (fun hb => absurd (h.asleep.mp hb) (by simp [hs])) (by simp [Standing.suspend])

theorem toSleep (hs : v.state = .eRunning) : Settled v.sleep :=
  h.of_unlisted (by simp [hs]) (fun p hp => hp) (by simp [Standing.sleep])
    (iff_of_true rfl rfl) (by simp [Standing.sleep]) h.level_le

theorem toWake (ha : v.asleep = true) : Settled v.wake := by
  have hs := h.asleep.mp ha
  have hno := h.unlisted (by simp [hs])
  constructor
  · exact fun _ => ⟨v.level, Set.mem_insert _ _⟩
  · exact fun _ _ => rfl
  · intro p hp q hq
    rw [hp.resolve_right (hno p), hq.resolve_right (hno q)]
  · intro p hp
    rw [hp.resolve_right (hno p)]
    have hle := h.level_le
    change v.level < 15 ∨ v.level = 15 ∧ v.level = 15
    omega
  · exact iff_of_false (by simp [Standing.wake]) (by simp [Standing.wake, Standing.ready])
  · simp [Standing.wake, Standing.ready]
  · exact h.level_le

theorem toBoost (hl : v.level < 15) {l : ℕ} (hlt : l < v.level) :
    Settled { v with level := l } where
  ready := h.ready
  listed := h.listed
  unique := h.unique
  above p hp := (h.above p hp).imp_right fun he => absurd he.2 hl.ne
  asleep := h.asleep
  unsuspended := h.unsuspended
  level_le := by
    dsimp only
    omega

theorem toRun {p : ℕ} (hp : p ∈ v.listed) : Settled (v.run p) := by
  have hs := h.listed p hp
  have hno : ∀ q, q ∉ (v.run p).listed := fun q hq => hq.2 (h.unique q hq.1 p hp)
  refine ⟨fun hr => (nomatch hr), fun q hq => absurd hq (hno q), fun q hq => absurd hq (hno q),
    fun q hq => absurd hq (hno q), iff_of_false (fun hb => ?_) (by simp [run]), by simp [run],
    h.level_le⟩
  exact absurd (h.asleep.mp hb) (by simp [hs])

end Settled

theorem settled_fresh {l : ℕ} (hl : l ≤ 15) : Settled ⟨.eReady, l, {l}, false⟩ where
  ready _ := ⟨l, rfl⟩
  listed _ _ := rfl
  unique p hp q hq := hp.trans hq.symm
  above p hp := by
    have he : p = l := hp
    dsimp only
    omega
  asleep := by simp
  unsuspended := by simp
  level_le := hl

end Standing

end CppRtos
