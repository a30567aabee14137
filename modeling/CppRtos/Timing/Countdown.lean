import CppRtos.Timing.Timers

/-! The countdown of a timer with any periods, and with callbacks that call the timer they
belong to. Nothing refuses a period of 0, from which the countdown wraps. -/
namespace CppRtos.Timer

/-- The calls that load the countdown or leave it. -/
inductive Command where
  | start
  | stop
  | reset
  | setPeriod (periodTicks : ℕ)
deriving DecidableEq, Repr

namespace Command

/-- Periods have 32 bits. -/
def Word : Command → Prop
  | setPeriod n => n < 2 ^ 32
  | start | stop | reset => True

instance : DecidablePred Word
  | setPeriod n => inferInstanceAs (Decidable (n < 2 ^ 32))
  | start | stop | reset => inferInstanceAs (Decidable True)

def run : Command → Timer → Timer
  | start, t => t.start
  | stop, t => t.stop
  | reset, t => t.reset
  | setPeriod n, t => t.setPeriod n

/-- Whether the timer is running after the call, -/
def runningAfter (running : Bool) : Command → Bool
  | start => true
  | stop => false
  | reset | setPeriod _ => running

/-- its period, -/
def periodAfter (periodTicks : ℕ) : Command → ℕ
  | setPeriod n => n
  | start | stop | reset => periodTicks

/-- and the period with which its countdown was last loaded. -/
def loadedAfter (t : Timer) (loaded : ℕ) : Command → ℕ
  | start | reset => t.periodTicks
  | stop => loaded
  | setPeriod n => if t.running then n else loaded

end Command

def perform (cs : List Command) (t : Timer) : Timer := cs.foldl (fun t c => c.run t) t

/-- Both values of the countdown are words. -/
structure Sized (t : Timer) : Prop where
  period : t.periodTicks < 2 ^ 32
  remaining : t.remainingTicks < 2 ^ 32

variable {t : Timer}

theorem Sized.run (h : t.Sized) {c : Command} (hc : c.Word) : (c.run t).Sized := by
  cases c with
  | start => exact ⟨h.period, h.period⟩
  | stop => exact ⟨h.period, h.remaining⟩
  | reset => exact ⟨h.period, h.period⟩
  | setPeriod n =>
    unfold Command.run setPeriod
    dsimp only
    split_ifs
    · exact ⟨hc, hc⟩
    · exact ⟨hc, h.remaining⟩

theorem Sized.perform (h : t.Sized) {cs : List Command} (hcs : ∀ c ∈ cs, c.Word) :
    (Timer.perform cs t).Sized := by
  induction cs generalizing t with
  | nil => exact h
  | cons c cs ih =>
    rw [List.forall_mem_cons] at hcs
    exact ih (h.run hcs.1) hcs.2

theorem run_spec (c : Command) (t : Timer) :
    (c.run t).running = c.runningAfter t.running ∧
      (c.run t).periodTicks = c.periodAfter t.periodTicks ∧
      (c.run t).autoReload = t.autoReload := by
  cases c with
  | start => exact ⟨rfl, rfl, rfl⟩
  | stop => exact ⟨rfl, rfl, rfl⟩
  | reset => exact ⟨rfl, rfl, rfl⟩
  | setPeriod n =>
    unfold Command.run setPeriod
    dsimp only
    split_ifs <;> exact ⟨rfl, rfl, rfl⟩

theorem perform_spec (cs : List Command) (t : Timer) :
    (perform cs t).running = cs.foldl Command.runningAfter t.running ∧
      (perform cs t).periodTicks = cs.foldl Command.periodAfter t.periodTicks ∧
      (perform cs t).autoReload = t.autoReload := by
  induction cs generalizing t with
  | nil => exact ⟨rfl, rfl, rfl⟩
  | cons c cs ih =>
    obtain ⟨hrun, hperiod, hauto⟩ := ih (c.run t)
    obtain ⟨hrun', hperiod', hauto'⟩ := run_spec c t
    rw [hrun'] at hrun
    rw [hperiod'] at hperiod
    exact ⟨hrun, hperiod, hauto.trans hauto'⟩

/-! ## Runs -/

/-- A call between two ticks, or a tick; `tick cs` is one whose callback, if it is called,
makes the calls `cs`. -/
inductive Event where
  | call (c : Command)
  | tick (cs : List Command)
deriving DecidableEq, Repr

def commanding : Machine Timer Event where
  guard
    | .call c, _ => c.Word
    | .tick cs, _ => ∀ c ∈ cs, c.Word
  apply
    | .call c, t => c.run t
    | .tick cs, t => t.tick (perform cs)

instance : ∀ e t, Decidable (commanding.guard e t)
  | .call c, _ => inferInstanceAs (Decidable c.Word)
  | .tick cs, _ => inferInstanceAs (Decidable (∀ c ∈ cs, c.Word))

/-- The period with which the countdown was last loaded. An expired timer that does not reload
itself keeps what the calls of its callback have loaded. -/
def observeLoad : Event → Timer → Timer → ℕ → ℕ
  | .call c, t, _, loaded => c.loadedAfter t loaded
  | .tick cs, t, t', loaded =>
    if t.expires then
      if t.autoReload then t'.periodTicks
      else if t.callback.isSome then
        (cs.foldl (fun s c => (c.run s.1, c.loadedAfter s.1 s.2)) (t.countdown, loaded)).2
      else loaded
    else loaded

/-- A sequence of calls and ticks of a new timer, and the last load. -/
def commanded (cbck : Option ℕ) (n : ℕ) (autoReload : Bool) (arg : ℕ) (es : List Event) :
    Timer × ℕ :=
  (commanding.withHistory observeLoad).exec (new cbck n autoReload arg, n) es

/-- Between calls, a running timer has at least one tick and at most the loaded period left,
so the decrement of the next tick does not wrap. -/
structure Bounded (s : Timer × ℕ) : Prop where
  positive : s.1.running = true → 1 ≤ s.1.remainingTicks
  le_loaded : s.1.running = true → s.1.remainingTicks ≤ s.2
  decrement : s.1.running = true → s.1.countdown.remainingTicks + 1 = s.1.remainingTicks

/-- Whatever loads the countdown of a timer that is running then loads more than 0: `start` and
`setPeriod`, and the reload after the calls of the callback. -/
def LoadsPositive : Event → Timer → Prop
  | .call .start, t => t.periodTicks ≠ 0
  | .call (.setPeriod n), t => t.running = true → n ≠ 0
  | .call .stop, _ | .call .reset, _ => True
  | .tick cs, t => t.expires = true → t.autoReload = true → t.callback.isSome = true →
      cs.foldl Command.runningAfter true = true → cs.foldl Command.periodAfter t.periodTicks ≠ 0

instance : ∀ e t, Decidable (LoadsPositive e t)
  | .call .start, t => inferInstanceAs (Decidable (t.periodTicks ≠ 0))
  | .call (.setPeriod n), t => inferInstanceAs (Decidable (t.running = true → n ≠ 0))
  | .call .stop, _ | .call .reset, _ => inferInstanceAs (Decidable True)
  | .tick cs, t => inferInstanceAs (Decidable (t.expires = true → t.autoReload = true →
      t.callback.isSome = true → cs.foldl Command.runningAfter true = true →
      cs.foldl Command.periodAfter t.periodTicks ≠ 0))

/-! ## One step -/

variable {s : Timer × ℕ} {cs : List Command}

/-- What every run keeps as long as the countdown is bounded. -/
structure Sound (s : Timer × ℕ) : Prop where
  sized : s.1.Sized
  period : s.1.running = true → s.1.periodTicks ≠ 0

theorem bounded_iff (h : s.1.Sized) : Bounded s ↔
    (s.1.running = true → 1 ≤ s.1.remainingTicks ∧ s.1.remainingTicks ≤ s.2) := by
  constructor
  · intro hb hrun
    exact ⟨hb.positive hrun, hb.le_loaded hrun⟩
  · intro hin
    constructor
    · exact fun hrun => (hin hrun).1
    · exact fun hrun => (hin hrun).2
    · intro hrun
      have hpos := (hin hrun).1
      have hword := h.remaining
      unfold countdown
      dsimp only
      omega

theorem Sized.countdown (h : t.Sized) : t.countdown.Sized := by
  unfold Timer.countdown
  refine ⟨h.period, ?_⟩
  dsimp only
  omega

theorem Sized.reload (h : t.Sized) : t.reload.Sized := by
  unfold Timer.reload
  split_ifs
  · exact ⟨h.period, h.period⟩
  · exact ⟨h.period, h.remaining⟩

theorem Sized.tick (h : t.Sized) (hcs : ∀ c ∈ cs, c.Word) : (t.tick (Timer.perform cs)).Sized := by
  rw [tick_eq]
  split_ifs
  · exact (h.countdown.perform hcs).reload
  · exact h.countdown.reload
  · exact h.countdown
  · exact h

theorem tick_of_expires (h : t.expires = true) (cs : List Command) :
    ∃ u : Timer, t.tick (perform cs) = u.reload ∧ u.autoReload = t.autoReload ∧
    u.running = (if t.callback.isSome then cs.foldl Command.runningAfter true else true) ∧
    u.periodTicks = (if t.callback.isSome then cs.foldl Command.periodAfter t.periodTicks
      else t.periodTicks) := by
  obtain ⟨hrun, hzero⟩ := (expires_eq t).mp h
  obtain ⟨n, hn⟩ := t.countdown_eq
  obtain ⟨hrun', hperiod', hauto'⟩ := perform_spec cs t.countdown
  rw [tick_eq, if_pos hrun, if_pos hzero]
  rw [hn] at hrun' hperiod' hauto' ⊢
  have hsame := hrun'.trans (congrArg (fun r => cs.foldl Command.runningAfter r) hrun)
  split_ifs
  · exact ⟨_, rfl, hauto', hsame, hperiod'⟩
  · exact ⟨_, rfl, rfl, hrun, rfl⟩

theorem reload_of_autoReload (h : t.autoReload = true) :
    t.reload = { t with remainingTicks := t.periodTicks } := if_pos h

theorem reload_of_not_autoReload (h : t.autoReload = false) :
    t.reload = { t with running := false } := if_neg (by rw [h]; exact Bool.false_ne_true)

theorem tick_of_not_expires (hpos : 1 ≤ t.remainingTicks) (hword : t.remainingTicks < 2 ^ 32)
    (hrun : t.running = true) (h : t.expires = false) (invoke : Timer → Timer) :
    t.tick invoke = { t with remainingTicks := t.remainingTicks - 1 } ∧ 2 ≤ t.remainingTicks := by
  have hmore : t.remainingTicks ≠ 1 := by
    intro hone
    rw [(expires_iff ⟨hpos, hword⟩).mpr ⟨hrun, hone⟩] at h
    cases h
  have hdown : t.countdown = { t with remainingTicks := t.remainingTicks - 1 } := by
    have hsub : (t.remainingTicks + (2 ^ 32 - 1)) % 2 ^ 32 = t.remainingTicks - 1 := by omega
    unfold countdown
    rw [hsub]
  rw [tick_eq, if_pos hrun, hdown, if_neg (by dsimp only; omega)]
  exact ⟨rfl, by omega⟩

theorem observeLoad_of_not_expires (h : t.expires = false) (t' : Timer) (loaded : ℕ) :
    observeLoad (.tick cs) t t' loaded = loaded := by
  simp [observeLoad, h]

theorem observeLoad_of_reload (h : t.expires = true) (ha : t.autoReload = true) (t' : Timer)
    (loaded : ℕ) : observeLoad (.tick cs) t t' loaded = t'.periodTicks := by
  simp [observeLoad, h, ha]

/-- A countdown that is bounded stays so in exactly the steps that load more than 0. -/
theorem Sound.bounded_apply (h : Sound s) (hb : Bounded s) {e : Event}
    (hg : commanding.guard e s.1) :
    ((commanding.withHistory observeLoad).apply e s).1.Sized ∧
      (Bounded ((commanding.withHistory observeLoad).apply e s) ↔ LoadsPositive e s.1) := by
  obtain ⟨t, loaded⟩ := s
  have hsized : t.Sized := h.sized
  cases e with
  | call c =>
    have hsized' : (c.run t).Sized := hsized.run hg
    refine ⟨hsized', ?_⟩
    show Bounded (c.run t, c.loadedAfter t loaded) ↔ LoadsPositive (.call c) t
    rw [bounded_iff hsized']
    cases c with
    | start =>
      show (true = true → 1 ≤ t.periodTicks ∧ t.periodTicks ≤ t.periodTicks) ↔ t.periodTicks ≠ 0
      simp [Nat.one_le_iff_ne_zero]
    | stop => exact iff_of_true (fun hr => by cases hr) trivial
    | reset =>
      refine iff_of_true (fun hr => ?_) trivial
      exact ⟨Nat.one_le_iff_ne_zero.mpr (h.period hr), le_rfl⟩
    | setPeriod n =>
      show ((t.setPeriod n).running = true → 1 ≤ (t.setPeriod n).remainingTicks ∧
        (t.setPeriod n).remainingTicks ≤ if t.running = true then n else loaded) ↔
          (t.running = true → n ≠ 0)
      unfold setPeriod
      dsimp only
      cases hrun : t.running with
      | false => simp
      | true => simp [Nat.one_le_iff_ne_zero]
  | tick cs =>
    have hsized' : (t.tick (perform cs)).Sized := hsized.tick hg
    refine ⟨hsized', ?_⟩
    cases hexp : t.expires with
    | false =>
      have hload : LoadsPositive (.tick cs) t := fun he => absurd (hexp.symm.trans he) (by decide)
      refine iff_of_true ?_ hload
      show Bounded (t.tick (perform cs), observeLoad (.tick cs) t (t.tick (perform cs)) loaded)
      rw [observeLoad_of_not_expires hexp]
      cases hrun : t.running with
      | false =>
        rw [tick_of_stopped hrun]
        exact hb
      | true =>
        have hpos : 1 ≤ t.remainingTicks := hb.positive hrun
        have hle : t.remainingTicks ≤ loaded := hb.le_loaded hrun
        obtain ⟨htick, htwo⟩ := tick_of_not_expires hpos hsized.remaining hrun hexp (perform cs)
        rw [bounded_iff hsized', htick]
        intro _
        dsimp only
        omega
    | true =>
      obtain ⟨u, htick, hauto, hrunning, hperiod⟩ := tick_of_expires hexp cs
      show Bounded (t.tick (perform cs), observeLoad (.tick cs) t (t.tick (perform cs)) loaded) ↔ _
      rw [bounded_iff hsized']
      dsimp only
      cases ha : t.autoReload with
      | false =>
        rw [htick, reload_of_not_autoReload (hauto.trans ha)]
        refine iff_of_true (fun hr => by cases hr) fun _ hr => ?_
        exact absurd (ha.symm.trans hr) (by decide)
      | true =>
        rw [observeLoad_of_reload hexp ha, htick, reload_of_autoReload (hauto.trans ha)]
        dsimp only
        rw [hrunning, hperiod]
        constructor
        · intro hin _ _ hsome hrun
          rw [if_pos hsome, if_pos hsome] at hin
          exact Nat.one_le_iff_ne_zero.mp (hin hrun).1
        · intro hloads hrun
          refine ⟨Nat.one_le_iff_ne_zero.mpr ?_, le_rfl⟩
          cases hsome : t.callback.isSome with
          | false =>
            rw [if_neg Bool.false_ne_true]
            exact h.period ((expires_eq t).mp hexp).1
          | true =>
            rw [hsome, if_pos rfl] at hrun
            rw [if_pos rfl]
            exact hloads hexp ha hsome hrun

/-- A timer that is running after a step has been running before or has been loaded with its
period. -/
theorem Sound.apply (h : Sound s) (hb : Bounded s) {e : Event} (hg : commanding.guard e s.1)
    (hnext : Bounded ((commanding.withHistory observeLoad).apply e s)) :
    Sound ((commanding.withHistory observeLoad).apply e s) := by
  refine ⟨(h.bounded_apply hb hg).1, fun hrun => ?_⟩
  have hpositive := Nat.one_le_iff_ne_zero.mp (hnext.positive hrun)
  obtain ⟨t, loaded⟩ := s
  cases e with
  | call c =>
    cases c with
    | start => exact hpositive
    | stop => cases hrun
    | reset => exact hpositive
    | setPeriod n =>
      change (t.setPeriod n).remainingTicks ≠ 0 at hpositive
      change (t.setPeriod n).running = true at hrun
      change (t.setPeriod n).periodTicks ≠ 0
      unfold setPeriod at hpositive hrun ⊢
      dsimp only at hpositive hrun ⊢
      cases hrunning : t.running with
      | true =>
        rw [if_pos hrunning] at hpositive
        exact hpositive
      | false =>
        rw [if_neg (Bool.not_eq_true _ ▸ hrunning), hrunning] at hrun
        cases hrun
  | tick cs =>
    change (t.tick (perform cs)).remainingTicks ≠ 0 at hpositive
    change (t.tick (perform cs)).running = true at hrun
    change (t.tick (perform cs)).periodTicks ≠ 0
    cases hexp : t.expires with
    | true =>
      obtain ⟨u, htick, -⟩ := tick_of_expires hexp cs
      rw [htick] at hpositive hrun ⊢
      cases ha : u.autoReload with
      | true =>
        rw [reload_of_autoReload ha] at hpositive ⊢
        exact hpositive
      | false =>
        rw [reload_of_not_autoReload ha] at hrun
        cases hrun
    | false =>
      cases hrunning : t.running with
      | true =>
        obtain ⟨htick, -⟩ := tick_of_not_expires (hb.positive hrunning) h.sized.remaining hrunning
          hexp (perform cs)
        rw [htick]
        exact h.period hrunning
      | false =>
        rw [tick_of_stopped hrunning] at hrun
        exact absurd (hrunning.symm.trans hrun) Bool.false_ne_true

/-! ## Runs of a timer -/

theorem sound_new (cbck : Option ℕ) {n : ℕ} (hn : n < 2 ^ 32) (autoReload : Bool) (arg : ℕ) :
    Sound (new cbck n autoReload arg, n) := ⟨⟨hn, hn⟩, fun hrun => by cases hrun⟩

theorem bounded_new (cbck : Option ℕ) {n : ℕ} (hn : n < 2 ^ 32) (autoReload : Bool) (arg : ℕ) :
    Bounded (new cbck n autoReload arg, n) := by
  rw [bounded_iff (sound_new cbck hn autoReload arg).sized]
  intro hrun
  cases hrun

/-- The countdown stays between 1 and the loaded period exactly in the runs in which no running
timer is loaded with a period of 0. -/
theorem countdown_bounded_iff (cbck : Option ℕ) {n : ℕ} (hn : n < 2 ^ 32) (autoReload : Bool)
    (arg : ℕ) {es : List Event} (hes : commanding.Valid (new cbck n autoReload arg) es) :
    (∀ fs, fs <+: es → Bounded (commanded cbck n autoReload arg fs)) ↔
      (commanding.restrict LoadsPositive).Valid (new cbck n autoReload arg) es := by
  have hvalid := (Machine.valid_withHistory commanding observeLoad
    (new cbck n autoReload arg, n) es).mpr hes
  have hall : (∀ fs, fs <+: es → Bounded (commanded cbck n autoReload arg fs)) ↔
      ((commanding.withHistory observeLoad).restrict fun e s => LoadsPositive e s.1).Valid
        (new cbck n autoReload arg, n) es :=
    Machine.forall_prefix_iff (I := Sound) (fun e s hs hb hg hnext => hs.apply hb hg hnext)
      (fun e s hs hb hg => (hs.bounded_apply hb hg).2) (sound_new cbck hn autoReload arg)
      (bounded_new cbck hn autoReload arg) hvalid
  exact hall.trans (Machine.valid_withHistory (commanding.restrict LoadsPositive) observeLoad
    (new cbck n autoReload arg, n) es)

/-- An auto-reload timer whose callback shortens its period and restarts it. -/
theorem countdown_bounded_restarted :
    Bounded (commanded (some 0) 2 true 0
      [.call .start, .tick [], .tick [.setPeriod 1, .start], .tick [.stop], .call .start]) := by
  have hvalid : commanding.Valid (new (some 0) 2 true 0)
      [.call .start, .tick [], .tick [.setPeriod 1, .start], .tick [.stop], .call .start] := by
    decide
  exact (countdown_bounded_iff (some 0) (by decide) true 0 hvalid).mpr (by decide) _ List.prefix_rfl

/-- A timer that is started with a period of 0 wraps in the first tick and is running for
2 ^ 32 ticks. -/
theorem start_wraps :
    ¬ Bounded (commanded none 0 false 0 [.call .start]) ∧
      (commanded none 0 false 0 [.call .start, .tick []]).1.running = true ∧
      (commanded none 0 false 0 [.call .start, .tick []]).1.remainingTicks = 2 ^ 32 - 1 := by
  refine ⟨fun hb => ?_, rfl, rfl⟩
  exact absurd (hb.positive rfl) (by decide)

end CppRtos.Timer
