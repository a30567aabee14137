import CppRtos.Library.Cyclic
import CppRtos.Library.Machine
import CppRtos.Timing
import Mathlib.Algebra.Order.Floor.Div
import Mathlib.Data.Nat.ModEq

/-! The firing times of a timer, and what becomes of requests that its callback makes. -/
namespace CppRtos.Timer

variable {t : Timer}

def fires (t : Timer) : Bool := t.expires && t.callback.isSome

/-- What `tick` does after the callback has returned. -/
def reload (t : Timer) : Timer :=
  if t.autoReload then { t with remainingTicks := t.periodTicks } else { t with running := false }

theorem tick_of_stopped (h : t.running = false) (invoke : Timer → Timer) :
    t.tick invoke = t := by
  unfold tick
  rw [h]
  exact if_neg Bool.false_ne_true

theorem countdown_eq (t : Timer) : ∃ n, t.countdown = { t with remainingTicks := n } := ⟨_, rfl⟩

theorem expires_eq (t : Timer) :
    t.expires = true ↔ t.running = true ∧ t.countdown.remainingTicks = 0 := by
  unfold expires
  rw [Bool.and_eq_true, beq_iff_eq]

theorem tick_eq (t : Timer) (invoke : Timer → Timer) : t.tick invoke =
    if t.running = true then
      if t.countdown.remainingTicks = 0 then
        (if t.callback.isSome = true then invoke t.countdown else t.countdown).reload
      else t.countdown
    else t := by
  obtain ⟨n, hn⟩ := t.countdown_eq
  unfold tick
  rw [hn]
  rfl

theorem tick_of_fires (h : t.fires = true) (invoke : Timer → Timer) :
    t.tick invoke = (invoke t.countdown).reload := by
  unfold fires at h
  rw [Bool.and_eq_true, expires_eq] at h
  obtain ⟨⟨hrun, hzero⟩, hsome⟩ := h
  rw [tick_eq, if_pos hrun, if_pos hzero, if_pos hsome]

/-- A tick calls the callback once if the timer fires, and else nothing of the callback is seen
in what the tick does. -/
theorem tick_eq_of_fires (t : Timer) (invoke : Timer → Timer) :
    t.tick invoke = if t.fires = true then (invoke t.countdown).reload else t.tick id := by
  by_cases hfires : t.fires = true
  · rw [if_pos hfires, tick_of_fires hfires]
  · rw [if_neg hfires, tick_eq, tick_eq]
    unfold fires at hfires
    rw [Bool.and_eq_true, expires_eq] at hfires
    split_ifs with hrun hzero hsome
    · exact absurd ⟨⟨hrun, hzero⟩, hsome⟩ hfires
    · rfl
    · rfl
    · rfl

/-- Periods are positive and have 32 bits. -/
def Period (n : ℕ) : Prop := 1 ≤ n ∧ n < 2 ^ 32

instance (n : ℕ) : Decidable (Period n) := inferInstanceAs (Decidable (_ ∧ _))

theorem expires_iff (h : Period t.remainingTicks) :
    t.expires = true ↔ t.running = true ∧ t.remainingTicks = 1 := by
  obtain ⟨hpos, hword⟩ := h
  rw [expires_eq]
  unfold countdown
  dsimp only
  have hzero : (t.remainingTicks + (2 ^ 32 - 1)) % 2 ^ 32 = 0 ↔ t.remainingTicks = 1 := by omega
  rw [hzero]

theorem fires_iff (hcallback : t.callback.isSome = true) (h : Period t.remainingTicks) :
    t.fires = true ↔ t.running = true ∧ t.remainingTicks = 1 := by
  unfold fires
  rw [hcallback, Bool.and_true]
  exact expires_iff h

theorem tick_id (h : Period t.remainingTicks) (hrun : t.running = true) :
    t.tick id = if t.remainingTicks = 1 then ({ t with remainingTicks := 0 } : Timer).reload
      else { t with remainingTicks := t.remainingTicks - 1 } := by
  obtain ⟨hpos, hword⟩ := h
  have hdown : t.countdown = { t with remainingTicks := t.remainingTicks - 1 } := by
    have hsub : (t.remainingTicks + (2 ^ 32 - 1)) % 2 ^ 32 = t.remainingTicks - 1 := by omega
    unfold countdown
    rw [hsub]
  rw [tick_eq, if_pos hrun, hdown]
  dsimp only [id]
  rw [ite_self]
  by_cases hone : t.remainingTicks = 1
  · rw [if_pos (by omega), if_pos hone, hone]
  · rw [if_neg (by omega), if_neg hone]

/-! ## Operations, and the countdown as the ticks since the last load -/

inductive Operation where
  | start
  | stop
  | reset
  | setPeriod (periodTicks : ℕ)
  | tick
deriving DecidableEq, Repr

/-- Calls on a timer whose callback does not touch it. -/
def timing : Machine Timer Operation where
  guard
    | .setPeriod n, _ => Period n
    | _, _ => True
  apply
    | .start, t => t.start
    | .stop, t => t.stop
    | .reset, t => t.reset
    | .setPeriod n, t => t.setPeriod n
    | .tick, t => t.tick id

/-- The ticks since the countdown was last loaded, and the period in force at that load. -/
structure Load where
  since : ℕ
  period : ℕ

/-- The countdown is loaded by `start`, `reset`, `setPeriod` while the timer is running, and
when the timer expires and reloads itself. -/
def observe : Operation → Timer → Timer → Load → Load
  | .start, t, _, _ | .reset, t, _, _ => ⟨0, t.periodTicks⟩
  | .stop, _, _, l => l
  | .setPeriod n, t, _, l => if t.running then ⟨0, n⟩ else l
  | .tick, t, _, l =>
    if t.expires && t.autoReload then ⟨0, t.periodTicks⟩ else ⟨l.since + 1, l.period⟩

def after (cbck : ℕ) (n : ℕ) (autoReload : Bool) (arg : ℕ) (es : List Operation) : Timer × Load :=
  (timing.withHistory observe).exec (new (some cbck) n autoReload arg, ⟨0, n⟩) es

/-- While the timer runs, the remaining ticks and those since the load make up the period. -/
structure Counts (s : Timer × Load) : Prop where
  callback : s.1.callback.isSome = true
  period : Period s.1.periodTicks
  remaining : s.1.running = true → Period s.1.remainingTicks
  sum : s.1.running = true → s.1.remainingTicks + s.2.since = s.2.period

theorem Counts.apply {s : Timer × Load} (h : Counts s) {e : Operation}
    (hg : (timing.withHistory observe).guard e s) :
    Counts ((timing.withHistory observe).apply e s) := by
  obtain ⟨t, l⟩ := s
  have hperiod : Period t.periodTicks := h.period
  cases e with
  | start => exact ⟨h.callback, h.period, fun _ => h.period, fun _ => rfl⟩
  | stop => exact ⟨h.callback, h.period, fun hr => (by cases hr), fun hr => (by cases hr)⟩
  | reset => exact ⟨h.callback, h.period, fun _ => h.period, fun _ => rfl⟩
  | setPeriod n =>
    have hn : Period n := hg
    show Counts (t.setPeriod n, if t.running then ⟨0, n⟩ else l)
    unfold setPeriod
    dsimp only
    cases hrun : t.running with
    | true => exact ⟨h.callback, hn, fun _ => hn, fun _ => rfl⟩
    | false =>
      rw [if_neg Bool.false_ne_true, if_neg Bool.false_ne_true]
      constructor
      · exact h.callback
      · exact hn
      · intro hr
        cases hr
      · intro hr
        cases hr
  | tick =>
    show Counts (t.tick id, if t.expires && t.autoReload then ⟨0, t.periodTicks⟩
      else ⟨l.since + 1, l.period⟩)
    cases hrun : t.running with
    | false =>
      rw [tick_of_stopped hrun]
      constructor
      · exact h.callback
      · exact hperiod
      · intro hr
        exact absurd (hrun.symm.trans hr) Bool.false_ne_true
      · intro hr
        exact absurd (hrun.symm.trans hr) Bool.false_ne_true
    | true =>
      have hrem : Period t.remainingTicks := h.remaining hrun
      have hsum : t.remainingTicks + l.since = l.period := h.sum hrun
      rw [tick_id hrem hrun]
      by_cases hone : t.remainingTicks = 1
      · have hexp : t.expires = true := (expires_iff hrem).mpr ⟨hrun, hone⟩
        rw [if_pos hone, hexp, Bool.true_and]
        unfold reload
        dsimp only
        cases t.autoReload with
        | true => exact ⟨h.callback, hperiod, fun _ => hperiod, fun _ => rfl⟩
        | false => exact ⟨h.callback, hperiod, fun hr => (by cases hr), fun hr => (by cases hr)⟩
      · have hexp : t.expires = false := by
          rw [Bool.eq_false_iff]
          exact fun he => hone ((expires_iff hrem).mp he).2
        rw [if_neg hone, hexp, Bool.false_and, if_neg Bool.false_ne_true]
        obtain ⟨hpos, hword⟩ := hrem
        refine ⟨h.callback, hperiod, fun _ => ⟨?_, ?_⟩, fun _ => ?_⟩ <;> dsimp only <;> omega

theorem Counts.fires_iff {s : Timer × Load} (h : Counts s) :
    s.1.fires = true ↔ s.1.running = true ∧ s.2.since + 1 = s.2.period := by
  cases hrun : s.1.running with
  | false =>
    unfold fires expires
    rw [hrun]
    simp
  | true =>
    have hsum := h.sum hrun
    rw [Timer.fires_iff h.callback (h.remaining hrun), hrun]
    constructor
    · exact fun hone => ⟨rfl, by omega⟩
    · exact fun hlast => ⟨rfl, by omega⟩

theorem counts_after {cbck n : ℕ} (hn : Period n) {autoReload : Bool} {arg : ℕ}
    {es : List Operation} (h : timing.Valid (new (some cbck) n autoReload arg) es) :
    Counts (after cbck n autoReload arg es) := by
  have hvalid := (timing.valid_withHistory observe
    (new (some cbck) n autoReload arg, ⟨0, n⟩) es).mpr h
  refine Machine.invariant (M := timing.withHistory observe) (fun e s hs hg => hs.apply hg) ?_
    hvalid
  exact ⟨rfl, hn, fun hr => (by cases hr), fun hr => (by cases hr)⟩

/-! ## A timer that is started and left alone -/

def firings (t : Timer) : ℕ → ℕ
  | 0 => 0
  | k + 1 => t.firings k + if ((tick id)^[k] t).fires then 1 else 0

section
variable (hcallback : t.callback.isSome = true) (hperiod : Period t.periodTicks)
include hcallback hperiod

theorem ticks_reloading (ha : t.autoReload = true) (k : ℕ) :
    (tick id)^[k] t.start =
      { t with running := true, remainingTicks := t.periodTicks - k % t.periodTicks } ∧
      t.start.firings k = k / t.periodTicks := by
  obtain ⟨hpos, hword⟩ := hperiod
  induction k with
  | zero =>
    constructor
    · rw [Nat.zero_mod]
      rfl
    · rw [Nat.zero_div]
      rfl
  | succ k ih =>
    obtain ⟨hstate, hcount⟩ := ih
    have hlt := Nat.mod_lt k hpos
    have hnext : (k + 1) % t.periodTicks =
        if t.periodTicks ≤ k % t.periodTicks + 1 then 0 else k % t.periodTicks + 1 := by
      rw [← Cyclic.succ_eq hlt]
      exact (Nat.mod_add_mod k t.periodTicks 1).symm
    set r := t.periodTicks - k % t.periodTicks with hr
    have hrem : Period r := ⟨by omega, by omega⟩
    have htick := tick_id (t := { t with running := true, remainingTicks := r }) hrem rfl
    have hfires := fires_iff (t := { t with running := true, remainingTicks := r }) hcallback hrem
    have hlast : r = 1 ↔ t.periodTicks ∣ k + 1 := by
      rw [Nat.dvd_iff_mod_eq_zero, hnext]
      split_ifs with hround
      · exact iff_of_true (by omega) rfl
      · exact iff_of_false (by omega) not_false
    dsimp only at hfires
    rw [hlast, eq_self, true_and] at hfires
    unfold firings
    rw [Function.iterate_succ_apply', hstate, htick, hcount, Nat.succ_div]
    refine ⟨?_, by simp only [hfires]⟩
    by_cases hone : r = 1
    · have hround : t.periodTicks ≤ k % t.periodTicks + 1 := by omega
      rw [if_pos hone, hnext, if_pos hround]
      unfold reload
      rw [if_pos ha, Nat.sub_zero]
    · have hround : ¬ t.periodTicks ≤ k % t.periodTicks + 1 := by omega
      rw [if_neg hone, hnext, if_neg hround, hr, Nat.sub_sub]

theorem ticks_once (ha : t.autoReload = false) (k : ℕ) :
    (tick id)^[k] t.start =
      { t with running := decide (k < t.periodTicks), remainingTicks := t.periodTicks - k } ∧
      t.start.firings k = min 1 (k / t.periodTicks) := by
  obtain ⟨hpos, hword⟩ := hperiod
  induction k with
  | zero =>
    constructor
    · rw [decide_eq_true (by omega), Nat.sub_zero]
      rfl
    · rw [Nat.zero_div]
      rfl
  | succ k ih =>
    obtain ⟨hstate, hcount⟩ := ih
    unfold firings
    rw [Function.iterate_succ_apply', hstate, hcount]
    by_cases hk : k < t.periodTicks
    · have hrem : Period (t.periodTicks - k) := ⟨by omega, by omega⟩
      rw [decide_eq_true hk]
      have htick := tick_id (t := { t with running := true, remainingTicks := t.periodTicks - k })
        hrem rfl
      have hfires := fires_iff (t := { t with running := true
                                              remainingTicks := t.periodTicks - k }) hcallback hrem
      dsimp only at hfires
      rw [eq_self, true_and] at hfires
      rw [htick, Nat.div_eq_of_lt hk]
      by_cases hone : t.periodTicks - k = 1
      · have hlast : k + 1 = t.periodTicks := by omega
        constructor
        · rw [if_pos hone, decide_eq_false (by omega)]
          unfold reload
          rw [if_neg (by rw [ha]; exact Bool.false_ne_true)]
          have hzero : t.periodTicks - (k + 1) = 0 := by omega
          rw [hzero]
        · rw [if_pos (hfires.mpr hone), hlast, Nat.div_self hpos]
          rfl
      · constructor
        · rw [if_neg hone, decide_eq_true (by omega)]
          rw [Nat.sub_sub]
        · rw [if_neg fun hf => hone (hfires.mp hf), Nat.div_eq_of_lt (by omega)]
          rfl
    · have hnot : ({ t with running := false, remainingTicks := t.periodTicks - k } : Timer).fires =
          false := rfl
      have hge : 1 ≤ k / t.periodTicks := (Nat.one_le_div_iff hpos).mpr (by omega)
      have hge' : 1 ≤ (k + 1) / t.periodTicks := (Nat.one_le_div_iff hpos).mpr (by omega)
      rw [decide_eq_false hk, tick_of_stopped rfl, hnot, if_neg Bool.false_ne_true,
        Nat.min_eq_left hge, Nat.min_eq_left hge']
      constructor
      · have hzero : t.periodTicks - k = 0 := by omega
        have hzero' : t.periodTicks - (k + 1) = 0 := by omega
        rw [decide_eq_false (by omega), hzero, hzero']
      · rfl

end

/-- A tick calls the callback, and calls it once, exactly if the timer is running and this is the
last tick of the period it was loaded with. A timer that is started and left alone fires once in
every period, and in the ticks in which it fires it calls the callback. -/
theorem period_exact {cbck n : ℕ} (hn : Period n) {autoReload : Bool} {arg : ℕ}
    {es : List Operation} (h : timing.Valid (new (some cbck) n autoReload arg) es) :
    let s := after cbck n autoReload arg es
    (∀ invoke, s.1.tick invoke = if s.1.running = true ∧ s.2.since + 1 = s.2.period then
        (invoke s.1.countdown).reload else s.1.tick id) ∧
    (∀ (u : Timer) invoke, u.tick invoke = if u.fires = true then
        (invoke u.countdown).reload else u.tick id) ∧
    (s.1.fires = true ↔ s.1.running = true ∧ s.2.since + 1 = s.2.period) ∧
    ∀ k, s.1.start.firings k = (if s.1.autoReload then k / s.1.periodTicks
        else min 1 (k / s.1.periodTicks)) ∧
      (s.1.autoReload = false → s.1.periodTicks ≤ k →
        ((tick id)^[k] s.1.start).running = false) := by
  have hs := counts_after hn h
  generalize after cbck n autoReload arg es = s at hs
  refine ⟨?_, tick_eq_of_fires, hs.fires_iff, ?_⟩
  · intro invoke
    exact (tick_eq_of_fires s.1 invoke).trans (if_congr hs.fires_iff rfl rfl)
  · intro k
    cases ha : s.1.autoReload with
    | true =>
      obtain ⟨-, hcount⟩ := ticks_reloading hs.callback hs.period ha k
      exact ⟨hcount, fun hf => (by cases hf)⟩
    | false =>
      obtain ⟨hstate, hcount⟩ := ticks_once hs.callback hs.period ha k
      refine ⟨hcount, fun _ hk => ?_⟩
      rw [hstate]
      exact decide_eq_false (by omega)

/-- The period of a running timer of period 3 is changed to 2 after one tick. -/
theorem period_exact_changed :
    let s := after 7 3 true 0 [.start, .tick, .setPeriod 2, .tick]
    (∀ invoke, s.1.tick invoke = (invoke s.1.countdown).reload) ∧
      s.1.fires = true ∧ s.1.start.firings 5 = 2 := by
  have hvalid : timing.Valid (new (some 7) 3 true 0) [.start, .tick, .setPeriod 2, .tick] :=
    ⟨trivial, trivial, ⟨by decide, by decide⟩, trivial, trivial⟩
  obtain ⟨htick, -, hfires, hcount⟩ := period_exact (by decide) hvalid
  refine ⟨fun invoke => (htick invoke).trans (if_pos ?_), by decide, (hcount 5).1⟩
  exact hfires.mp (by decide)

/-! ## Requests of the callback -/

/-- Calls that a callback makes on its own timer. -/
inductive Request where
  | start
  | stop
  | setPeriod (periodTicks : ℕ)
deriving DecidableEq, Repr

def request : Request → Timer → Timer
  | .start, t => t.start
  | .stop, t => t.stop
  | .setPeriod n, t => t.setPeriod n

/-- The effect of a callback that makes the given requests. -/
def serve (rs : List Request) (t : Timer) : Timer := rs.foldl (fun t r => request r t) t

/-- Whether the last `start` or `stop` among the requests is a `start`, if there is any. -/
def lastSwitch (rs : List Request) : Option Bool :=
  rs.foldl (fun last r => match r with
    | .start => some true
    | .stop => some false
    | .setPeriod _ => last) none

/-- The timer is as the requests have left it, and a running timer has a full period left. -/
structure Effective (rs : List Request) (t : Timer) : Prop where
  started : lastSwitch rs = some true → t.running = true
  stopped : lastSwitch rs = some false → t.running = false
  loaded : t.running = true → t.remainingTicks = t.periodTicks

theorem lastSwitch_append (rs : List Request) (r : Request) : lastSwitch (rs ++ [r]) =
    match r with
    | .start => some true
    | .stop => some false
    | .setPeriod _ => lastSwitch rs := by
  unfold lastSwitch
  rw [List.foldl_append]
  rfl

theorem serve_spec (rs : List Request) (hrun : t.running = true) :
    (serve rs t).running = ((lastSwitch rs).getD true) ∧
      (serve rs t).autoReload = t.autoReload := by
  induction rs using List.reverseRecOn with
  | nil => exact ⟨hrun, rfl⟩
  | append_singleton rs r ih =>
    obtain ⟨hr, ha⟩ := ih
    have hserve : serve (rs ++ [r]) t = request r (serve rs t) := by
      unfold serve
      rw [List.foldl_append]
      rfl
    rw [hserve, lastSwitch_append]
    cases r with
    | start => exact ⟨rfl, ha⟩
    | stop => exact ⟨rfl, ha⟩
    | setPeriod n =>
      unfold request setPeriod
      dsimp only
      split_ifs
      · exact ⟨hr, ha⟩
      · exact ⟨hr, ha⟩

/-- The requests of a callback take effect, except that a timer which does not reload itself
cannot be started. -/
theorem requests_effective_iff (h : t.fires = true) (rs : List Request) :
    Effective rs (t.tick (serve rs)) ↔ t.autoReload = true ∨ lastSwitch rs ≠ some true := by
  obtain ⟨n, hn⟩ := t.countdown_eq
  rw [tick_of_fires h, hn]
  unfold fires at h
  rw [Bool.and_eq_true, expires_eq] at h
  obtain ⟨hr, ha⟩ := serve_spec (t := { t with remainingTicks := n }) rs h.1.1
  generalize serve rs { t with remainingTicks := n } = t' at hr ha ⊢
  dsimp only at ha
  unfold reload
  rw [ha]
  cases t.autoReload with
  | true =>
    rw [if_pos rfl]
    refine iff_of_true ⟨fun hl => ?_, fun hl => ?_, fun _ => rfl⟩ (.inl rfl)
    · rw [hl] at hr
      exact hr
    · rw [hl] at hr
      exact hr
  | false =>
    rw [if_neg Bool.false_ne_true]
    constructor
    · intro he
      refine .inr fun hl => ?_
      exact absurd (he.started hl) Bool.false_ne_true
    · intro hor
      have hne := hor.resolve_left Bool.false_ne_true
      exact ⟨fun hl => absurd hl hne, fun _ => rfl, fun hf => absurd hf Bool.false_ne_true⟩

/-- The callback of a timer that reloads itself stops and starts it. -/
theorem requests_effective_reloading :
    Effective [.stop, .setPeriod 4, .start]
      (((new (some 7) 1 true 0).start).tick (serve [.stop, .setPeriod 4, .start])) :=
  (requests_effective_iff (by decide) _).mpr (.inl rfl)

/-- A one-shot timer that its callback starts again is stopped after the tick. -/
theorem requests_lost :
    ((new (some 7) 1 false 0).start).fires = true ∧
      ¬ Effective [.start] (((new (some 7) 1 false 0).start).tick (serve [.start])) := by
  constructor
  · decide
  · intro h
    exact absurd (h.started (by decide)) (by decide)

end CppRtos.Timer
