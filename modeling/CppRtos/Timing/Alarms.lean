import CppRtos.Timing.Counters

/-! An alarm and its counter. One tick increments the counter, then checks the alarm, which
rewrites its own start tick and alarm time when it expires. -/
namespace CppRtos.Alarm

/-- The constructors, without and with a task. -/
def newCallback (counter : CounterPtr) (cbk arg alarmTime cycleTime : ℕ) : Alarm where
  counter := counter
  callback := some cbk
  callbackArg := arg
  alarmTime := alarmTime
  cycleTime := cycleTime

def newTask (counter : CounterPtr) (alarmTime cycleTime : ℕ) (task : Option TaskPtr) : Alarm where
  counter := counter
  callback := none
  callbackArg := 0
  alarmTime := alarmTime
  cycleTime := cycleTime
  taskToActivate := task

variable {s : Counter × Alarm} {m n : ℕ}

def fires (s : Counter × Alarm) : Bool := s.2.expired s.1.increment

def tick (s : Counter × Alarm) : Counter × Alarm :=
  (s.1.increment, if fires s then s.2.rearm s.1.increment else s.2)

/-- What no tick changes. -/
def setup (a : Alarm) : CounterPtr × Option ℕ × ℕ × ℕ × Option TaskPtr :=
  (a.counter, a.callback, a.callbackArg, a.cycleTime, a.taskToActivate)

theorem setup_tick (s : Counter × Alarm) : (tick s).2.setup = s.2.setup := by
  unfold tick rearm
  dsimp only
  split_ifs <;> rfl

theorem setup_iterate (n : ℕ) (s : Counter × Alarm) : (tick^[n] s).2.setup = s.2.setup := by
  induction n generalizing s with
  | zero => rfl
  | succ n ih =>
    rw [Function.iterate_succ_apply, ih]
    exact setup_tick s

/-- The alarm fires in exactly the ticks with the numbers `first`, `first + cycle`,
`first + 2 * cycle` and so on, counted from now on. -/
def Schedule (first cycle : ℕ) (s : Counter × Alarm) : Prop :=
  ∀ n, fires (tick^[n] s) = true ↔ ∃ j, n + 1 = first + j * cycle

/-- The next firing comes with the tick of the number `first`. -/
def Next (first : ℕ) (s : Counter × Alarm) : Prop :=
  ∀ n < first, fires (tick^[n] s) = true ↔ n + 1 = first

theorem Schedule.next {first cycle : ℕ} (h : Schedule first cycle s) : Next first s := by
  intro n hn
  rw [h n]
  constructor
  · rintro ⟨j, hj⟩
    have : first ≤ first + j * cycle := Nat.le_add_right _ _
    omega
  · intro hlast
    exact ⟨0, by omega⟩

theorem Next.unique {first first' : ℕ} (h : Next first s) (h' : Next first' s) (hf : 0 < first)
    (hf' : 0 < first') : first = first' := by
  have key : ∀ {a b : ℕ}, Next a s → Next b s → 0 < a → a ≤ b → a = b := by
    intro a b ha hb hpos hle
    have hfire := (ha (a - 1) (by omega)).mpr (by omega)
    have hlast := (hb (a - 1) (by omega)).mp hfire
    omega
  rcases Nat.le_total first first' with hle | hle
  · exact key h h' hf hle
  · exact (key h' h hf' hle).symm

/-! ## The schedule of an active alarm -/

/-- An active alarm that has not expired yet, `remaining` ticks before it does. -/
structure Waits (m remaining cycle : ℕ) (s : Counter × Alarm) : Prop where
  regular : s.1.Regular
  max : s.1.maxAllowedValue = m
  active : s.2.active = true
  cycle : s.2.cycleTime = cycle
  start : s.2.startTick < m
  alarmTime : s.2.alarmTime < m
  elapsed : Cyclic.elapsed m s.2.startTick s.1.currentTick + remaining = s.2.alarmTime

theorem increment_max (h : s.1.Regular) : s.1.increment.maxAllowedValue = s.1.maxAllowedValue := by
  rw [h.increment_eq]

theorem Waits.elapsed_tick {remaining cycle : ℕ} (h : Waits m (remaining + 1) cycle s) :
    Cyclic.elapsed m s.2.startTick s.1.increment.currentTick =
      Cyclic.elapsed m s.2.startTick s.1.currentTick + 1 := by
  have hmax := h.max
  have hlt := h.regular.lt
  have hstart := h.start
  have htime := h.alarmTime
  have hsum := h.elapsed
  have hcur : s.1.increment.currentTick = Cyclic.succ m s.1.currentTick := by
    rw [h.regular.increment_eq, hmax]
  rw [hcur]
  exact Cyclic.elapsed_succ hstart (by omega) (by omega)

theorem Waits.fires_iff {remaining cycle : ℕ} (h : Waits m (remaining + 1) cycle s) :
    fires s = true ↔ remaining = 0 := by
  have hmax : s.1.increment.maxAllowedValue = m := (increment_max h.regular).trans h.max
  have hstart := h.start
  have htime := h.alarmTime
  have hsum := h.elapsed
  have helapsed : s.1.increment.getElapsedValue s.2.startTick =
      Cyclic.elapsed m s.2.startTick s.1.currentTick + 1 := by
    rw [h.regular.increment.getElapsedValue (by omega), hmax, h.elapsed_tick]
  unfold fires expired
  rw [h.active, Bool.true_and, decide_eq_true_eq, helapsed]
  constructor <;> intro hle <;> omega

theorem Waits.tick {remaining cycle : ℕ} (h : Waits m (remaining + 2) cycle s) :
    Waits m (remaining + 1) cycle (tick s) := by
  have hno : fires s = false := by
    rw [Bool.eq_false_iff]
    exact fun hf => absurd (h.fires_iff.mp hf) (by omega)
  have hsum := h.elapsed
  have hmax : s.1.increment.maxAllowedValue = m := (increment_max h.regular).trans h.max
  unfold Alarm.tick
  rw [hno, if_neg Bool.false_ne_true]
  refine ⟨h.regular.increment, hmax, h.active, h.cycle, h.start, h.alarmTime, ?_⟩
  show Cyclic.elapsed m s.2.startTick s.1.increment.currentTick + (remaining + 1) = s.2.alarmTime
  rw [h.elapsed_tick]
  omega

theorem Waits.tick_cyclic {cycle : ℕ} (h : Waits m 1 cycle s) (hc : 0 < cycle) (hm : cycle < m) :
    Waits m cycle cycle (Alarm.tick s) := by
  have hyes : fires s = true := h.fires_iff.mpr rfl
  have hmax : s.1.increment.maxAllowedValue = m := (increment_max h.regular).trans h.max
  have hcycle := h.cycle
  have hlt := h.regular.increment.lt
  unfold Alarm.tick rearm
  rw [if_pos hyes, if_pos (by omega)]
  constructor
  · exact h.regular.increment
  · exact hmax
  · exact h.active
  · exact hcycle
  · show s.1.increment.currentTick < m
    omega
  · show s.2.cycleTime < m
    omega
  · show Cyclic.elapsed m s.1.increment.currentTick s.1.increment.currentTick + cycle =
      s.2.cycleTime
    rw [Cyclic.elapsed_self]
    omega

theorem fires_of_inactive (h : s.2.active = false) : fires s = false := by
  unfold fires expired
  rw [h, Bool.false_and]

theorem tick_of_inactive (h : s.2.active = false) : tick s = (s.1.increment, s.2) := by
  unfold tick
  rw [fires_of_inactive h, if_neg Bool.false_ne_true]

theorem iterate_of_inactive (h : s.2.active = false) (n : ℕ) :
    (tick^[n] s).2.active = false := by
  induction n generalizing s with
  | zero => exact h
  | succ n ih =>
    rw [Function.iterate_succ_apply, tick_of_inactive h]
    exact ih h

theorem tick_oneShot (h : fires s = true) (hc : s.2.cycleTime = 0) :
    (tick s).2.active = false := by
  unfold tick rearm
  rw [if_pos h, if_neg (by omega)]

theorem Schedule.inactive {first : ℕ} (h : Schedule first 0 s) (hpos : 0 < first)
    (hcycle : s.2.cycleTime = 0) (hn : first ≤ n) : (tick^[n] s).2.active = false := by
  have hfires : fires (tick^[first - 1] s) = true := (h (first - 1)).mpr ⟨0, by omega⟩
  have hsame : (tick^[first - 1] s).2.cycleTime = 0 :=
    (congrArg (fun t => t.2.2.2.1) (setup_iterate (first - 1) s)).trans hcycle
  have hoff : (tick^[first] s).2.active = false := by
    have hsucc : first = (first - 1) + 1 := by omega
    rw [hsucc, Function.iterate_succ_apply']
    exact tick_oneShot hfires hsame
  have hsplit : n = (n - first) + first := by omega
  rw [hsplit, Function.iterate_add_apply]
  exact iterate_of_inactive hoff _

/-- A waiting alarm keeps to its schedule, also when the counter goes round. -/
theorem Waits.schedule {remaining cycle : ℕ} (h : Waits m (remaining + 1) cycle s)
    (hm : cycle < m) : Schedule (remaining + 1) cycle s := by
  intro n
  induction n generalizing s remaining with
  | zero =>
    rw [Function.iterate_zero_apply, h.fires_iff]
    constructor
    · intro hz
      exact ⟨0, by omega⟩
    · rintro ⟨j, hj⟩
      omega
  | succ n ih =>
    rw [Function.iterate_succ_apply]
    cases remaining with
    | succ remaining =>
      rw [ih h.tick]
      constructor <;> rintro ⟨j, hj⟩ <;> exact ⟨j, by omega⟩
    | zero =>
      rcases Nat.eq_zero_or_pos cycle with hc | hc
      · have hyes : fires s = true := h.fires_iff.mpr rfl
        have hoff := tick_oneShot hyes (h.cycle.trans hc)
        refine iff_of_false ?_ ?_
        · rw [fires_of_inactive (iterate_of_inactive hoff n)]
          exact Bool.false_ne_true
        · rintro ⟨j, hj⟩
          rw [hc, Nat.mul_zero] at hj
          omega
      · obtain ⟨r, rfl⟩ : ∃ r, cycle = r + 1 := ⟨cycle - 1, by omega⟩
        rw [ih (h.tick_cyclic hc hm)]
        constructor
        · rintro ⟨j, hj⟩
          refine ⟨j + 1, ?_⟩
          rw [Nat.succ_mul]
          omega
        · rintro ⟨j, hj⟩
          cases j with
          | zero => omega
          | succ j =>
            refine ⟨j, ?_⟩
            rw [Nat.succ_mul] at hj
            omega

/-! ## Histories of start, stop and ticks -/

inductive Operation where
  | start
  | stop
  | tick
deriving DecidableEq, Repr

def startNow (s : Counter × Alarm) : Counter × Alarm := (s.1, s.2.start s.1)

def alarming : Machine (Counter × Alarm) Operation where
  guard _ _ := True
  apply
    | .start, s => startNow s
    | .stop, s => (s.1, s.2.stop)
    | .tick, s => tick s

/-- How often the alarm has fired. -/
def observe : Operation → Counter × Alarm → Counter × Alarm → ℕ → ℕ
  | .tick, s, _, count => if fires s then count + 1 else count
  | _, _, _, count => count

def after (s : Counter × Alarm) (es : List Operation) : (Counter × Alarm) × ℕ :=
  (alarming.withHistory observe).exec (s, 0) es

/-- An alarm as it has been constructed, and its counter. -/
structure Fresh (m alarmTime cycle : ℕ) (s : Counter × Alarm) : Prop where
  regular : s.1.Regular
  max : s.1.maxAllowedValue = m
  time : s.2.alarmTime = alarmTime
  cycle : s.2.cycleTime = cycle

/-- The alarm time in force is the one of the constructor until the alarm has fired. -/
structure Keeps (m alarmTime cycle : ℕ) (s : (Counter × Alarm) × ℕ) : Prop where
  regular : s.1.1.Regular
  max : s.1.1.maxAllowedValue = m
  time : s.1.2.alarmTime = if s.2 = 0 then alarmTime else cycle
  cycle : s.1.2.cycleTime = cycle

theorem Keeps.apply {alarmTime cycle : ℕ} {s : (Counter × Alarm) × ℕ}
    (h : Keeps m alarmTime cycle s) (hc : 0 < cycle) (e : Operation) :
    Keeps m alarmTime cycle ((alarming.withHistory observe).apply e s) := by
  obtain ⟨⟨c, a⟩, count⟩ := s
  cases e with
  | start => exact ⟨h.regular, h.max, h.time, h.cycle⟩
  | stop => exact ⟨h.regular, h.max, h.time, h.cycle⟩
  | tick =>
    have hreg : c.Regular := h.regular
    have hmax : c.increment.maxAllowedValue = m :=
      (increment_max (s := (c, a)) h.regular).trans h.max
    have hcycle : a.cycleTime = cycle := h.cycle
    show Keeps m alarmTime cycle (tick (c, a), if fires (c, a) then count + 1 else count)
    unfold tick
    cases hf : fires (c, a) with
    | false => exact ⟨hreg.increment, hmax, h.time, h.cycle⟩
    | true =>
      rw [if_pos rfl, if_pos rfl]
      unfold rearm
      dsimp only
      rw [if_pos (by omega)]
      refine ⟨hreg.increment, hmax, ?_, hcycle⟩
      show a.cycleTime = if count + 1 = 0 then alarmTime else cycle
      rw [if_neg (by omega)]
      exact hcycle

theorem keeps_after {alarmTime cycle : ℕ} (h : Fresh m alarmTime cycle s) (hc : 0 < cycle)
    (es : List Operation) : Keeps m alarmTime cycle (after s es) := by
  have hvalid : (alarming.withHistory observe).Valid (s, 0) es := by
    have hall : ∀ s', (alarming.withHistory observe).Valid s' es := by
      induction es with
      | nil => exact fun _ => trivial
      | cons e es ih => exact fun _ => ⟨trivial, ih _⟩
    exact hall _
  refine Machine.invariant (M := alarming.withHistory observe)
    (fun e s hs _ => hs.apply hc e) ?_ hvalid
  exact ⟨h.regular, h.max, h.time, h.cycle⟩

theorem schedule_start (hr : s.1.Regular) (hpos : 0 < s.2.alarmTime)
    (hlt : s.2.alarmTime < s.1.maxAllowedValue) (hc : s.2.cycleTime < s.1.maxAllowedValue) :
    Schedule s.2.alarmTime s.2.cycleTime (startNow s) := by
  obtain ⟨r, hr'⟩ : ∃ r, s.2.alarmTime = r + 1 := ⟨s.2.alarmTime - 1, by omega⟩
  have hwaits : Waits s.1.maxAllowedValue (r + 1) s.2.cycleTime (startNow s) := by
    refine ⟨hr, rfl, rfl, rfl, hr.lt, hlt, ?_⟩
    show Cyclic.elapsed s.1.maxAllowedValue s.1.currentTick s.1.currentTick + (r + 1) =
      s.2.alarmTime
    rw [Cyclic.elapsed_self]
    omega
  rw [hr']
  exact hwaits.schedule hc

/-- A restart brings the schedule of the constructor exactly if the alarm has never fired, or
if its two times are equal. -/
theorem restart_iff {alarmTime cycle : ℕ} (hs : Fresh m alarmTime cycle s)
    (ha : 1 ≤ alarmTime ∧ alarmTime < m) (hc : 1 ≤ cycle ∧ cycle < m) (es : List Operation) :
    (Next alarmTime (startNow (after s es).1) ∧
        Schedule alarmTime cycle (startNow (after s es).1)) ↔
      (after s es).2 = 0 ∨ alarmTime = cycle := by
  have hk := keeps_after hs hc.1 es
  generalize after s es = s' at hk
  have hmax := hk.max
  have htime := hk.time
  have hcycle := hk.cycle
  have hrange : 0 < s'.1.2.alarmTime ∧ s'.1.2.alarmTime < m := by
    rw [htime]
    split_ifs <;> omega
  have hsched := schedule_start hk.regular hrange.1 (by omega) (by omega)
  rw [hcycle] at hsched
  have hiff : alarmTime = s'.1.2.alarmTime ↔ s'.2 = 0 ∨ alarmTime = cycle := by
    rw [htime]
    split_ifs with hz
    · exact iff_of_true rfl (.inl hz)
    · exact ⟨fun he => .inr he, fun hor => hor.resolve_left hz⟩
  rw [← hiff]
  constructor
  · intro hn
    exact hn.1.unique hsched.next ha.1 hrange.1
  · intro he
    rw [← he] at hsched
    exact ⟨hsched.next, hsched⟩

/-- A counter that starts at 8 of 10 and an alarm for 4 ticks, then every 3. -/
def sample : Counter × Alarm := (⟨10, 8⟩, newCallback 0 7 0 4 3)

theorem fresh_sample : Fresh 10 4 3 sample :=
  ⟨⟨by decide, by decide⟩, rfl, rfl, rfl⟩

/-- Stopped before it has fired, the alarm starts again with its alarm time. -/
theorem restart_stopped :
    Schedule 4 3 (startNow (after sample [.start, .tick, .tick, .stop]).1) :=
  ((restart_iff fresh_sample (by decide) (by decide) [.start, .tick, .tick, .stop]).mpr
    (.inl (by decide))).2

/-- Started again after it has fired, the alarm fires after 3 ticks and not after 4. -/
theorem restart_fired :
    let s := startNow (after sample [.start, .tick, .tick, .tick, .tick, .stop]).1
    fires (tick^[2] s) = true ∧ ¬ Next 4 s := by
  constructor
  · decide
  · intro h
    exact absurd ((h 2 (by decide)).mp (by decide)) (by decide)

end CppRtos.Alarm
