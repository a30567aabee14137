import CppRtos.EventGroup.Protocol

/-! The wait queue of an event group lists the waiting tasks, and none of them waits for a
flag that is set. -/
namespace CppRtos.EventGroup

def Call.waiter? : Call → Option TaskPtr
  | .waitYield _ _ p | .waitLoop _ _ p => some p
  | _ => none

/-! ## The invariant -/

/-- The queue holds the tasks that wait, each once, and nothing has ever been dequeued from
its head. -/
structure Listed (k : Kernel) (g : EventGroup) (waits : TaskPtr → Bool) : Prop where
  plain : g.waitingTasks.Plain
  head : g.waitingTasks.head = 0
  nodup : g.waitingTasks.pointers.Nodup
  mem_iff : ∀ t, t ∈ g.waitingTasks.pointers ↔ waits t = true
  unset : ∀ t, waits t = true → ¬ Matches g.eventFlags k t

/-- The locals of a call name the calling task, which waits only inside `waitForEvents`. -/
structure Local (tasks : Finset TaskPtr) (t : TaskPtr) (c : Option Call) (s : Shared) : Prop where
  member : c ≠ none → t ∈ tasks
  names : ∀ c', c = some c' → ∀ p, c'.waiter? = some p → p = t
  waiting : s.history.waits t = true → ∃ c', c = some c' ∧ c'.waiter? = some t

namespace Listed
variable {k : Kernel} {g : EventGroup} {waits : TaskPtr → Bool} (h : Listed k g waits)
include h

theorem congr {k' : Kernel} {waits' : TaskPtr → Bool} (hw : ∀ t, waits' t = waits t)
    (hk : ∀ t, waits t = true → (k'.taskData t).flagsToWaitFor = (k.taskData t).flagsToWaitFor) :
    Listed k' g waits' := by
  obtain rfl : waits' = waits := funext hw
  refine ⟨h.plain, h.head, h.nodup, h.mem_iff, fun t ht => ?_⟩
  unfold Matches
  rw [hk t ht]
  exact h.unset t ht

protected theorem yield : Listed k.yield g waits := h.congr (fun _ => rfl) fun _ _ => rfl

/-- A task that waits for flags none of which is set enqueues itself. -/
theorem enqueue {k' : Kernel} {t : TaskPtr} {f : BitVec 32} (ht : waits t = false)
    (hs : g.waitingTasks.size < maxTasks) (hf : g.eventFlags &&& f = 0)
    (hk : ∀ u, (k'.taskData u).flagsToWaitFor =
      if u = t then f else (k.taskData u).flagsToWaitFor) :
    Listed k' { g with waitingTasks := g.waitingTasks.enqueue (some t) }
      (Function.update waits t true) := by
  have hout : t ∉ g.waitingTasks.pointers := by
    rw [h.mem_iff, ht]
    exact Bool.false_ne_true
  have hp := Fifo.pointers_enqueue h.plain.toWellFormed t hs
  constructor
  · exact h.plain.enqueue t hs
  · exact (Fifo.enqueue_head _ _).trans h.head
  · rw [hp, ← List.concat_eq_append]
    exact h.nodup.concat hout
  · intro u
    rw [hp, List.mem_append, h.mem_iff]
    by_cases hut : u = t <;> simp [hut]
  · intro u hu
    unfold Matches
    rw [hk u]
    split_ifs with hut
    · simpa using hf
    · rw [Function.update_of_ne hut] at hu
      exact h.unset u hu

theorem remove {k' : Kernel} (t : TaskPtr)
    (hk : ∀ u, (k'.taskData u).flagsToWaitFor = (k.taskData u).flagsToWaitFor) :
    Listed k' { g with waitingTasks := removeTask t g.waitingTasks.getSize 0 g.waitingTasks }
      (Function.update waits t false) := by
  obtain ⟨hplain, hhead, hp⟩ := removeTask_spec t g.waitingTasks.getSize 0 h.plain h.head
    (le_refl _) (by simp)
  have hmem : ∀ u, u ∈ g.waitingTasks.pointers.erase t ↔ Function.update waits t false u := by
    intro u
    rw [h.nodup.mem_erase_iff, h.mem_iff]
    by_cases hut : u = t <;> simp [hut]
  constructor
  · exact hplain
  · exact hhead
  · rw [hp]
    exact h.nodup.erase t
  · intro u
    rw [hp]
    exact hmem u
  · intro u hu
    have hw : waits u = true := (h.mem_iff u).mp (List.mem_of_mem_erase ((hmem u).mpr hu))
    unfold Matches
    rw [hk u]
    exact h.unset u hw

theorem leave {k' : Kernel} {t : TaskPtr} (ht : waits t = false)
    (hk : ∀ u, (k'.taskData u).flagsToWaitFor = (k.taskData u).flagsToWaitFor) :
    Listed k' g (Function.update waits t false) := by
  refine h.congr (fun u => ?_) fun u _ => hk u
  by_cases hut : u = t
  · rw [hut, Function.update_self, ht]
  · rw [Function.update_of_ne hut]

theorem set (f : BitVec 32) : Listed (setRegion k g f).1 (setRegion k g f).2
    (fun t => waits t && decide (t ∉ setWakes k g f)) := by
  obtain ⟨r, hr, hswept⟩ := setRegion_swept k h.plain h.head h.nodup f
  obtain ⟨-, htasks, hkernel, hflags, hplain, hhead, hpointers⟩ := hswept
  dsimp only at htasks hflags hpointers
  rw [List.drop_zero] at htasks
  rw [List.take_zero, List.nil_append, List.drop_zero] at hpointers
  rw [hr]
  have hmem : ∀ t, t ∈ r.2.waitingTasks.pointers ↔
      (waits t && decide (t ∉ setWakes k g f)) = true := by
    intro t
    have hin : t ∈ setWakes k g f ↔
        waits t = true ∧ Matches (g.eventFlags ||| f) k.enterCritical t := by
      rw [htasks, List.mem_filter, h.mem_iff, decide_eq_true_iff]
    rw [hpointers, List.mem_filter, h.mem_iff, Bool.and_eq_true, decide_eq_true_iff,
      decide_eq_true_iff, hin]
    tauto
  constructor
  · exact hplain
  · exact hhead
  · rw [hpointers]
    exact h.nodup.filter _
  · exact hmem
  · intro t ht
    have ht' := (hmem t).mpr ht
    have hout : t ∉ setWakes k g f := by
      have hb := (Bool.and_eq_true_iff.mp ht).2
      exact of_decide_eq_true hb
    rw [hpointers, List.mem_filter] at ht'
    have hm : ¬ Matches (g.eventFlags ||| f) k.enterCritical t := by simpa using ht'.2
    unfold Matches at hm ⊢
    rw [hflags]
    change ¬ (g.eventFlags ||| f) &&& (r.1.taskData t).flagsToWaitFor ≠ 0
    rw [hkernel, taskData_foldl_wake _ _ hout]
    exact hm

theorem clear (f : BitVec 32) : Listed (clearRegion k g f).1 (clearRegion k g f).2 waits := by
  refine ⟨h.plain, h.head, h.nodup, h.mem_iff, fun t ht => ?_⟩
  have hm := h.unset t ht
  unfold Matches at hm ⊢
  rw [not_not] at hm ⊢
  change g.eventFlags &&& ~~~f &&& (k.taskData t).flagsToWaitFor = 0
  rw [BitVec.and_assoc, BitVec.and_comm (~~~f), ← BitVec.and_assoc, hm]
  exact BitVec.zero_and

/-- As long as not all tasks wait, there is room in the queue. -/
theorem size_lt {tasks : Finset TaskPtr} (hc : tasks.card ≤ maxTasks)
    (hall : ∀ u, waits u = true → u ∈ tasks) {t : TaskPtr} (ht : t ∈ tasks)
    (hw : waits t = false) : g.waitingTasks.size < maxTasks := by
  have hout : t ∉ g.waitingTasks.pointers := by
    rw [h.mem_iff, hw]
    exact Bool.false_ne_true
  have hlt := h.plain.size_lt_card h.nodup (fun u hu => hall u ((h.mem_iff u).mp hu)) ht hout
  exact hlt.trans_le hc

end Listed

/-! ## Runs -/

@[simp] theorem History.wake_nil (h : History) : h.wake [] = h := by
  unfold History.wake
  simp

variable {tasks : Finset TaskPtr}

theorem Local.not_waits {t : TaskPtr} {c : Call} {s : Shared} (h : Local tasks t (some c) s)
    (hc : c.waiter? = none) : s.history.waits t = false := by
  cases hw : s.history.waits t with
  | false => rfl
  | true =>
    obtain ⟨c', he, hp⟩ := h.waiting hw
    obtain rfl := Option.some.inj he
    rw [hc] at hp
    cases hp

theorem step_listed (hc : tasks.card ≤ maxTasks) {t : TaskPtr} {c : Call} {s : Shared}
    (h : Listed s.kernel s.group s.history.waits) (hl : Local tasks t (some c) s)
    (hall : ∀ u, s.history.waits u = true → u ∈ tasks) (hcur : s.kernel.currentTask = t) :
    Listed ((protocol tasks).step t c s).1.kernel ((protocol tasks).step t c s).1.group
      ((protocol tasks).step t c s).1.history.waits := by
  cases c with
  | waitForEvents f n =>
    have hw := hl.not_waits rfl
    have ht := hl.member (by simp)
    simp only [protocol, step, wakes, History.after, History.enter, History.wake_nil]
    obtain ⟨-, hr⟩ | ⟨-, -, hr⟩ | ⟨hf, -, hr⟩ := waitRegion_cases s.kernel s.group f n <;> rw [hr]
    · exact h.leave hw fun _ => rfl
    · exact h.leave hw fun _ => rfl
    · rw [hcur]
      refine h.enqueue hw (h.size_lt hc hall ht hw) hf fun u => ?_
      change (((s.kernel.enterCritical.setState t .eBlocked).modifyTask t
        (·.setFlagsToWaitFor f)).taskData u).flagsToWaitFor = _
      unfold Kernel.setState
      by_cases hu : u = t
      · rw [Kernel.taskData_modifyTask, if_pos hu, if_pos hu]
        rfl
      · rw [Kernel.taskData_modifyTask, if_neg hu, Kernel.taskData_modifyTask, if_neg hu,
          if_neg hu]
        rfl
  | waitYield f e p =>
    simp only [protocol, step, wakes, History.after, History.enter, History.wake_nil,
      History.leave]
    exact h.congr (fun _ => rfl) fun _ _ => rfl
  | waitLoop f e p =>
    obtain rfl : p = t := hl.names _ rfl p rfl
    simp only [protocol, step, wakes, History.after, History.enter, History.wake_nil]
    obtain ⟨b, -, -, hr⟩ | ⟨-, -, hr⟩ := loopRegion_cases s.kernel s.group f e p <;> rw [hr]
    · exact h.remove p fun _ => rfl
    · exact h.congr (fun _ => rfl) fun _ _ => rfl
  | setEvents f =>
    simp only [protocol, step, wakes, History.after, History.enter, History.wake, History.leave]
    exact h.set f
  | setYield =>
    simp only [protocol, step, wakes, History.after, History.enter, History.wake_nil,
      History.leave]
    exact h.congr (fun _ => rfl) fun _ _ => rfl
  | setReturn =>
    simp only [protocol, step, wakes, History.after, History.enter, History.wake_nil]
    exact h.leave (hl.not_waits rfl) fun _ => rfl
  | clearEvents f =>
    simp only [protocol, step, wakes, History.after, History.enter, History.wake_nil]
    exact (h.clear f).leave (hl.not_waits rfl) fun _ => rfl

theorem History.waits_after_of_ne (h : History) (now : ℕ) (ts : List TaskPtr) (c : Call)
    (o : Outcome Call Result) {t u : TaskPtr} (hu : u ≠ t) :
    (h.after t now ts c o).waits u = (h.waits u && decide (u ∉ ts)) := by
  have hupdate : ∀ b, Function.update ((h.enter t now c).wake ts).waits t b u =
      ((h.enter t now c).wake ts).waits u := fun b => Function.update_of_ne hu _ _
  have henter : ((h.enter t now c).wake ts).waits u = (h.waits u && decide (u ∉ ts)) := by
    cases c <;> rfl
  unfold History.after History.leave
  cases o with
  | next c' => cases c <;> first | exact (hupdate true).trans henter | exact henter
  | ret r => exact (hupdate false).trans henter

/-- A task that waits after its step was waiting before or has just begun to. -/
theorem History.waits_after_self (h : History) (t : TaskPtr) (now : ℕ) (ts : List TaskPtr)
    (c : Call) (o : Outcome Call Result) (hw : (h.after t now ts c o).waits t = true) :
    (∃ c', o = .next c') ∧ (h.waits t = true ∨ ∃ f n, c = .waitForEvents f n) := by
  unfold History.after History.leave at hw
  cases o with
  | next c' =>
    refine ⟨⟨c', rfl⟩, ?_⟩
    cases c with
    | waitForEvents f n => exact .inr ⟨f, n, rfl⟩
    | _ => exact .inl (Bool.and_eq_true_iff.mp hw).1
  | ret r =>
    dsimp only at hw
    rw [Function.update_self] at hw
    cases hw

theorem step_names {t : TaskPtr} {c : Call} {s : Shared} (hl : Local tasks t (some c) s)
    (hcur : s.kernel.currentTask = t) {c' : Call}
    (hc : ((protocol tasks).step t c s).2 = .next c') {p : TaskPtr}
    (hp : c'.waiter? = some p) : p = t := by
  simp only [protocol] at hc
  cases c with
  | waitForEvents f n =>
    simp only [step] at hc
    obtain ⟨-, hr⟩ | ⟨-, -, hr⟩ | ⟨-, -, hr⟩ := waitRegion_cases s.kernel s.group f n <;>
      rw [hr] at hc
    · cases hc
    · cases hc
    · cases hc
      exact (Option.some.inj hp).symm.trans hcur
  | waitYield f e q =>
    cases hc
    exact hl.names _ rfl p hp
  | waitLoop f e q =>
    simp only [step] at hc
    obtain ⟨b, -, -, hr⟩ | ⟨-, -, hr⟩ := loopRegion_cases s.kernel s.group f e q <;> rw [hr] at hc
    · cases hc
    · cases hc
      exact hl.names _ rfl p hp
  | setEvents f =>
    cases hc
    cases hp
  | setYield =>
    cases hc
    cases hp
  | setReturn => cases hc
  | clearEvents f => cases hc

/-- A point inside `waitForEvents` leads to another one, unless the call returns. -/
theorem step_waiter {t : TaskPtr} {c : Call} {s : Shared}
    (hw : (∃ f n, c = .waitForEvents f n) ∨ ∃ p, c.waiter? = some p) {c' : Call}
    (hc : ((protocol tasks).step t c s).2 = .next c') : ∃ p, c'.waiter? = some p := by
  simp only [protocol] at hc
  cases c with
  | waitForEvents f n =>
    simp only [step] at hc
    obtain ⟨-, hr⟩ | ⟨-, -, hr⟩ | ⟨-, -, hr⟩ := waitRegion_cases s.kernel s.group f n <;>
      rw [hr] at hc <;> cases hc
    exact ⟨_, rfl⟩
  | waitYield f e q =>
    cases hc
    exact ⟨q, rfl⟩
  | waitLoop f e q =>
    simp only [step] at hc
    obtain ⟨b, -, -, hr⟩ | ⟨-, -, hr⟩ := loopRegion_cases s.kernel s.group f e q <;>
      rw [hr] at hc <;> cases hc
    exact ⟨q, rfl⟩
  | _ => simp [Call.waiter?] at hw

theorem step_local {t : TaskPtr} {c : Call} {s : Shared} (hl : Local tasks t (some c) s)
    (hcur : s.kernel.currentTask = t) :
    Local tasks t ((protocol tasks).step t c s).2.call? ((protocol tasks).step t c s).1 := by
  constructor
  · exact fun _ => hl.member (by simp)
  · intro c' hc p hp
    cases ho : ((protocol tasks).step t c s).2 with
    | next c'' =>
      rw [ho] at hc
      obtain rfl := Option.some.inj hc
      exact step_names hl hcur ho hp
    | ret r =>
      rw [ho] at hc
      cases hc
  · intro hw
    obtain ⟨⟨c', ho⟩, hbefore⟩ := History.waits_after_self _ _ _ _ _ _ hw
    have hinside : (∃ f n, c = .waitForEvents f n) ∨ ∃ p, c.waiter? = some p := by
      refine hbefore.symm.imp id fun hwait => ?_
      obtain ⟨c'', he, hp⟩ := hl.waiting hwait
      obtain rfl := Option.some.inj he
      exact ⟨t, hp⟩
    have ho' : ((protocol tasks).step t c s).2 = .next c' := ho
    obtain ⟨p, hp⟩ := step_waiter hinside ho'
    obtain rfl := step_names hl hcur ho' hp
    exact ⟨c', congrArg Outcome.call? ho', hp⟩

theorem Local.of_waits {t : TaskPtr} {c : Option Call} {s s' : Shared} (h : Local tasks t c s)
    (hw : s'.history.waits t = true → s.history.waits t = true) : Local tasks t c s' :=
  ⟨h.member, h.names, fun ht => h.waiting (hw ht)⟩

theorem Local.member_of_waits {t : TaskPtr} {c : Option Call} {s : Shared}
    (h : Local tasks t c s) (hw : s.history.waits t = true) : t ∈ tasks := by
  obtain ⟨c', hc', -⟩ := h.waiting hw
  refine h.member ?_
  rw [hc']
  simp

theorem Local.invoke {t : TaskPtr} {c : Call} {s : Shared} (h : Local tasks t none s)
    (ht : t ∈ tasks) (he : c.isEntry = true) : Local tasks t (some c) s := by
  constructor
  · exact fun _ => ht
  · intro c' hc' p hp
    obtain rfl := Option.some.inj hc'
    cases c <;> first | exact absurd he Bool.false_ne_true | cases hp
  · intro hw
    obtain ⟨c', hc', -⟩ := h.waiting hw
    cases hc'

theorem reschedule_listed {s : Shared} (h : Listed s.kernel s.group s.history.waits)
    (k' : Kernel) : Listed (s.reschedule k') s.group s.history.waits := by
  refine h.congr (fun _ => rfl) fun t ht => ?_
  unfold Shared.reschedule
  dsimp only
  rw [if_pos ht]
  rfl

def Shared.Listed (s : Shared) : Prop :=
  EventGroup.Listed s.kernel s.group s.history.waits

theorem interfere_set (s : Shared) (f : BitVec 32) :
    (protocol tasks).interfere (.setEvents f) s =
      ⟨(setRegion s.kernel s.group f).1.yield, (setRegion s.kernel s.group f).2,
        s.history.wake (setWakes s.kernel s.group f)⟩ := rfl

theorem interfere_clear (s : Shared) (f : BitVec 32) :
    (protocol tasks).interfere (.clearEvents f) s =
      ⟨(clearRegion s.kernel s.group f).1, (clearRegion s.kernel s.group f).2, s.history⟩ := rfl

theorem interfere_listed (e : Environment) {s : Shared} (h : s.Listed) :
    ((protocol tasks).interfere e s).Listed := by
  cases e with
  | schedule k' => exact reschedule_listed h k'
  | setEvents f =>
    have hset := (EventGroup.Listed.set h f).yield
    rw [interfere_set]
    unfold Shared.Listed History.wake
    dsimp only
    exact hset
  | clearEvents f =>
    rw [interfere_clear]
    exact EventGroup.Listed.clear h f

theorem interfere_waits (e : Environment) (s : Shared) {u : TaskPtr}
    (hw : ((protocol tasks).interfere e s).history.waits u = true) :
    s.history.waits u = true := by
  cases e with
  | schedule k' => exact hw
  | setEvents f => exact (Bool.and_eq_true_iff.mp hw).1
  | clearEvents f => exact hw

theorem listed_reached (hc : tasks.card ≤ maxTasks) (k : Kernel) (es : List Event)
    (h : (protocol tasks).machine.Valid (start k) es) :
    Protocol.Holds Shared.Listed (Local tasks) ((protocol tasks).machine.exec (start k) es) := by
  rw [← Machine.valid_restrict_true] at h
  refine Protocol.holds_of_run ?_ ?_ ?_ ?_ ?_ h
  · intro t c s _ hl ⟨_, ht, he⟩
    exact hl.invoke ht he
  · intro t c s hcall _ hs hen
    have hl := hs.2 t
    rw [hcall] at hl
    exact ⟨step_listed hc hs.1 hl (fun u hu => (hs.2 u).member_of_waits hu) hen,
      step_local hl hen⟩
  · intro t c s u _ _ hs _ hu
    refine (hs.2 u).of_waits fun hw => ?_
    have hafter := History.waits_after_of_ne s.shared.history s.shared.kernel.getTickCount
      (wakes s.shared.kernel s.shared.group c) c (step s.shared.kernel s.shared.group c).2.2 hu
    exact (Bool.and_eq_true_iff.mp (hafter.symm.trans hw)).1
  · intro e s _ hs _
    exact ⟨interfere_listed e hs.1, fun u => (hs.2 u).of_waits (interfere_waits e s.shared)⟩
  · refine ⟨⟨.new (by decide), rfl, List.nodup_nil, fun t => ?_, fun t ht => ?_⟩, fun t => ?_⟩
    · simp [start, Protocol.start, new, Fifo.pointers]
    · cases ht
    · exact ⟨fun hn => absurd rfl hn, fun c' hc' => (by cases hc'), fun hw => (by cases hw)⟩

/-! ## The wake-up invariant -/

structure SetsEvents (k : Kernel) (g : EventGroup) (f : BitVec 32) : Prop where
  /-- The loop ends, without a bound on its rounds, -/
  ends : ∃ r, SetLoopEnds 0 k.enterCritical { g with eventFlags := g.eventFlags ||| f } r ∧
    setRegion k g f = (r.1.exitCritical, r.2)
  /-- having passed to `setTaskReady` exactly the queued tasks that the flags concern, -/
  wakes : setWakes k g f = g.waitingTasks.pointers.filter (Matches (g.eventFlags ||| f) k)
  woken : ∀ t ∈ setWakes k g f, (setRegion k g f).1.getState t = .eReady
  /-- and having removed exactly these; the others keep their order -/
  remaining : (setRegion k g f).2.waitingTasks.pointers =
    g.waitingTasks.pointers.filter (¬ Matches (g.eventFlags ||| f) k ·)
  /-- and their control blocks. -/
  unchanged : ∀ t ∉ setWakes k g f, (setRegion k g f).1.taskData t = k.taskData t

/-- The wait queue of an event group in a reachable state. -/
structure WakeUp (s : Shared) : Prop where
  /-- Read by indices, the queue lists each waiting task once and nothing else. -/
  lists : ∃ ts : List TaskPtr,
    (List.range s.group.waitingTasks.getSize).map s.group.waitingTasks.getAt = ts.map some ∧
      ts = s.group.waitingTasks.pointers ∧ ts.Nodup ∧ ∀ t, t ∈ ts ↔ s.history.waits t = true
  /-- No task waits for a flag that is set. -/
  unset : ∀ t ∈ s.group.waitingTasks.pointers,
    s.group.eventFlags &&& (s.kernel.taskData t).flagsToWaitFor = 0
  sets : ∀ f, SetsEvents s.kernel s.group f

namespace Listed
variable {k : Kernel} {g : EventGroup} {waits : TaskPtr → Bool} (h : Listed k g waits)
include h

theorem setsEvents (f : BitVec 32) : SetsEvents k g f := by
  obtain ⟨r, hr, hends, htasks, hkernel, -, -, -, hpointers⟩ :=
    setRegion_swept k h.plain h.head h.nodup f
  dsimp only at htasks hpointers
  rw [List.drop_zero] at htasks
  rw [List.take_zero, List.nil_append, List.drop_zero] at hpointers
  constructor
  · exact ⟨r, hends, hr⟩
  · exact htasks
  · intro t ht
    rw [hr, (Kernel.sameSchedule_exitCritical r.1).getState, hkernel]
    exact getState_foldl_wake _ _ ht
  · rw [hr]
    exact hpointers
  · intro t ht
    rw [hr, Kernel.taskData_exitCritical, hkernel, taskData_foldl_wake _ _ ht,
      Kernel.taskData_enterCritical]

theorem read : (List.range g.waitingTasks.getSize).map g.waitingTasks.getAt =
    g.waitingTasks.pointers.map some := by
  have hlen : g.waitingTasks.pointers.length = g.waitingTasks.getSize := h.plain.length_pointers
  refine List.ext_getElem (by simp [hlen]) fun i hi hi' => ?_
  rw [List.getElem_map, List.getElem_map, List.getElem_range]
  rw [List.length_map, List.length_range] at hi
  exact h.plain.getAt h.head hi

end Listed

/-- The wake-up invariant holds in every state of every run: at most `MAX_TASKS` tasks call
`waitForEvents`, `setEvents` and `clearEvents`, and their steps come in any order. -/
theorem wake_up (hc : tasks.card ≤ maxTasks) (k : Kernel) (es : List Event)
    (h : (protocol tasks).machine.Valid (start k) es) :
    WakeUp ((protocol tasks).machine.exec (start k) es).shared := by
  have hl := (listed_reached hc k es h).1
  set s := ((protocol tasks).machine.exec (start k) es).shared
  have hlisted : EventGroup.Listed s.kernel s.group s.history.waits := hl
  refine ⟨⟨_, hlisted.read, rfl, hlisted.nodup, hlisted.mem_iff⟩, fun t ht => ?_,
    hlisted.setsEvents⟩
  exact not_not.mp (hlisted.unset t ((hlisted.mem_iff t).mp ht))

/-- Two tasks wait for different flags, one of them is woken, and the other one gives up. -/
theorem wake_up_two :
    let k (t : TaskPtr) : Kernel := { currentTask := t, idleTask := 0, taskData := fun _ => {} }
    let es : List Event :=
      [.env (.schedule (k 1)), .invoke 1 (.waitForEvents 1 5), .exec 1, .exec 1,
        .env (.schedule (k 2)), .invoke 2 (.waitForEvents 6 9), .exec 2, .exec 2,
        .env (.setEvents 4), .exec 2,
        .env (.schedule { k 1 with port.tickCount := 7 }), .exec 1]
    WakeUp ((protocol {1, 2}).machine.exec (start (k 0)) es).shared :=
  wake_up (by decide) _ _ (by decide +kernel)

end CppRtos.EventGroup
