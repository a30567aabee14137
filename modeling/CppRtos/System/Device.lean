import CppRtos.MessageQueue.Conservation
import CppRtos.System.CriticalSections

/-! Critical sections over runs of all operations that open one, under any scheduling. -/
namespace CppRtos

/-- The objects of the system and message queues of one type. -/
structure Device (α : Type*) (n : ℕ) where
  objects : Objects
  queues : ℕ → MessageQueue α n

namespace Device
variable {α : Type*} {n : ℕ}

inductive Call (α : Type*) where
  | object (c : CppRtos.Call)
  | queue (i : ℕ) (c : MessageQueue.Call α)
deriving DecidableEq, Repr

inductive CallResult (α : Type*) where
  | object (r : CppRtos.CallResult)
  | queue (r : MessageQueue.Result α)
deriving DecidableEq, Repr

/-- What happens between the steps of the callers. `schedule` puts another kernel in place
of the present one, with the critical sections that are open now. -/
inductive Environment where
  | schedule (k : Kernel)
  | select
  | interrupt (e : Interrupt)

def schedule (k k' : Kernel) : Kernel :=
  { k' with port := { k'.port with
      nestingCounter := k.port.nestingCounter
      masked := k.port.masked
      exitUnderflow := k.port.exitUnderflow } }

def step [Inhabited α] (d : Device α n) : Call α → Device α n × Outcome (Call α) (CallResult α)
  | .object c =>
    let r := d.objects.step c
    ({ d with objects := r.1 }, r.2.map .object .object)
  | .queue i c =>
    let r := MessageQueue.step d.objects.kernel (d.queues i) c
    (⟨{ d.objects with kernel := r.1 }, Function.update d.queues i r.2.1⟩,
      r.2.2.map (.queue i) .queue)

def environment (d : Device α n) : Environment → Device α n
  | .schedule k' =>
    { d with objects := { d.objects with kernel := schedule d.objects.kernel k' } }
  | .select =>
    { d with objects :=
        { d.objects with kernel := d.objects.kernel.selectHighestPriorityTask } }
  | .interrupt e => { d with objects := d.objects.interrupt e }

/-- The points at which a call of the current task or of an interrupt handler begins. -/
def Call.isEntry (current : TaskPtr) : Call α → Bool
  | .object c => c.isEntry current
  | .queue _ c => c.isEntry

def protocol (α : Type*) (n : ℕ) [Inhabited α] :
    Protocol MessageQueue.Thread (Device α n) (Call α) (CallResult α) Environment where
  entry t c d := MessageQueue.Executes t d.objects.kernel ∧
    c.isEntry d.objects.kernel.currentTask = true
  enabled t _ d := MessageQueue.Executes t d.objects.kernel
  step _ c d := d.step c
  interferes _ _ := True
  interfere e d := d.environment e

abbrev State (α : Type*) (n : ℕ) := Config MessageQueue.Thread (Device α n) (Call α)
abbrev Event (α : Type*) := Protocol.Action MessageQueue.Thread (Call α) Environment

instance [Inhabited α] : ∀ t c d, Decidable ((protocol α n).entry t c d) := fun t c d =>
  inferInstanceAs (Decidable (MessageQueue.Executes t d.objects.kernel ∧
    c.isEntry d.objects.kernel.currentTask = true))

instance [Inhabited α] : ∀ t c d, Decidable ((protocol α n).enabled t c d) := fun t _ d =>
  inferInstanceAs (Decidable (MessageQueue.Executes t d.objects.kernel))

instance [Inhabited α] : ∀ e d, Decidable ((protocol α n).interferes e d) := fun _ _ =>
  inferInstanceAs (Decidable True)

/-- The step of the call is the one in which `acquire` takes a free mutex. -/
def Takes (d : Device α n) : Call α → Prop
  | .object (.mutex m c) => (d.objects.mutexes m).Takes c
  | .queue i (.sendMutex _ _ _ c) => (d.queues i).mtx.Takes c
  | _ => False

def Untaken : Event α → State α n → Prop
  | .exec t, s => ∀ c, s.call t = some c → ¬ s.shared.Takes c
  | _, _ => True

/-- All critical sections entered since depth `c` have been left. -/
def Balanced (c : ℕ) (s : State α n) : Prop := s.shared.objects.kernel.port.At c

theorem Objects.step_at {o : Objects} {c : ℕ} (h : o.kernel.port.At c) (hc : c + 1 < 2 ^ 32)
    {call : CppRtos.Call} (hn : ∀ m d, call = .mutex m d → ¬ (o.mutexes m).Takes d) :
    (o.step call).1.kernel.port.At c := by
  cases call with
  | task d => exact TaskCall.step_at h hc d
  | semaphore i d => exact Semaphore.step_at h hc (o.semaphores i) d
  | mutex i d => exact Mutex.step_at h hc (o.mutexes i) (hn i d rfl)
  | eventGroup i d => exact EventGroup.step_at h hc (o.eventGroups i) d

theorem Objects.isr_at {o : Objects} {c : ℕ} (h : o.kernel.port.At c) (hc : c + 1 < 2 ^ 32)
    (call : IsrCall) : (o.isr call).kernel.port.At c := by
  cases call with
  | signal i => exact Semaphore.at_signalRegion h hc _
  | flush i => exact Semaphore.at_flushRegion h hc _
  | setEvents i f =>
    exact Kernel.at_yield (EventGroup.at_setRegion h hc (o.eventGroups i) f).toDepth hc
  | clearEvents i f => exact EventGroup.at_clearRegion h hc (o.eventGroups i) f

theorem environment_at {d : Device α n} {c : ℕ} (h : d.objects.kernel.port.At c)
    (hc : c + 1 < 2 ^ 32) (e : Environment) : (d.environment e).objects.kernel.port.At c := by
  cases e with
  | schedule k' => exact ⟨⟨h.nestingCounter, h.exitUnderflow⟩, h.unmasked⟩
  | select => exact Kernel.at_selectHighestPriorityTask h.toDepth hc
  | interrupt e =>
    cases e with
    | pendSV => exact Kernel.at_pendSVHandler h hc
    | sysTick => exact Kernel.at_sysTickHandler h hc
    | isr call => exact Objects.isr_at h hc call
    | addTask t => exact Kernel.at_addTask h hc t

section
variable [Inhabited α] {c : ℕ}

theorem step_at {d : Device α n} (h : d.objects.kernel.port.At c) (hc : c + 1 < 2 ^ 32)
    {call : Call α} (hn : ¬ d.Takes call) : (d.step call).1.objects.kernel.port.At c := by
  cases call with
  | object call =>
    refine Objects.step_at h hc fun m e he => ?_
    subst he
    exact hn
  | queue i call =>
    refine MessageQueue.step_at h hc _ fun m t u e he => ?_
    subst he
    exact hn

theorem step_takes {d : Device α n} (h : d.objects.kernel.port.At c) (hc : c + 1 < 2 ^ 32)
    {call : Call α} (ht : d.Takes call) :
    (d.step call).1.objects.kernel.port.nestingCounter = c + 1 := by
  cases call with
  | object call =>
    cases call with
    | mutex m e => exact Mutex.step_takes h hc ht
    | _ => exact ht.elim
  | queue i call =>
    cases call with
    | sendMutex m t u e => exact Mutex.step_takes h hc ht
    | _ => exact ht.elim

theorem balanced_apply_iff (hc : c + 1 < 2 ^ 32) (e : Event α) {s : State α n}
    (h : Balanced c s) (hg : (protocol α n).machine.guard e s) :
    Balanced c ((protocol α n).machine.apply e s) ↔ Untaken e s := by
  cases e with
  | invoke t call => exact iff_of_true h trivial
  | env e => exact iff_of_true (environment_at h hc e) trivial
  | exec t =>
    obtain ⟨call, hcall, -⟩ := Protocol.call_of_guard hg
    have happly : ((protocol α n).machine.apply (.exec t) s).shared = (s.shared.step call).1 := by
      simp only [Protocol.machine, Protocol.apply, hcall]
      rfl
    have huntaken : Untaken (.exec t) s ↔ ¬ s.shared.Takes call := by
      simp [Untaken, hcall]
    rw [Balanced, happly, huntaken]
    constructor
    · intro hb ht
      have hnest := hb.nestingCounter
      rw [step_takes h hc ht] at hnest
      omega
    · exact fun hn => step_at h hc hn

end

/-- Critical sections are balanced in every state of a run, if and only if no step of the
run is the successful one of `acquire`. The run may start in any state. -/
theorem critical_sections_balanced_iff (α : Type*) [Inhabited α] (n : ℕ) (c : ℕ)
    (hc : c + 1 < 2 ^ 32) (s : State α n) (h0 : Balanced c s) (es : List (Event α))
    (hv : (protocol α n).machine.Valid s es) :
    (∀ fs, fs <+: es → Balanced c ((protocol α n).machine.exec s fs)) ↔
      ((protocol α n).machine.restrict Untaken).Valid s es :=
  Machine.forall_prefix_iff (I := fun _ => True) (fun _ _ _ _ _ _ => trivial)
    (fun e _ _ h hg => balanced_apply_iff hc e h hg) trivial h0 hv

def start [Inhabited α] (u : Setup) : State α n :=
  Protocol.start ⟨Objects.init u, fun _ => MessageQueue.new⟩

/-- Task 1 is added, made current, and takes a mutex that nobody owns. -/
def acquireRun : List (Event ℕ) :=
  [.env (.interrupt (.addTask 1)), .env .select,
    .invoke (.task 1) (.object (.mutex 0 (.acquire 5))), .exec (.task 1), .exec (.task 1),
    .exec (.task 1)]

/-- After this one successful `acquire` the critical section is open and interrupts are
masked, although no call is going on. -/
theorem acquireRun_not_balanced :
    let s₀ : State ℕ 1 := start { idleTask := 0, assigned := fun _ => .low }
    let s := (protocol ℕ 1).machine.exec s₀ acquireRun
    (protocol ℕ 1).machine.Valid s₀ acquireRun ∧ s.call (.task 1) = none ∧
      s.shared.objects.kernel.port.nestingCounter = 1 ∧
      s.shared.objects.kernel.port.masked = true := by
  decide +kernel

/-- Task 1 waits for a semaphore, is woken by an interrupt and sends a message. -/
theorem critical_sections_balanced_wait :
    let s₀ : State ℕ 1 := start { idleTask := 0, assigned := fun _ => .low }
    let es : List (Event ℕ) :=
      [.env (.interrupt (.addTask 1)), .env .select,
        .invoke (.task 1) (.object (.semaphore 0 (.wait 5))), .exec (.task 1), .exec (.task 1),
        .exec (.task 1), .env (.interrupt (.isr (.signal 0))), .env (.interrupt .sysTick),
        .env (.interrupt .pendSV), .exec (.task 1), .invoke (.task 1) (.queue 0 (.send 7 0)),
        .exec (.task 1), .exec (.task 1)]
    (∀ fs, fs <+: es → Balanced 0 ((protocol ℕ 1).machine.exec s₀ fs)) ↔
      ((protocol ℕ 1).machine.restrict Untaken).Valid s₀ es :=
  critical_sections_balanced_iff ℕ 1 0 (by omega) _
    ⟨⟨by decide +kernel, by decide +kernel⟩, fun _ => by decide +kernel⟩ _ (by decide +kernel)

end Device

end CppRtos
