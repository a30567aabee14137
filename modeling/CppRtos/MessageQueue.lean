import CppRtos.Mutex

/-! Message queues: a circular buffer, and a mutex for senders that wait for room. A call
is split at every test of the buffer, at its critical regions and inside the mutex. The
spin lock of the source is taken and freed within a region, where it is always free. -/
namespace CppRtos

structure MessageQueue (α : Type*) (maxMessages : ℕ) where
  queue : Fifo α maxMessages
  mtx : Mutex

namespace MessageQueue
variable {α : Type*} {n : ℕ}

def new [Inhabited α] : MessageQueue α n := ⟨Fifo.new, Mutex.new⟩

inductive MsgQueueResult where
  | success | errorQueueFull | errorQueueEmpty | errorCalledFromISR | timeout
deriving DecidableEq, Repr

/-- The place in `send` at which the mutex is called, with the locals alive there. -/
inductive MutexUse where
  | firstAcquire
  | release (endTime : ℕ)
  | acquireAgain (endTime : ℕ)
deriving DecidableEq, Repr

/-- Points inside `send`, `receive` and `getNumMsg`. `endTime` is read by calls with a
finite timeout only. -/
inductive Call (α : Type*) where
  | send (message : α) (timeout : ℕ)
  | sendMutex (message : α) (timeout : ℕ) (use : MutexUse) (c : Mutex.Call)
  | sendEnd (message : α) (timeout : ℕ)
  | sendLoop (message : α) (timeout endTime : ℕ)
  | sendTime (message : α) (timeout endTime : ℕ)
  | sendYield (message : α) (timeout endTime : ℕ)
  | sendRegion (message : α)
  | receive (timeout : ℕ)
  | receiveEnd (timeout : ℕ)
  | receiveLoop (timeout endTime : ℕ)
  | receiveTime (timeout endTime : ℕ)
  | receiveYield (timeout endTime : ℕ)
  | receiveRegion
  | getNumMsg
deriving DecidableEq, Repr

/-- What a call returns; a successful `receive` also hands over a message. -/
inductive Result (α : Type*) where
  | sent (r : MsgQueueResult)
  | received (r : MsgQueueResult) (message : Option α)
  | numMsg (num : ℕ)
deriving DecidableEq, Repr

/-- The test at the start of `send`. -/
def sendStart (k : Kernel) (q : MessageQueue α n) (message : α) (timeout : ℕ) :
    Outcome (Call α) (Result α) :=
  if k.isInsideInterrupt then
    if q.queue.isFull then .ret (.sent .errorQueueFull) else .next (.sendRegion message)
  else if q.queue.isFull then
    if timeout = 0 then .ret (.sent .errorQueueFull)
    else .next (.sendMutex message timeout .firstAcquire (.acquire timeout))
  else .next (.sendRegion message)

/-- Where `send` goes on when a call of the mutex has returned. -/
def sendMutexReturn (message : α) (timeout : ℕ) :
    MutexUse → Mutex.MutexResult → Outcome (Call α) (Result α)
  | .firstAcquire, r =>
    if r ≠ .success then .ret (.sent .timeout)
    else if timeout = waitForever then .next (.sendLoop message timeout 0)
    else .next (.sendEnd message timeout)
  | .release endTime, _ =>
    if timeout = waitForever then .next (.sendYield message timeout endTime)
    else .next (.sendTime message timeout endTime)
  | .acquireAgain endTime, r =>
    if r ≠ .success then .ret (.sent .timeout) else .next (.sendLoop message timeout endTime)

/-- One step of the mutex on behalf of `send`. -/
def sendMutex (k : Kernel) (q : MessageQueue α n) (message : α) (timeout : ℕ) (use : MutexUse)
    (c : Mutex.Call) : Kernel × MessageQueue α n × Outcome (Call α) (Result α) :=
  let r := Mutex.step k q.mtx c
  (r.1, { q with mtx := r.2.1 }, match r.2.2 with
    | .next c' => .next (.sendMutex message timeout use c')
    | .ret result => sendMutexReturn message timeout use result)

def step [Inhabited α] (k : Kernel) (q : MessageQueue α n) :
    Call α → Kernel × MessageQueue α n × Outcome (Call α) (Result α)
  | .send message timeout => (k, q, sendStart k q message timeout)
  | .sendMutex message timeout use c => sendMutex k q message timeout use c
  | .sendEnd message timeout =>
    (k, q, .next (.sendLoop message timeout ((k.getTickCount + timeout) % 2 ^ 64)))
  | .sendLoop message timeout endTime =>
    if q.queue.isFull then (k, q, .next (.sendMutex message timeout (.release endTime) .release))
    else (k, q, .next (.sendRegion message))
  | .sendTime message timeout endTime =>
    if k.getTickCount > endTime then (k, q, .ret (.sent .timeout))
    else (k, q, .next (.sendYield message timeout endTime))
  | .sendYield message timeout endTime =>
    (k.yield, q, .next (.sendMutex message timeout (.acquireAgain endTime) (.acquire timeout)))
  | .sendRegion message =>
    let k := k.enterCritical
    let q := { q with queue := q.queue.enqueue message }
    (k.exitCritical, q, .ret (.sent .success))
  | .receive timeout =>
    if k.isInsideInterrupt then (k, q, .ret (.received .errorCalledFromISR none))
    else if q.queue.isEmpty then
      if timeout = 0 then (k, q, .ret (.received .errorQueueEmpty none))
      else if timeout = waitForever then (k, q, .next (.receiveLoop timeout 0))
      else (k, q, .next (.receiveEnd timeout))
    else (k, q, .next .receiveRegion)
  | .receiveEnd timeout =>
    (k, q, .next (.receiveLoop timeout ((k.getTickCount + timeout) % 2 ^ 64)))
  | .receiveLoop timeout endTime =>
    if q.queue.isEmpty then
      if timeout = waitForever then (k, q, .next (.receiveYield timeout endTime))
      else (k, q, .next (.receiveTime timeout endTime))
    else (k, q, .next .receiveRegion)
  | .receiveTime timeout endTime =>
    if k.getTickCount > endTime then (k, q, .ret (.received .timeout none))
    else (k, q, .next (.receiveYield timeout endTime))
  | .receiveYield timeout endTime => (k.yield, q, .next (.receiveLoop timeout endTime))
  | .receiveRegion =>
    let k := k.enterCritical
    let message := q.queue.dequeue
    let q := { q with queue := message.2 }
    (k.exitCritical, q, .ret (.received .success (some message.1)))
  | .getNumMsg =>
    let k := k.enterCritical
    let numMsg := q.queue.getSize
    (k.exitCritical, q, .ret (.numMsg numMsg))

theorem step_queue [Inhabited α] (k : Kernel) (q : MessageQueue α n) {c : Call α}
    (hs : ∀ m, c ≠ .sendRegion m) (hr : c ≠ .receiveRegion) :
    (step k q c).2.1.queue = q.queue := by
  cases c with
  | sendRegion m => exact absurd rfl (hs m)
  | receiveRegion => exact absurd rfl hr
  | send m t => rfl
  | sendMutex m t u c => rfl
  | sendEnd m t => rfl
  | sendLoop m t e => simp only [step]; split_ifs <;> rfl
  | sendTime m t e => simp only [step]; split_ifs <;> rfl
  | sendYield m t e => rfl
  | receive t => simp only [step]; split_ifs <;> rfl
  | receiveEnd t => rfl
  | receiveLoop t e => simp only [step]; split_ifs <;> rfl
  | receiveTime t e => simp only [step]; split_ifs <;> rfl
  | receiveYield t e => rfl
  | getNumMsg => rfl

end MessageQueue

end CppRtos
