import CppRtos.Mutex

/-! Tasks that call `acquire` and `release` on any number of mutexes. Critical regions
are atomic and tasks are switched arbitrarily: between two steps the environment puts
another kernel in place of the present one. -/
namespace CppRtos.Mutex

def Call.isRelease : Call → Bool
  | .release | .releaseOwner | .releaseRegion _ | .releaseYield | .releaseReturn => true
  | _ => false

def Call.isEntry : Call → Bool
  | .acquire _ | .release => true
  | _ => false

/-- `holding m t`: the last successful `acquire` of mutex `m` by task `t` has not been
followed by its own release. No step reads it. -/
structure Shared where
  kernel : Kernel
  mutexes : ℕ → Mutex
  holding : ℕ → TaskPtr → Bool := fun _ _ => false

/-- How a step of task `t` changes whether `t` is between a success of `acquire` and its
own release. -/
def holdingAfter (c : Call) (o : Outcome Call MutexResult) (before : Bool) : Bool :=
  match c with
  | .acquireLoop _ _ _ => if o = .ret .success then true else before
  | .release => if o = .ret .success then false else before
  | .releaseRegion _ => false
  | _ => before

/-- `blend k k'` is the kernel that results when the environment offers `k'` in state `k`. -/
def protocol (blend : Kernel → Kernel → Kernel) :
    Protocol TaskPtr Shared (ℕ × Call) MutexResult Kernel where
  entry t c s := s.kernel.currentTask = t ∧ c.2.isEntry = true
  enabled t _ s := s.kernel.currentTask = t
  step t c s :=
    let r := Mutex.step s.kernel (s.mutexes c.1) c.2
    (⟨r.1, Function.update s.mutexes c.1 r.2.1, Function.update s.holding c.1
      (Function.update (s.holding c.1) t (holdingAfter c.2 r.2.2 (s.holding c.1 t)))⟩,
      r.2.2.map (Prod.mk c.1) id)
  interferes _ _ := True
  interfere k' s := { s with kernel := blend s.kernel k' }

abbrev State := Config TaskPtr Shared (ℕ × Call)
abbrev Event := Protocol.Action TaskPtr (ℕ × Call) Kernel

instance (blend : Kernel → Kernel → Kernel) :
    ∀ t c s, Decidable ((protocol blend).entry t c s) := fun t c s =>
  inferInstanceAs (Decidable (s.kernel.currentTask = t ∧ c.2.isEntry = true))

instance (blend : Kernel → Kernel → Kernel) :
    ∀ t c s, Decidable ((protocol blend).enabled t c s) := fun t _ s =>
  inferInstanceAs (Decidable (s.kernel.currentTask = t))

instance (blend : Kernel → Kernel → Kernel) :
    ∀ e s, Decidable ((protocol blend).interferes e s) := fun _ _ =>
  inferInstanceAs (Decidable True)

def start (k : Kernel) : State := Protocol.start { kernel := k, mutexes := fun _ => Mutex.new }

end CppRtos.Mutex
