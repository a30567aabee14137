import CppRtos.Library.Machine
import Mathlib.Data.List.Basic

/-! Objects whose operations change a state and return a value, and forward simulation
between two objects with the same operations. Runs of machines as runs of a labelled relation. -/

/-- `op i s` is what operation `i` returns in state `s`, with the state after it. -/
structure DataObject (ι ω σ : Type*) where
  start : σ
  op : ι → σ → ω × σ

namespace DataObject
variable {ι ω σ σ' : Type*}

/-- The values returned by a sequence of operations, and the last state. -/
def runFrom (D : DataObject ι ω σ) : List ι → σ → List ω × σ
  | [], s => ([], s)
  | i :: is, s =>
    let rest := D.runFrom is (D.op i s).2
    ((D.op i s).1 :: rest.1, rest.2)

def run (D : DataObject ι ω σ) (is : List ι) : List ω × σ := D.runFrom is D.start

/-- Related states return equal values and stay related. -/
structure Simulates (C : DataObject ι ω σ) (A : DataObject ι ω σ') (R : σ → σ' → Prop) :
    Prop where
  start : R C.start A.start
  value : ∀ i s t, R s t → (C.op i s).1 = (A.op i t).1
  next : ∀ i s t, R s t → R (C.op i s).2 (A.op i t).2

namespace Simulates
variable {C : DataObject ι ω σ} {A : DataObject ι ω σ'} {R : σ → σ' → Prop}
  (h : Simulates C A R)
include h

theorem runFrom (is : List ι) {s : σ} {t : σ'} (hst : R s t) :
    (C.runFrom is s).1 = (A.runFrom is t).1 ∧ R (C.runFrom is s).2 (A.runFrom is t).2 := by
  induction is generalizing s t with
  | nil => exact ⟨rfl, hst⟩
  | cons i is ih =>
    obtain ⟨hvalues, hlast⟩ := ih (h.next i s t hst)
    refine ⟨?_, hlast⟩
    simp only [DataObject.runFrom, h.value i s t hst, hvalues]

/-- The simulated object cannot be told apart, and the last states are related. -/
theorem run (is : List ι) : (C.run is).1 = (A.run is).1 ∧ R (C.run is).2 (A.run is).2 :=
  h.runFrom is h.start

end Simulates

end DataObject

/-! ## Labelled relations -/
