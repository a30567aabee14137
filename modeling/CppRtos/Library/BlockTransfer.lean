import Mathlib.Data.List.FinRange
import Mathlib.Logic.Function.Basic
import Mathlib.Tactic.Common

/-! Blocks of consecutive words in a memory: registers stored to and loaded from a stack.
Addresses count bytes, and a word takes four of them. -/
namespace BlockTransfer
variable {β : Type*} {n : ℕ}

/-- Store the words one after the other from `base` on. -/
def store (m : ℕ → β) (base : ℕ) (ws : Fin n → β) : ℕ → β :=
  (List.finRange n).foldl (fun m (i : Fin n) => Function.update m (base + 4 * i) (ws i)) m

def load (m : ℕ → β) (base n : ℕ) : Fin n → β := fun i => m (base + 4 * i)

theorem foldl_update_of_ne (base : ℕ) (ws : Fin n → β) (l : List (Fin n)) (m : ℕ → β) {a : ℕ}
    (ha : ∀ i ∈ l, a ≠ base + 4 * i) :
    l.foldl (fun m (i : Fin n) => Function.update m (base + 4 * i) (ws i)) m a = m a := by
  induction l generalizing m with
  | nil => rfl
  | cons i l ih =>
    rw [List.foldl_cons, ih _ fun j hj => ha j (List.mem_cons_of_mem i hj),
      Function.update_of_ne (ha i List.mem_cons_self)]

theorem foldl_update_self (base : ℕ) (ws : Fin n → β) (l : List (Fin n)) (m : ℕ → β) {i : Fin n}
    (hi : i ∈ l) :
    l.foldl (fun m (i : Fin n) => Function.update m (base + 4 * i) (ws i)) m (base + 4 * i) =
      ws i := by
  induction l generalizing m with
  | nil => cases hi
  | cons j l ih =>
    rw [List.foldl_cons]
    by_cases hl : i ∈ l
    · exact ih _ hl
    · have hij : i = j := (List.mem_cons.mp hi).resolve_right hl
      have hne : ∀ k ∈ l, base + 4 * (i : ℕ) ≠ base + 4 * k := by
        intro k hk he
        refine hl ?_
        have hik : i = k := Fin.ext (by omega)
        rwa [hik]
      rw [foldl_update_of_ne base ws l _ hne, hij, Function.update_self]

/-- What has been stored is loaded. -/
@[simp] theorem load_store (m : ℕ → β) (base : ℕ) (ws : Fin n → β) :
    load (store m base ws) base n = ws := by
  funext i
  exact foldl_update_self base ws _ m (List.mem_finRange i)

theorem store_of_outside (m : ℕ → β) {base : ℕ} (ws : Fin n → β) {a : ℕ}
    (ha : a < base ∨ base + 4 * n ≤ a) : store m base ws a = m a := by
  refine foldl_update_of_ne base ws _ m fun i _ he => ?_
  have hi := i.isLt
  omega

theorem load_congr {m m' : ℕ → β} {base n : ℕ}
    (h : ∀ a, base ≤ a → a < base + 4 * n → m' a = m a) : load m' base n = load m base n := by
  funext i
  have hi := i.isLt
  exact h _ (by omega) (by omega)

theorem load_store_of_disjoint (m : ℕ → β) {base base' k : ℕ} (ws : Fin n → β)
    (h : base' + 4 * k ≤ base ∨ base + 4 * n ≤ base') :
    load (store m base ws) base' k = load m base' k := by
  refine load_congr fun a ha ha' => store_of_outside m ws ?_
  omega

end BlockTransfer
