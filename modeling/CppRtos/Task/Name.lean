import CppRtos.Library.Writes
import Mathlib.Algebra.Group.Nat.Defs

/-! The name of a task, an array inside its control block. `setName` computes the number of
characters to copy from the length of the source alone. -/
namespace CppRtos.TaskData

/-- `MAX_TASK_NAME`, the bytes of the array. -/
def maxTaskName : ℕ := 16

/-- `std::min(name.size(), name.size() - 1)` for a `size_t` of `w` bits. -/
def numToCopy (w size : ℕ) : ℕ := min size ((size + (2 ^ w - 1)) % 2 ^ w)

/-- The writes of `setName`, with the array at address `array`: `fill`, then `std::copy_n`. -/
def setNameWrites (w array : ℕ) (name : List (BitVec 8)) : List (ℕ × BitVec 8) :=
  Writes.block array (List.replicate maxTaskName 0) ++
    Writes.block array (name.take (numToCopy w name.length))

/-- The memory after `setName`. -/
def setName (w array : ℕ) (name : List (BitVec 8)) (memory : ℕ → BitVec 8) : ℕ → BitVec 8 :=
  Writes.run memory (setNameWrites w array name)

variable {w array : ℕ} {name : List (BitVec 8)}

theorem numToCopy_eq {size : ℕ} (h : size < 2 ^ w) : numToCopy w size = size - 1 := by
  unfold numToCopy
  rcases Nat.eq_zero_or_pos size with rfl | hpos
  · exact Nat.zero_min _
  · have hsum : size + (2 ^ w - 1) = size - 1 + 2 ^ w := by omega
    rw [hsum, Nat.add_mod_right, Nat.mod_eq_of_lt (by omega)]
    omega

theorem setName_apply (h : name.length < 2 ^ w) (memory : ℕ → BitVec 8) {i : ℕ}
    (hi : i < maxTaskName) : setName w array name memory (array + i) =
      (name.take (name.length - 1))[i]?.getD 0 := by
  have hzero : Writes.run memory (Writes.block array (List.replicate maxTaskName 0)) (array + i) =
      0 := by
    rw [Writes.run_block, List.getElem?_replicate_of_lt hi]
    rfl
  unfold setName setNameWrites
  rw [Writes.run_append, Writes.run_block, hzero, numToCopy_eq h]

theorem mem_setNameWrites (h : name.length < 2 ^ w) {a : ℕ} :
    a ∈ (setNameWrites w array name).map Prod.fst ↔
      array ≤ a ∧ a < array + max maxTaskName (name.length - 1) := by
  have hlength : (name.take (name.length - 1)).length = name.length - 1 := by
    rw [List.length_take]
    omega
  unfold setNameWrites
  rw [numToCopy_eq h, List.map_append, List.mem_append, Writes.addresses_block,
    Writes.addresses_block, List.length_replicate, hlength, List.mem_range'_1, List.mem_range'_1]
  omega

/-- All writes are inside the array, which then holds the first characters of the name, as
many as fit before a terminating 0, and zeros. -/
structure Names (w array : ℕ) (name : List (BitVec 8)) : Prop where
  inside : ∀ a ∈ (setNameWrites w array name).map Prod.fst,
    array ≤ a ∧ a < array + maxTaskName
  terminated : ∀ memory, ∃ i < maxTaskName, setName w array name memory (array + i) = 0
  stored : ∀ memory, ∀ i < maxTaskName, setName w array name memory (array + i) =
    (name.take (maxTaskName - 1))[i]?.getD 0

/-- One character less than there are is copied, so the name is right if none is missing or the
missing one is 0. -/
def Fits (name : List (BitVec 8)) : Prop :=
  name.length = 0 ∨ name.length = maxTaskName ∨
    (name.length < maxTaskName ∧ name.getLast? = some 0) ∨
    (name.length = maxTaskName + 1 ∧ name[maxTaskName - 1]? = some 0)

instance : DecidablePred Fits := fun name =>
  inferInstanceAs (Decidable (name.length = 0 ∨ name.length = maxTaskName ∨
    (name.length < maxTaskName ∧ name.getLast? = some 0) ∨
    (name.length = maxTaskName + 1 ∧ name[maxTaskName - 1]? = some 0)))

theorem getD_take (name : List (BitVec 8)) (n i : ℕ) :
    (name.take n)[i]?.getD 0 = if i < n then name[i]?.getD 0 else 0 := by
  rw [List.getElem?_take]
  split_ifs <;> rfl

theorem Fits.getD_take (h : Fits name) {i : ℕ} (hi : i < maxTaskName) :
    (name.take (name.length - 1))[i]?.getD 0 = (name.take (maxTaskName - 1))[i]?.getD 0 := by
  rw [TaskData.getD_take, TaskData.getD_take]
  rcases h with h | h | ⟨hlt, hlast⟩ | ⟨h, hlast⟩
  · have hnil : name = [] := List.length_eq_zero_iff.mp h
    subst hnil
    simp
  · rw [h]
  · by_cases hin : i < name.length - 1
    · rw [if_pos hin, if_pos (by omega)]
    · have hzero : name[i]?.getD 0 = 0 := by
        rcases Nat.lt_or_ge i name.length with hlt | hge
        · have hend : i = name.length - 1 := by omega
          rw [hend, ← List.getLast?_eq_getElem?, hlast]
          rfl
        · rw [List.getElem?_eq_none hge]
          rfl
      rw [if_neg hin, hzero, ite_self]
  · rw [h, Nat.add_sub_cancel, if_pos hi]
    by_cases hin : i < maxTaskName - 1
    · rw [if_pos hin]
    · have hend : i = maxTaskName - 1 := by omega
      rw [if_neg hin, hend, hlast]
      rfl

/-- Where a character other than 0 is missing, or one too many is written, the name is wrong. -/
theorem Names.fits (h : name.length < 2 ^ w) (hn : Names w array name) : Fits name := by
  have hlength : name.length ≤ maxTaskName + 1 := by
    by_contra hlong
    have hmem : array + maxTaskName ∈ (setNameWrites w array name).map Prod.fst := by
      rw [mem_setNameWrites h]
      omega
    have hin := hn.inside _ hmem
    omega
  have hget : ∀ i < maxTaskName, (if i < name.length - 1 then name[i]?.getD 0 else 0) =
      if i < maxTaskName - 1 then name[i]?.getD 0 else 0 := by
    intro i hi
    have hbyte := hn.stored (fun _ => 0) i hi
    rwa [setName_apply h _ hi, getD_take, getD_take] at hbyte
  have hsome : ∀ i < name.length, name[i]?.getD 0 = 0 → name[i]? = some 0 := by
    intro i hi hzero
    rw [List.getElem?_eq_getElem hi] at hzero ⊢
    exact congrArg some hzero
  rcases Nat.eq_zero_or_pos name.length with hz | hpos
  · exact .inl hz
  · rcases Nat.lt_trichotomy name.length maxTaskName with hlt | he | hgt
    · have hlast := hget (name.length - 1) (by omega)
      rw [if_neg (by omega), if_pos (by omega)] at hlast
      refine .inr (.inr (.inl ⟨hlt, ?_⟩))
      rw [List.getLast?_eq_getElem?]
      exact hsome _ (by omega) hlast.symm
    · exact .inr (.inl he)
    · have hmax : maxTaskName = 16 := rfl
      have hlast := hget (maxTaskName - 1) (by decide)
      rw [if_pos (by omega), if_neg (by omega)] at hlast
      exact .inr (.inr (.inr ⟨by omega, hsome _ (by omega) hlast⟩))

/-- `setName` stores the names that fit and no others. -/
theorem setName_iff (w array : ℕ) {name : List (BitVec 8)} (h : name.length < 2 ^ w) :
    Names w array name ↔ Fits name := by
  refine ⟨fun hn => hn.fits h, fun hf => ?_⟩
  have hstored : ∀ memory, ∀ i < maxTaskName, setName w array name memory (array + i) =
      (name.take (maxTaskName - 1))[i]?.getD 0 := by
    intro memory i hi
    rw [setName_apply h memory hi, hf.getD_take hi]
  constructor
  · intro a ha
    have hlength : name.length ≤ maxTaskName + 1 := by
      rcases hf with hz | he | ⟨hlt, -⟩ | ⟨he, -⟩ <;> omega
    have hmem := (mem_setNameWrites h).mp ha
    omega
  · intro memory
    refine ⟨maxTaskName - 1, by decide, ?_⟩
    rw [hstored memory _ (by decide), TaskData.getD_take, if_neg (by decide)]
  · exact hstored

/-- 16 characters: the last one is left out and 0 takes its place. -/
theorem setName_sixteen : Names 32 0x20000000 (List.replicate 16 65) :=
  (setName_iff 32 0x20000000 (by decide)).mpr (by decide)

/-- Of the name `AB` only `A` is stored, and the last byte of a name of 18 characters is written
behind the array. -/
theorem setName_truncates :
    let name : List (BitVec 8) := [65, 66]
    let m := setName 32 0x20000000 name fun _ => 0
    m 0x20000000 = 65 ∧ m 0x20000001 = 0 ∧ ¬ Names 32 0x20000000 name ∧
      setName 32 0x20000000 (List.replicate 18 65) (fun _ => 0) (0x20000000 + maxTaskName) = 65 ∧
      ¬ Names 32 0x20000000 (List.replicate 18 65) := by
  intro name m
  refine ⟨by decide, by decide, ?_, by decide, ?_⟩
  · intro h
    exact absurd (h.stored (fun _ => 0) 1 (by decide)) (by decide)
  · intro h
    exact absurd (h.inside (0x20000000 + maxTaskName) (by decide)) (by decide)

end CppRtos.TaskData
