import Mathlib.Data.List.Basic
import Mathlib.Data.List.Count
import Mathlib.Data.List.Nodup
import Mathlib.Data.List.Perm.Basic
import Mathlib.Data.List.Range
import Mathlib.Data.Multiset.AddSub
import Mathlib.Logic.Function.Basic
import Mathlib.Logic.Function.Iterate
import Mathlib.Tactic.Common

/-! Tables of slots. Objects are put into the first free slot and taken out of the first slot
that holds them. -/
namespace SlotTable
variable {α : Type*} {n i : ℕ} {slots : ℕ → Option α} {x y : α}

/-- The objects in the table, slot by slot. -/
def entries (n : ℕ) (slots : ℕ → Option α) : List α := (List.range n).filterMap slots

/-- Every object occupies at most one slot. -/
def Single (n : ℕ) (slots : ℕ → Option α) : Prop :=
  ∀ i < n, ∀ j < n, ∀ x, slots i = some x → slots j = some x → i = j

theorem mem_entries : x ∈ entries n slots ↔ ∃ i < n, slots i = some x := by
  unfold entries
  simp only [List.mem_filterMap, List.mem_range]

theorem single_iff : Single n slots ↔ (entries n slots).Nodup := by
  unfold entries
  rw [List.Nodup, List.pairwise_filterMap, List.pairwise_iff_getElem]
  simp only [List.length_range, List.getElem_range]
  constructor
  · intro h i j hi hj hlt x hx y hy hxy
    have heq : i = j := h i hi j hj x hx (hxy ▸ hy)
    omega
  · intro h i hi j hj x hx hy
    by_contra hne
    rcases Nat.lt_or_gt_of_ne hne with hlt | hlt
    · exact h i j hi hj hlt x hx x hy rfl
    · exact h j i hj hi hlt x hy x hx rfl

theorem entries_update (slots : ℕ → Option α) (hi : i < n) : ∃ before after : List α, ∀ content,
    entries n (Function.update slots i content) = before ++ content.toList ++ after := by
  have hrange : List.range n = List.range i ++ i :: List.range' (i + 1) (n - i - 1) := by
    have happend : List.range' 0 i ++ List.range' (0 + i) (n - i) = List.range' 0 (i + (n - i)) :=
      List.range'_append_1
    have hcons : n - i = (n - i - 1) + 1 := by omega
    rw [show i + (n - i) = n by omega, Nat.zero_add, hcons, List.range'_succ] at happend
    rw [List.range_eq_range', List.range_eq_range', ← happend]
  have hother : ∀ (is : List ℕ) (content : Option α), i ∉ is →
      is.filterMap (Function.update slots i content) = is.filterMap slots := by
    intro is content hnot
    refine List.filterMap_congr fun j hj => Function.update_of_ne ?_ _ _
    rintro rfl
    exact hnot hj
  refine ⟨(List.range i).filterMap slots, (List.range' (i + 1) (n - i - 1)).filterMap slots,
    fun content => ?_⟩
  unfold entries
  rw [hrange, List.filterMap_append, List.filterMap_cons, Function.update_self,
    hother _ _ (by simp), hother _ _ (by simp)]
  cases content <;> simp

theorem entries_single (hi : i < n) (h : ∀ j < n, slots j = if j = i then some x else none) :
    entries n slots = [x] := by
  obtain ⟨before, after, hsplit⟩ := entries_update (fun _ => (none : Option α)) hi
  have hnone : before ++ after = [] := by
    have hempty := hsplit none
    rw [Function.update_eq_self_iff.mpr rfl, Option.toList_none, List.append_nil] at hempty
    rw [← hempty]
    exact List.filterMap_none _
  have hupdate : entries n slots = entries n (Function.update (fun _ => none) i (some x)) := by
    refine List.filterMap_congr fun j hj => ?_
    rw [h j (List.mem_range.mp hj), Function.update_apply]
  obtain ⟨rfl, rfl⟩ := List.append_eq_nil_iff.mp hnone
  rw [hupdate, hsplit]
  rfl

theorem foldl_slots {σ : Type*} (f : σ → α → σ) (n : ℕ) (slots : ℕ → Option α) (s : σ) :
    (List.range n).foldl (fun s i => (slots i).elim s (f s)) s = (entries n slots).foldl f s := by
  unfold entries
  generalize List.range n = is
  induction is generalizing s with
  | nil => rfl
  | cons i is ih =>
    rw [List.foldl_cons, ih]
    cases hi : slots i with
    | none => rw [List.filterMap_cons_none hi]; rfl
    | some x => rw [List.filterMap_cons_some hi]; rfl

variable [DecidableEq α]

def find (n : ℕ) (slots : ℕ → Option α) (content : Option α) : Option ℕ :=
  (List.range n).find? fun i => decide (slots i = content)

def insert (n : ℕ) (slots : ℕ → Option α) (x : α) : ℕ → Option α :=
  match find n slots none with
  | some i => Function.update slots i (some x)
  | none => slots

def erase (n : ℕ) (slots : ℕ → Option α) (x : α) : ℕ → Option α :=
  match find n slots (some x) with
  | some i => Function.update slots i none
  | none => slots

theorem find_eq_some {content : Option α} (h : find n slots content = some i) :
    i < n ∧ slots i = content := by
  unfold find at h
  have hmem := List.mem_of_find?_eq_some h
  have hcontent := List.find?_some h
  exact ⟨List.mem_range.mp hmem, of_decide_eq_true hcontent⟩

theorem find_eq_none {content : Option α} :
    find n slots content = none ↔ ∀ i < n, slots i ≠ content := by
  unfold find
  rw [List.find?_eq_none]
  simp only [List.mem_range, decide_eq_true_eq, ne_eq]

theorem find_some_eq_none : find n slots (some x) = none ↔ x ∉ entries n slots := by
  rw [find_eq_none, mem_entries]
  constructor
  · rintro h ⟨i, hi, hx⟩
    exact h i hi hx
  · exact fun h i hi hx => h ⟨i, hi, hx⟩

theorem insert_cases (n : ℕ) (slots : ℕ → Option α) (x : α) :
    (find n slots none = none ∧ insert n slots x = slots) ∨
      (find n slots none ≠ none ∧ (entries n (insert n slots x)).Perm (x :: entries n slots)) := by
  unfold insert
  cases hf : find n slots none with
  | none => exact .inl ⟨rfl, rfl⟩
  | some i =>
    obtain ⟨hi, hfree⟩ := find_eq_some hf
    obtain ⟨before, after, h⟩ := entries_update slots hi
    have hold := h (slots i)
    rw [Function.update_eq_self, hfree] at hold
    refine .inr ⟨by simp, ?_⟩
    dsimp only
    rw [h, hold]
    simp

theorem erase_of_not_mem (h : x ∉ entries n slots) : erase n slots x = slots := by
  unfold erase
  rw [find_some_eq_none.mpr h]

theorem erase_perm (h : x ∈ entries n slots) :
    (entries n slots).Perm (x :: entries n (erase n slots x)) := by
  unfold erase
  cases hf : find n slots (some x) with
  | none => exact absurd h (find_some_eq_none.mp hf)
  | some i =>
    obtain ⟨hi, hx⟩ := find_eq_some hf
    obtain ⟨before, after, hu⟩ := entries_update slots hi
    have hold := hu (slots i)
    rw [Function.update_eq_self, hx] at hold
    dsimp only
    rw [hu, hold]
    simp

theorem insert_eq_some_iff (h : x ≠ y) : insert n slots x i = some y ↔ slots i = some y := by
  unfold insert
  cases hf : find n slots none with
  | none => exact Iff.rfl
  | some j =>
    dsimp only
    rcases eq_or_ne i j with rfl | hi
    · rw [Function.update_self, (find_eq_some hf).2]
      simp [h]
    · rw [Function.update_of_ne hi]

theorem erase_eq_some_iff (h : x ≠ y) : erase n slots x i = some y ↔ slots i = some y := by
  unfold erase
  cases hf : find n slots (some x) with
  | none => exact Iff.rfl
  | some j =>
    dsimp only
    rcases eq_or_ne i j with rfl | hi
    · rw [Function.update_self, (find_eq_some hf).2]
      simp [h]
    · rw [Function.update_of_ne hi]

/-- A further occupied slot is one too many exactly if the object was in the table. -/
theorem single_insert (h : Single n slots) : Single n (insert n slots x) ↔
    x ∉ entries n slots ∨ find n slots none = none := by
  rcases insert_cases n slots x with ⟨hf, he⟩ | ⟨hf, hp⟩
  · rw [he]
    exact iff_of_true h (.inr hf)
  · rw [single_iff, hp.nodup_iff, List.nodup_cons]
    have hnodup := single_iff.mp h
    constructor
    · exact fun hn => .inl hn.1
    · exact fun hor => ⟨hor.resolve_right hf, hnodup⟩

theorem single_erase (h : Single n slots) :
    Single n (erase n slots x) ∧ x ∉ entries n (erase n slots x) := by
  by_cases hx : x ∈ entries n slots
  · have hp := erase_perm hx
    have hnodup := single_iff.mp h
    rw [hp.nodup_iff, List.nodup_cons] at hnodup
    exact ⟨single_iff.mpr hnodup.2, hnodup.1⟩
  · rw [erase_of_not_mem hx]
    exact ⟨h, hx⟩

theorem mem_insert (h : y ∈ entries n (insert n slots x)) :
    (y = x ∧ find n slots none ≠ none) ∨ y ∈ entries n slots := by
  rcases insert_cases n slots x with ⟨-, he⟩ | ⟨hf, hp⟩
  · rw [he] at h
    exact .inr h
  · rw [hp.mem_iff, List.mem_cons] at h
    exact h.imp_left fun hy => ⟨hy, hf⟩

theorem mem_erase (h : y ∈ entries n (erase n slots x)) : y ∈ entries n slots := by
  by_cases hx : x ∈ entries n slots
  · exact (erase_perm hx).mem_iff.mpr (List.mem_cons_of_mem _ h)
  · rwa [erase_of_not_mem hx] at h

/-- A loop that changes the value at every object it visits applies the change as often as it
visits the object. -/
theorem foldl_update {β : Type*} (g : β → β) (xs : List α) (d : α → β) :
    xs.foldl (fun d x => Function.update d x (g (d x))) d = fun y => g^[xs.count y] (d y) := by
  induction xs generalizing d with
  | nil => rfl
  | cons x xs ih =>
    rw [List.foldl_cons, ih]
    funext y
    by_cases hy : y = x
    · rw [hy, Function.update_self, List.count_cons_self, Function.iterate_succ_apply]
    · rw [Function.update_of_ne hy, List.count_cons_of_ne (Ne.symm hy)]

theorem count_of_single (h : Single n slots) (x : α) :
    (entries n slots).count x = if x ∈ entries n slots then 1 else 0 := by
  split_ifs with hx
  · exact List.count_eq_one_of_mem (single_iff.mp h) hx
  · exact List.count_eq_zero_of_not_mem hx

/-! ## The contents as a bounded bag -/

/-- The objects in the table, each as often as there are slots that hold it. -/
def bag (n : ℕ) (slots : ℕ → Option α) : Multiset α := entries n slots

theorem count_bag (x : α) : (bag n slots).count x = (entries n slots).count x :=
  Multiset.coe_count x _

omit [DecidableEq α] in
theorem bag_of_empty (h : ∀ i < n, slots i = none) : bag n slots = 0 := by
  refine Multiset.eq_zero_of_forall_notMem fun x hx => ?_
  obtain ⟨i, hi, hxi⟩ := mem_entries.mp (Multiset.mem_coe.mp hx)
  rw [h i hi] at hxi
  cases hxi

theorem find_none_iff : find n slots none ≠ none ↔ (bag n slots).card < n := by
  have hle : (entries n slots).length ≤ n := by
    have hfilter := List.length_filterMap_le slots (List.range n)
    rwa [List.length_range] at hfilter
  have hlength : (entries n slots).length = (List.range n).length ↔
      ∀ i ∈ List.range n, (slots i).isSome := List.filterMap_length_eq_length
  rw [List.length_range] at hlength
  have hfull : find n slots none = none ↔ (entries n slots).length = n := by
    rw [find_eq_none, hlength]
    simp only [List.mem_range, Option.isSome_iff_ne_none]
  have hcard : (bag n slots).card = (entries n slots).length := Multiset.coe_card _
  rw [Ne, hfull, hcard]
  omega

theorem bag_insert (x : α) : bag n (insert n slots x) =
    if (bag n slots).card < n then x ::ₘ bag n slots else bag n slots := by
  rcases insert_cases n slots x with ⟨hf, he⟩ | ⟨hf, hp⟩
  · rw [he, if_neg fun hlt => find_none_iff.mpr hlt hf]
  · rw [if_pos (find_none_iff.mp hf)]
    exact Multiset.coe_eq_coe.mpr hp

theorem bag_erase (x : α) : bag n (erase n slots x) = (bag n slots).erase x := by
  by_cases hx : x ∈ entries n slots
  · have hbag : bag n slots = x ::ₘ bag n (erase n slots x) :=
      Multiset.coe_eq_coe.mpr (erase_perm hx)
    rw [hbag, Multiset.erase_cons_head]
  · rw [erase_of_not_mem hx]
    exact (Multiset.erase_of_notMem (mt Multiset.mem_coe.mp hx)).symm

end SlotTable
