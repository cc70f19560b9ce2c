import Mathlib.Data.List.Basic
import Mathlib.Tactic.Linarith

/-!
# Blocks of memory

A block is the list of its slots, which are `none` until they are written.  `realloc`
keeps what fits and adds slots at the end; `memcpy` is only known to copy between ranges
that do not overlap.

A block holds a list if its first slots contain it (`Holds`).
-/

namespace Block

variable {α : Type}

/-- `realloc` to a number of slots. -/
def resize (block : List (Option α)) (n : Nat) : List (Option α) :=
  block.take n ++ List.replicate (n - block.length) none

/-- The first slots of the block contain the list. -/
def Holds (block : List (Option α)) (l : List α) : Prop := block.take l.length = l.map some

instance [DecidableEq α] (block : List (Option α)) (l : List α) : Decidable (Holds block l) :=
  inferInstanceAs (Decidable (_ = _))

theorem holds_nil (block : List (Option α)) : Holds block [] := rfl

theorem holds_iff {block : List (Option α)} {l : List α} :
    Holds block l ↔ ∀ i (hi : i < l.length), block[i]? = some (some l[i]) := by
  constructor
  · intro h i hi
    have hget : (block.take l.length)[i]? = (l.map some)[i]? := by rw [h]
    rw [List.getElem?_take_of_lt hi, List.getElem?_map, List.getElem?_eq_getElem hi] at hget
    exact hget
  · intro h
    apply List.ext_getElem?
    intro i
    rw [List.getElem?_map]
    by_cases hi : i < l.length
    · rw [List.getElem?_take_of_lt hi, h i hi, List.getElem?_eq_getElem hi]
      rfl
    · rw [List.getElem?_eq_none (by rw [List.length_take]; omega),
        List.getElem?_eq_none (Nat.not_lt.mp hi)]
      rfl

theorem Holds.get {block : List (Option α)} {l : List α} (h : Holds block l) {i : Nat}
    (hi : i < l.length) : block[i]? = some (some l[i]) :=
  holds_iff.mp h i hi

theorem Holds.length_le {block : List (Option α)} {l : List α} (h : Holds block l) :
    l.length ≤ block.length := by
  have hlen := congrArg List.length h
  rw [List.length_take, List.length_map] at hlen
  omega

theorem length_resize (block : List (Option α)) (n : Nat) : (resize block n).length = n := by
  rw [resize, List.length_append, List.length_take, List.length_replicate]
  omega

/-- The last slot of a block that grew is not written. -/
theorem getElem?_resize (block : List (Option α)) :
    (resize block (block.length + 1))[block.length]? = some none := by
  rw [resize, List.take_of_length_le (Nat.le_succ _), Nat.add_sub_cancel_left,
    List.getElem?_append_right (Nat.le_refl _), Nat.sub_self]
  rfl

/-- `realloc` writes no slot. -/
theorem getElem?_resize_iff {block : List (Option α)} {n i : Nat} (hi : i < n) {x : α} :
    (resize block n)[i]? = some (some x) ↔ block[i]? = some (some x) := by
  unfold resize
  by_cases hlt : i < block.length
  · rw [List.getElem?_append_left (by rw [List.length_take]; omega), List.getElem?_take_of_lt hi]
  · rw [List.getElem?_append_right (by rw [List.length_take]; omega),
      List.getElem?_eq_none (Nat.not_lt.mp hlt), List.getElem?_replicate]
    split <;> simp

/-- A list grows by one element: `realloc` and the write of the new slot. -/
theorem Holds.push {block : List (Option α)} {l : List α} (h : Holds block l) (x : α) :
    Holds ((resize block (l.length + 1)).set l.length (some x)) (l ++ [x]) := by
  have hle := h.length_le
  have hlen : (resize block (l.length + 1)).length = l.length + 1 := by
    rw [resize, List.length_append, List.length_take, List.length_replicate]
    omega
  refine holds_iff.mpr fun i hi => ?_
  rw [List.length_append, List.length_singleton] at hi
  by_cases hlt : i < l.length
  · rw [List.getElem?_set_ne (by omega), List.getElem_append_left hlt, resize,
      List.getElem?_append_left (by rw [List.length_take]; omega),
      List.getElem?_take_of_lt (by omega)]
    exact h.get hlt
  · obtain rfl : i = l.length := by omega
    rw [List.getElem?_set_self (by omega), List.getElem_append_right (Nat.le_refl _)]
    simp

/-- What C says about `memcpy` inside one block: `copy block dst src n` moves `n` slots
from `src` to `dst` if the two ranges do not overlap. -/
structure Memcpy where
  copy : ∀ {α : Type}, List α → Nat → Nat → Nat → List α
  copies : ∀ {α : Type} (block : List α) (dst src n : Nat), dst + n ≤ block.length →
    src + n ≤ block.length → dst + n ≤ src ∨ src + n ≤ dst →
    copy block dst src n = block.take dst ++ (block.drop src).take n ++ block.drop (dst + n)

/-- Closing the gap at `i` with `memcpy`, if at most one slot is behind it: then this slot is
moved, and no other changes. -/
theorem Memcpy.getElem?_shift (M : Memcpy) {block : List α} {i n : Nat} (hi : i < n)
    (hn : n ≤ block.length) (hlast : n ≤ i + 2) (j : Nat) :
    (M.copy block i (i + 1) (n - i - 1))[j]? =
      block[if j = i ∧ n = i + 2 then i + 1 else j]? := by
  rw [M.copies block i (i + 1) (n - i - 1) (by omega) (by omega) (.inl (by omega))]
  by_cases hone : n = i + 2
  · have hcount : n - i - 1 = 1 := by omega
    rw [hcount]
    rcases Nat.lt_trichotomy j i with hj | rfl | hj
    · rw [if_neg (by omega), List.append_assoc,
        List.getElem?_append_left (by rw [List.length_take]; omega), List.getElem?_take_of_lt hj]
    · rw [if_pos ⟨rfl, hone⟩, List.append_assoc,
        List.getElem?_append_right (by rw [List.length_take]; omega), List.length_take,
        Nat.min_eq_left (by omega), Nat.sub_self,
        List.getElem?_append_left (by rw [List.length_take, List.length_drop]; omega),
        List.getElem?_take_of_lt (by omega), List.getElem?_drop]
    · have hlen : (block.take i ++ (block.drop (i + 1)).take 1).length = i + 1 := by
        rw [List.length_append, List.length_take, List.length_take, List.length_drop]
        omega
      rw [if_neg (by omega), List.getElem?_append_right (by omega), hlen, List.getElem?_drop]
      congr 1
      omega
  · have hcount : n - i - 1 = 0 := by omega
    rw [if_neg fun h => hone h.2, hcount, List.take_zero, List.append_nil, Nat.add_zero,
      List.take_append_drop]

/-- Then the block holds the list without the element at `i`. -/
theorem Memcpy.holds_eraseIdx (M : Memcpy) {block : List (Option α)} {l : List α}
    (h : Holds block l) {i : Nat} (hi : i < l.length) (hlast : l.length ≤ i + 2) :
    Holds (M.copy block i (i + 1) (l.length - i - 1)) (l.eraseIdx i) := by
  have herase : (l.eraseIdx i).length = l.length - 1 := List.length_eraseIdx_of_lt hi
  refine holds_iff.mpr fun j hj => ?_
  rw [herase] at hj
  rw [M.getElem?_shift hi h.length_le hlast, List.getElem_eraseIdx]
  by_cases hji : j < i
  · rw [dif_pos hji, if_neg (by omega)]
    exact h.get _
  · obtain rfl : j = i := by omega
    rw [dif_neg hji, if_pos ⟨rfl, by omega⟩]
    exact h.get _

end Block
