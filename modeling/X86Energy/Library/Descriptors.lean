import Mathlib.Data.Int.Basic

/-!
# The descriptor table of a process

A table lists, by number, what the descriptors of a process refer to.  `open` takes
the lowest number that is free; `close` frees a number, and does nothing for a number
that is not open.  Numbers are `int`s, and no negative one is ever open.
-/

namespace Descriptors

variable {α : Type*}

/-- What a descriptor refers to, if it is open. -/
def fileAt (table : List (Option α)) (fd : Int) : Option α :=
  if fd < 0 then none else (table[fd.toNat]?).getD none

/-- The number that the next `open` takes. -/
def lowestFree (table : List (Option α)) : Nat := table.findIdx Option.isNone

/-- `open`. -/
def openFile (table : List (Option α)) (file : α) : List (Option α) :=
  if lowestFree table < table.length then table.set (lowestFree table) (some file)
  else table ++ [some file]

/-- `close`. -/
def closeFile (table : List (Option α)) (fd : Int) : List (Option α) :=
  if fd < 0 then table else table.set fd.toNat none

theorem fileAt_natCast (table : List (Option α)) (fd : Nat) :
    fileAt table (fd : Int) = (table[fd]?).getD none := by
  have hnonneg : ¬ (fd : Int) < 0 := by omega
  rw [fileAt, if_neg hnonneg, Int.toNat_natCast]

theorem nonneg_of_fileAt {table : List (Option α)} {fd : Int} {file : α}
    (h : fileAt table fd = some file) : 0 ≤ fd := by
  by_contra hneg
  rw [fileAt, if_pos (by omega)] at h
  cases h

theorem mem_of_fileAt {table : List (Option α)} {fd : Int} {file : α}
    (h : fileAt table fd = some file) : some file ∈ table := by
  have hneg : ¬ fd < 0 := by have := nonneg_of_fileAt h; omega
  rw [fileAt, if_neg hneg] at h
  cases hget : table[fd.toNat]? with
  | none =>
      rw [hget] at h
      cases h
  | some entry =>
      rw [hget, Option.getD_some] at h
      exact h ▸ List.mem_of_getElem? hget

/-- The number that `open` takes was not open. -/
theorem fileAt_lowestFree (table : List (Option α)) :
    fileAt table (lowestFree table : Int) = none := by
  rw [fileAt_natCast]
  cases hget : table[lowestFree table]? with
  | none => rfl
  | some entry =>
      obtain ⟨hlt, rfl⟩ := List.getElem?_eq_some_iff.mp hget
      have hfree : (table[lowestFree table]).isNone = true := List.findIdx_getElem
      rw [Option.getD_some]
      exact Option.isNone_iff_eq_none.mp hfree

/-- `open` makes its number refer to the file and changes no other. -/
theorem fileAt_openFile (table : List (Option α)) (file : α) (fd : Int) :
    fileAt (openFile table file) fd =
      if fd = lowestFree table then some file else fileAt table fd := by
  by_cases hneg : fd < 0
  · rw [fileAt, fileAt, if_pos hneg, if_pos hneg, if_neg (by omega)]
  · obtain ⟨n, rfl⟩ := Int.eq_ofNat_of_zero_le (by omega : 0 ≤ fd)
    rw [fileAt_natCast, fileAt_natCast]
    have hle : lowestFree table ≤ table.length := List.findIdx_le_length
    unfold openFile
    by_cases hroom : lowestFree table < table.length
    · rw [if_pos hroom]
      by_cases hn : n = lowestFree table
      · rw [hn, List.getElem?_set_self hroom, if_pos rfl, Option.getD_some]
      · rw [List.getElem?_set_ne (by omega), if_neg (by omega)]
    · rw [if_neg hroom]
      have hfull : lowestFree table = table.length := by omega
      rw [hfull]
      by_cases hn : n = table.length
      · rw [hn, List.getElem?_append_right (Nat.le_refl _), if_pos rfl, Nat.sub_self]
        rfl
      · rw [if_neg (by omega)]
        by_cases hlt : n < table.length
        · rw [List.getElem?_append_left hlt]
        · rw [List.getElem?_eq_none (by simp; omega), List.getElem?_eq_none (by omega)]

/-- `close` frees its number and no other. -/
theorem fileAt_closeFile (table : List (Option α)) (closed fd : Int) :
    fileAt (closeFile table closed) fd = if fd = closed then none else fileAt table fd := by
  by_cases hneg : fd < 0
  · rw [fileAt, fileAt, if_pos hneg, if_pos hneg, ite_self]
  · obtain ⟨n, rfl⟩ := Int.eq_ofNat_of_zero_le (by omega : 0 ≤ fd)
    rw [fileAt_natCast, fileAt_natCast]
    unfold closeFile
    by_cases hclosed : closed < 0
    · rw [if_pos hclosed, if_neg (by omega)]
    · obtain ⟨c, rfl⟩ := Int.eq_ofNat_of_zero_le (by omega : 0 ≤ closed)
      rw [if_neg hclosed, Int.toNat_natCast]
      by_cases hn : n = c
      · rw [if_pos (by rw [hn]), hn]
        by_cases hlt : c < table.length
        · rw [List.getElem?_set_self hlt, Option.getD_some]
        · rw [List.getElem?_eq_none (by simp; omega), Option.getD_none]
      · rw [if_neg (by omega), List.getElem?_set_ne (by omega)]

end Descriptors
