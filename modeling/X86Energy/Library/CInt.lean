import Mathlib.Data.Int.Interval
import Mathlib.Tactic.Linarith

/-!
# C integer types on an LP64 machine

C integers are mathematical integers here; a conversion to a narrower type is
the explicit reduction of this file.  `int` and `int32_t` have 32 bits, `long`
and `size_t` have 64.
-/

namespace CInt

def intMax : Int := 2147483647

def intMin : Int := -2147483648

def longMax : Int := 9223372036854775807

def longMin : Int := -9223372036854775808

/-- The values of `int` and `int32_t`. -/
def IsInt32 (x : Int) : Prop := intMin ≤ x ∧ x ≤ intMax

/-- The values of `long`. -/
def IsLong (x : Int) : Prop := longMin ≤ x ∧ x ≤ longMax

instance (x : Int) : Decidable (IsInt32 x) := inferInstanceAs (Decidable (_ ∧ _))

instance (x : Int) : Decidable (IsLong x) := inferInstanceAs (Decidable (_ ∧ _))

/-- Conversion to `int` or `int32_t`. -/
def toInt32 (x : Int) : Int := Int.bmod x 4294967296

/-- Conversion to `size_t` or `unsigned long`. -/
def toSize (x : Int) : Nat := (x % 18446744073709551616).toNat

theorem toInt32_of_isInt32 {x : Int} (h : IsInt32 x) : toInt32 x = x := by
  obtain ⟨hlo, hhi⟩ := h
  unfold intMin at hlo
  unfold intMax at hhi
  unfold toInt32
  rw [Int.bmod_def]
  split <;> omega

theorem toInt32_isInt32 (x : Int) : IsInt32 (toInt32 x) := by
  unfold toInt32 IsInt32 intMin intMax
  rw [Int.bmod_def]
  split <;> constructor <;> omega

/-- Counts that fit into 32 bits stay apart. -/
theorem toInt32_natCast_inj {m n : Nat} (hm : m < 4294967296) (hn : n < 4294967296)
    (h : toInt32 (m : Int) = toInt32 (n : Int)) : m = n := by
  unfold toInt32 at h
  rw [Int.bmod_def, Int.bmod_def] at h
  split at h <;> split at h <;> omega

theorem toSize_natCast {n : Nat} (h : n < 18446744073709551616) :
    toSize (n : Int) = n := by
  unfold toSize
  omega

/-- Sign extension to `unsigned long` loses nothing of an `int32_t`. -/
theorem toSize_inj {x y : Int} (hx : IsInt32 x) (hy : IsInt32 y)
    (h : toSize x = toSize y) : x = y := by
  unfold IsInt32 intMin intMax at hx hy
  unfold toSize at h
  omega

/-- An `int` survives the conversion to `size_t` and back. -/
theorem toInt32_toSize {x : Int} (h : IsInt32 x) : toInt32 (toSize x : Int) = x := by
  obtain ⟨hlo, hhi⟩ := h
  unfold intMin at hlo
  unfold intMax at hhi
  unfold toInt32 toSize
  rw [Int.bmod_def]
  split <;> omega

/-- There are no more than 2³² of them. -/
theorem length_le_of_isInt32 {l : List Int} (hnodup : l.Nodup) (h : ∀ x ∈ l, IsInt32 x) :
    l.length ≤ 4294967296 := by
  have hsub : l.toFinset ⊆ Finset.Icc intMin intMax := by
    intro x hx
    exact Finset.mem_Icc.mpr (h x (List.mem_toFinset.mp hx))
  have hcard := Finset.card_le_card hsub
  rw [List.toFinset_card_of_nodup hnodup, Int.card_Icc] at hcard
  exact hcard

end CInt
