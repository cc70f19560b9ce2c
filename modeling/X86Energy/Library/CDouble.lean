import Mathlib.Algebra.Order.Field.Rat

/-!
# The values of a `double`

A `double` that is finite is its exact value here: a result is the one before it is rounded,
which has the same sign.  The zero with a sign is 0.
-/

namespace CDouble

inductive Double
  | finite (q : ℚ)
  | inf (negative : Bool)
  | nan
deriving DecidableEq, Repr

namespace Double

/-- `x < 0.0`. -/
def IsNegative : Double → Prop
  | finite q => q < 0
  | inf negative => negative = true
  | nan => False

/-- `0.0 < x`. -/
def IsPositive : Double → Prop
  | finite q => 0 < q
  | inf negative => negative = false
  | nan => False

instance : DecidablePred IsNegative
  | finite q => inferInstanceAs (Decidable (q < 0))
  | inf negative => inferInstanceAs (Decidable (negative = true))
  | nan => inferInstanceAs (Decidable False)

instance : DecidablePred IsPositive
  | finite q => inferInstanceAs (Decidable (0 < q))
  | inf negative => inferInstanceAs (Decidable (negative = false))
  | nan => inferInstanceAs (Decidable False)

/-- The product with an unsigned integer. -/
def times : Double → Nat → Double
  | finite q, n => .finite (q * n)
  | inf _, 0 => .nan
  | inf negative, _ + 1 => .inf negative
  | nan, _ => .nan

theorem IsPositive.not_isNegative {x : Double} (h : x.IsPositive) : ¬ x.IsNegative := by
  cases x with
  | finite q => exact not_lt_of_gt h
  | inf negative =>
      have hpos : negative = false := h
      subst hpos
      exact nofun
  | nan => exact h.elim

/-- What is neither negative nor positive. -/
theorem not_isPositive_iff {x : Double} (h : ¬ x.IsNegative) :
    ¬ x.IsPositive ↔ x = .finite 0 ∨ x = .nan := by
  cases x with
  | finite q =>
      have hq : 0 ≤ q := not_lt.mp h
      constructor
      · intro hnot
        exact .inl (congrArg finite (le_antisymm (not_lt.mp hnot) hq))
      · rintro (heq | heq)
        · cases heq
          exact lt_irrefl 0
        · cases heq
  | inf negative =>
      have hpos : negative = false := by simpa [IsNegative] using h
      subst hpos
      exact iff_of_false (fun hnot => hnot rfl) (by simp)
  | nan => exact iff_of_true id (.inr rfl)

/-- A product with an unsigned integer has no sign that the factor does not have. -/
theorem not_isNegative_times {x : Double} (h : ¬ x.IsNegative) (n : Nat) :
    ¬ (x.times n).IsNegative := by
  cases x with
  | finite q => exact not_lt.mpr (mul_nonneg (not_lt.mp h) (Nat.cast_nonneg n))
  | inf negative =>
      cases n with
      | zero => exact nofun
      | succ n => exact h
  | nan =>
      cases n <;> exact nofun

end Double

end CDouble
