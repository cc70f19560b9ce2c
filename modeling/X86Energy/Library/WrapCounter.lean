import Mathlib.Data.Nat.ModEq
import Mathlib.Tactic.Linarith

/-!
# Extending a counter that wraps

A device shows the low part of a count, modulo `m`.  A reader keeps a wider
accumulator, modulo `M`: it replaces the low part by the reading and adds a carry
when the reading is smaller than the low part it has.

If the count moves by less than `m` between two reads, the accumulator moves with
the count (`tracks_run`), from any start and with any reads that fail.
-/

namespace WrapCounter

variable (m M : Nat)

/-- The accumulator with its low part replaced, and the carry. -/
def extend (acc reading : Nat) : Nat :=
  acc - acc % m + (if reading < acc % m then m else 0) + reading

/-- One read; `none` is a read that fails. -/
def step (acc : Nat) : Option Nat → Nat
  | none => acc
  | some reading => extend m acc reading % M

/-- Between two reads that succeed the count does not fall and moves by less than `m`. -/
def Rising (count : Nat) : List (Option Nat) → Prop
  | [] => True
  | none :: counts => Rising count counts
  | some count' :: counts => count ≤ count' ∧ count' < count + m ∧ Rising count' counts

/-- The count at the last read that succeeds. -/
def latest (count : Nat) : List (Option Nat) → Nat
  | [] => count
  | none :: counts => latest count counts
  | some count' :: counts => latest count' counts

/-- Since the start, the accumulator has moved as far as the count. -/
structure Tracks (acc₀ count₀ acc count : Nat) : Prop where
  le : count₀ ≤ count
  low : acc % m = count % m
  moved : acc % M = (acc₀ + (count - count₀)) % M

variable {m M}

theorem Tracks.start {acc count : Nat} (h : acc % m = count % m) :
    Tracks m M acc count acc count :=
  ⟨Nat.le_refl _, h, by rw [Nat.sub_self, Nat.add_zero]⟩

/-- The carry is right if the count moved by less than `m`. -/
theorem extend_eq {acc count count' : Nat} (hlow : acc % m = count % m) (hle : count ≤ count')
    (hlt : count' < count + m) : extend m acc (count' % m) = acc + (count' - count) := by
  have hm : 0 < m := by omega
  obtain ⟨d, rfl⟩ := Nat.exists_eq_add_of_le hle
  have hd : d < m := by omega
  have hsplit : (count + d) % m = if count % m + d < m then count % m + d
      else count % m + d - m := by
    have hr := Nat.mod_lt count hm
    rw [Nat.add_mod, Nat.mod_eq_of_lt hd]
    split
    · rename_i h
      exact Nat.mod_eq_of_lt h
    · rename_i h
      rw [Nat.mod_eq_sub_mod (by omega), Nat.mod_eq_of_lt (by omega)]
  have hacc := Nat.mod_le acc m
  rw [hlow] at hacc
  unfold extend
  rw [hsplit, hlow]
  split <;> split <;> omega

/-- A smaller reading means one more wrap. -/
theorem div_eq {count count' : Nat} (hle : count ≤ count') (hlt : count' < count + m) :
    count' / m = count / m + (if count' % m < count % m then 1 else 0) := by
  have hm : 0 < m := by omega
  have hsplit := Nat.div_add_mod count m
  have hsplit' := Nat.div_add_mod count' m
  have hrises : count / m ≤ count' / m := Nat.div_le_div_right hle
  have honce : count' / m ≤ count / m + 1 := by
    rw [← Nat.add_div_right count hm]
    exact Nat.div_le_div_right (Nat.le_of_lt hlt)
  rcases Nat.eq_or_lt_of_le hrises with hsame | hmore
  · rw [← hsame] at hsplit'
    rw [if_neg (by omega), ← hsame, Nat.add_zero]
  · have hnext : count' / m = count / m + 1 := by omega
    rw [hnext, Nat.mul_add, Nat.mul_one] at hsplit'
    rw [if_pos (by omega), hnext]

theorem Tracks.step (hdvd : m ∣ M) {acc₀ count₀ acc count count' : Nat}
    (h : Tracks m M acc₀ count₀ acc count) (hle : count ≤ count') (hlt : count' < count + m) :
    Tracks m M acc₀ count₀ (step m M acc (some (count' % m))) count' := by
  have hmoved : (acc + (count' - count)) % M = (acc₀ + (count' - count₀)) % M := by
    have hsum : count' - count₀ = count - count₀ + (count' - count) := by
      have := h.le
      omega
    rw [Nat.add_mod, h.moved, ← Nat.add_mod, hsum, Nat.add_assoc]
  rw [WrapCounter.step, extend_eq h.low hle hlt]
  refine ⟨Nat.le_trans h.le hle, ?_, ?_⟩
  · rw [Nat.mod_mod_of_dvd _ hdvd, Nat.add_mod, h.low, ← Nat.add_mod,
      Nat.add_sub_cancel' hle]
  · rw [Nat.mod_mod, hmoved]

/-- **The accumulator tracks the count** over any run of reads. -/
theorem tracks_run (hdvd : m ∣ M) {acc₀ count₀ : Nat} (counts : List (Option Nat)) :
    ∀ {acc count : Nat}, Tracks m M acc₀ count₀ acc count → Rising m count counts →
      Tracks m M acc₀ count₀
        ((counts.map (Option.map (· % m))).foldl (WrapCounter.step m M) acc)
        (latest count counts) := by
  induction counts with
  | nil => exact fun h _ => h
  | cons read counts ih =>
      intro acc count h hrising
      cases read with
      | none => exact ih h hrising
      | some count' => exact ih (h.step hdvd hrising.1 hrising.2.1) hrising.2.2

/-- What a reading of more than `m` adds to the high part of the accumulator, compared with
its low part alone: the reading's own high part, less the carry that it hides. -/
def excess (m previous reading : Nat) : Nat :=
  reading / m - (if reading % m < previous % m then 1 else 0)

/-- The excess of a run of readings. -/
def totalExcess (m : Nat) : Nat → List Nat → Nat
  | _, [] => 0
  | previous, reading :: readings => excess m previous reading + totalExcess m reading readings

theorem excess_congr {previous previous' : Nat} (h : previous % m = previous' % m)
    (reading : Nat) : excess m previous reading = excess m previous' reading := by
  unfold excess
  rw [h]

theorem totalExcess_congr {previous previous' : Nat} (h : previous % m = previous' % m) :
    ∀ readings, totalExcess m previous readings = totalExcess m previous' readings
  | [] => rfl
  | reading :: readings => by rw [totalExcess, totalExcess, excess_congr h]

/-- A reading and its low part. -/
theorem extend_eq_add_excess (hm : 0 < m) (acc reading : Nat) :
    extend m acc reading = extend m acc (reading % m) + excess m acc reading * m := by
  have hsplit := Nat.div_add_mod reading m
  have hacc := Nat.mod_lt acc hm
  unfold extend excess
  rcases Nat.eq_zero_or_pos (reading / m) with hzero | hpos
  · rw [hzero, Nat.zero_sub, Nat.zero_mul, Nat.add_zero]
    rw [hzero, Nat.mul_zero, Nat.zero_add] at hsplit
    rw [hsplit]
  · have hle : m * 1 ≤ m * (reading / m) := Nat.mul_le_mul_left m hpos
    rw [if_neg (show ¬ reading < acc % m by omega)]
    by_cases hcarry : reading % m < acc % m
    · rw [if_pos hcarry, if_pos hcarry, Nat.sub_mul, Nat.mul_comm (reading / m) m]
      omega
    · rw [if_neg hcarry, if_neg hcarry, Nat.sub_zero, Nat.mul_comm (reading / m) m]
      omega

theorem extend_mod (acc reading : Nat) : extend m acc reading % m = reading % m := by
  have hhigh : (acc - acc % m) % m = 0 := by
    have hsplit := Nat.div_add_mod acc m
    have hdvd : acc - acc % m = m * (acc / m) := by omega
    rw [hdvd, Nat.mul_mod_right]
  unfold extend
  split
  · rw [Nat.add_mod, Nat.add_mod_right, hhigh, Nat.zero_add, Nat.mod_mod]
  · rw [Nat.add_zero, Nat.add_mod, hhigh, Nat.zero_add, Nat.mod_mod]

/-- Two accumulators with the same low part extend alike. -/
theorem extend_add_mul (b k reading : Nat) :
    extend m (b + k * m) reading = extend m b reading + k * m := by
  have hle := Nat.mod_le b m
  unfold extend
  rw [Nat.add_mul_mod_self_right]
  split <;> omega

theorem extend_modEq (hdvd : m ∣ M) {a b : Nat} (h : a ≡ b [MOD M]) (reading : Nat) :
    extend m a reading ≡ extend m b reading [MOD M] := by
  have hone : ∀ {a b : Nat}, a ≤ b → a ≡ b [MOD M] →
      extend m a reading ≡ extend m b reading [MOD M] := by
    intro a b hle hab
    obtain ⟨j, hj⟩ := (Nat.modEq_iff_dvd' hle).mp hab
    obtain ⟨k, rfl⟩ := hdvd
    have hb : b = a + k * j * m := by
      have hcomm : m * k * j = k * j * m := by rw [Nat.mul_assoc, Nat.mul_comm]
      omega
    rw [hb, extend_add_mul, Nat.mul_comm (k * j) m, ← Nat.mul_assoc]
    exact (Nat.add_mul_mod_self_left _ _ _).symm
  rcases Nat.le_total a b with hle | hle
  · exact hone hle h
  · exact (hone hle h.symm).symm

/-- **A run on whole readings and one on their low parts** end as far apart as the excess of
the readings says. -/
theorem run_excess (hm : 0 < m) (hdvd : m ∣ M) (readings : List Nat) :
    ∀ {a b e : Nat}, a ≡ b + e * m [MOD M] →
      (readings.map some).foldl (WrapCounter.step m M) a ≡
        (readings.map fun reading => some (reading % m)).foldl (WrapCounter.step m M) b +
          (e + totalExcess m b readings) * m [MOD M] := by
  induction readings with
  | nil => exact fun h => h
  | cons reading readings ih =>
      intro a b e h
      have hlow : WrapCounter.step m M b (some (reading % m)) % m = reading % m := by
        rw [WrapCounter.step, Nat.mod_mod_of_dvd _ hdvd, extend_mod, Nat.mod_mod]
      have hstep : WrapCounter.step m M a (some reading) ≡
          WrapCounter.step m M b (some (reading % m)) +
            (e + excess m b reading) * m [MOD M] := by
        calc WrapCounter.step m M a (some reading)
          _ ≡ extend m a reading [MOD M] := Nat.mod_modEq _ _
          _ ≡ extend m (b + e * m) reading [MOD M] := extend_modEq hdvd h reading
          _ = extend m b (reading % m) + (e + excess m b reading) * m := by
              rw [extend_add_mul, extend_eq_add_excess hm, Nat.add_mul]
              omega
          _ ≡ WrapCounter.step m M b (some (reading % m)) +
                (e + excess m b reading) * m [MOD M] := ((Nat.mod_modEq _ _).add_right _).symm
      have hrest := ih hstep
      rw [totalExcess_congr hlow] at hrest
      rw [totalExcess, ← Nat.add_assoc]
      exact hrest

end WrapCounter
