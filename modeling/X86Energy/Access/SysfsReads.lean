import Mathlib.Tactic.LinearCombination
import X86Energy.Access.Sysfs
import X86Energy.Library.WrapCounter

/-!
# Reading a powercap counter

`do_read` of `sysfs-powercap-rapl` counts how often the file showed less than before, and
takes each time for `max` units.  The counter of the kernel takes the values 0 to `max`,
so each time is worth one unit more.
-/

namespace X86Energy
namespace Access
namespace Sysfs

open CInt

/-- What `fscanf`, `fseek` and `fflush` deliver in one call. -/
structure FileRead where
  reading : Option Int
  seeks : Bool
  flushes : Bool

/-- The value that the call gets, if nothing fails. -/
def FileRead.value (read : FileRead) : Option Int :=
  if !read.seeks then none else if !read.flushes then none else read.reading

/-- The integer that `do_read` scales. -/
def total (counter : SysfsCounter) : Int :=
  counter.overflow * counter.max + counter.lastReading

def doRead (read : FileRead) (counter : SysfsCounter) : Float × SysfsCounter :=
  match read.value with
  | none => (-1.0, counter)
  | some reading =>
      let overflow :=
        if reading < counter.lastReading then counter.overflow + 1 else counter.overflow
      let counter := { counter with overflow := overflow, lastReading := reading }
      (1.0e-6 * Float.ofInt (total counter), counter)

/-- A run of reads, which may fail. -/
def readAll (counter : SysfsCounter) (reads : List FileRead) : SysfsCounter :=
  reads.foldl (fun counter read => (doRead read counter).2) counter

/-- A read fails, or the file shows the energy: it counts modulo `max + 1`. -/
def Shows (max : Nat) (read : FileRead) : Option Nat → Prop
  | none => read.value = none
  | some energy => read.value = some ((energy % (max + 1) : Nat) : Int)

theorem doRead_none {read : FileRead} (h : read.value = none) (counter : SysfsCounter) :
    doRead read counter = (-1.0, counter) := by
  unfold doRead
  rw [h]

/-- The counter after reads up to some energy. -/
structure Counted (max energy₀ energy : Nat) (counter : SysfsCounter) : Prop where
  max_eq : counter.max = max
  le : energy₀ ≤ energy
  overflow : counter.overflow = ((energy / (max + 1) : Nat) : Int) - (energy₀ / (max + 1) : Nat)
  lastReading : counter.lastReading = (energy % (max + 1) : Nat)

variable {max energy₀ energy : Nat} {counter : SysfsCounter}

/-- `setup` makes such a counter. -/
theorem counted_of_setup {arch : ArchNode} {dir : Powercap} {counterType : Architecture.Counter}
    {index : Nat} {o : SysfsOutcome} (h : setup arch dir counterType index o = .ok (some counter))
    (hmax : counter.max = max) (hreading : o.reading = some ((energy % (max + 1) : Nat) : Int)) :
    Counted max energy energy counter := by
  unfold setup at h
  simp only at h
  split at h
  · cases h
  · split at h
    · cases h
    · split at h
      · cases h
      · split at h
        · cases h
        · cases h
        · split at h
          · cases h
          · split at h
            · cases h
            · rename_i lastReading hlast
              split at h
              · cases h
              · cases h
                rw [hreading] at hlast
                exact ⟨hmax, Nat.le_refl _, by simp, (Option.some.inj hlast).symm⟩

/-- One read. -/
theorem Counted.step (h : Counted max energy₀ energy counter) {read : FileRead} {energy' : Nat}
    (hshows : Shows max read (some energy')) (hle : energy ≤ energy')
    (hlt : energy' < energy + (max + 1)) : Counted max energy₀ energy' (doRead read counter).2 := by
  have hvalue : read.value = some ((energy' % (max + 1) : Nat) : Int) := hshows
  have hdiv := WrapCounter.div_eq hle hlt
  unfold doRead
  rw [hvalue]
  refine ⟨h.max_eq, Nat.le_trans h.le hle, ?_, rfl⟩
  simp only [h.lastReading, h.overflow, Int.ofNat_lt]
  rw [hdiv]
  split <;> omega

/-- **Every run of reads** between which the energy rises by at most `max`. -/
theorem Counted.run {reads : List FileRead} {energies : List (Option Nat)}
    (hreads : List.Forall₂ (Shows max) reads energies) :
    ∀ {energy : Nat} {counter : SysfsCounter}, Counted max energy₀ energy counter →
      WrapCounter.Rising (max + 1) energy energies →
      Counted max energy₀ (WrapCounter.latest energy energies) (readAll counter reads) := by
  induction hreads with
  | nil => exact fun h _ => h
  | @cons read energy' reads energies hread _ ih =>
      intro energy counter h hrising
      cases energy' with
      | none =>
          have hsame : (doRead read counter).2 = counter := by rw [doRead_none hread]
          change Counted max energy₀ _ (readAll (doRead read counter).2 reads)
          rw [hsame]
          exact ih h hrising
      | some energy' => exact ih (h.step hread hrising.1 hrising.2.1) hrising.2.2

/-- **Each wrap is one unit short.** -/
theorem Counted.total_add (h : Counted max energy₀ energy counter) :
    total counter + counter.overflow = (energy₀ % (max + 1) : Nat) + ((energy : Int) - energy₀) := by
  have hsplit := Nat.div_add_mod energy (max + 1)
  have hsplit₀ := Nat.div_add_mod energy₀ (max + 1)
  zify at hsplit hsplit₀
  unfold total
  rw [h.overflow, h.lastReading, h.max_eq]
  push_cast
  linear_combination hsplit - hsplit₀

/-- A count of wraps is not negative. -/
theorem Counted.overflow_nonneg (h : Counted max energy₀ energy counter) :
    0 ≤ counter.overflow := by
  have hle := Nat.div_le_div_right (c := max + 1) h.le
  rw [h.overflow]
  omega

/-- No `long long` overflows while the energy itself fits. -/
theorem Counted.isLong (h : Counted max energy₀ energy counter)
    (hfits : IsLong ((energy₀ % (max + 1) : Nat) + ((energy : Int) - energy₀))) :
    IsLong counter.overflow ∧ IsLong (counter.overflow * counter.max) ∧ IsLong (total counter) := by
  have hsum := h.total_add
  have hoverflow := h.overflow_nonneg
  have hmax : (0 : Int) ≤ max := Int.natCast_nonneg _
  have hproduct : 0 ≤ counter.overflow * counter.max := by
    rw [h.max_eq]
    exact Int.mul_nonneg hoverflow hmax
  have hlast : 0 ≤ counter.lastReading := by
    rw [h.lastReading]
    exact Int.natCast_nonneg _
  have htotal : total counter = counter.overflow * counter.max + counter.lastReading := rfl
  unfold IsLong longMin longMax at *
  refine ⟨⟨?_, ?_⟩, ⟨?_, ?_⟩, ⟨?_, ?_⟩⟩ <;> omega

/-- What `do_read` scales moved as far as the energy, and a call that fails returns -1.0 and
changes nothing. -/
def CountsEnergy (energy₀ energy : Nat) (counter₀ counter : SysfsCounter) : Prop :=
  total counter - total counter₀ = (energy : Int) - energy₀ ∧
    ∀ read : FileRead, read.value = none → doRead read counter = (-1.0, counter)

/-- **A powercap counter counts right up to its first wrap**, and not after it: over any
run of reads between which the energy rises by at most `max`, the result moves as far as
the energy exactly if the counter of the kernel did not step from `max` to 0 since `setup`. -/
theorem countsEnergy_iff {counter₀ : SysfsCounter} (hsetup : Counted max energy₀ energy₀ counter₀)
    {reads : List FileRead} {energies : List (Option Nat)}
    (hreads : List.Forall₂ (Shows max) reads energies)
    (hrising : WrapCounter.Rising (max + 1) energy₀ energies) {energy : Nat}
    (henergy : energy = WrapCounter.latest energy₀ energies)
    (hfits : IsLong ((energy₀ % (max + 1) : Nat) + ((energy : Int) - energy₀))) :
    IsLong (total (readAll counter₀ reads)) ∧
      (CountsEnergy energy₀ energy counter₀ (readAll counter₀ reads) ↔
        energy / (max + 1) = energy₀ / (max + 1)) := by
  have hcounted := hsetup.run hreads hrising
  rw [← henergy] at hcounted
  refine ⟨(hcounted.isLong hfits).2.2, ?_⟩
  have hsum := hcounted.total_add
  have hsum₀ := hsetup.total_add
  have hoverflow := hcounted.overflow
  have hoverflow₀ := hsetup.overflow
  constructor
  · rintro ⟨htotal, _⟩
    omega
  · intro hsame
    exact ⟨by omega, fun read hfails => doRead_none hfails _⟩

/-- A zone whose file shows the end of its range. -/
def fullZone : SysfsCounter :=
  ⟨zonePrefix ++ ['0'], 0, 0, 262143328850, 0, 262143328850⟩

theorem fullZone_counted : Counted 262143328850 262143328850 262143328850 fullZone :=
  ⟨rfl, Nat.le_refl _, rfl, rfl⟩

/-- A read that fails, and one after the first wrap. -/
theorem countsEnergy_iff_fullZone :
    ¬ CountsEnergy 262143328850 262143328856 fullZone
      (readAll fullZone [⟨none, true, true⟩, ⟨some 5, true, true⟩]) := by
  have hshows : List.Forall₂ (Shows 262143328850) [⟨none, true, true⟩, ⟨some 5, true, true⟩]
      [none, some 262143328856] := .cons rfl (.cons rfl .nil)
  have hiff := (countsEnergy_iff fullZone_counted hshows ⟨by decide, by decide, trivial⟩ rfl
    (by decide)).2
  exact fun h => absurd (hiff.mp h) (by decide)

/-- **The first unit after a wrap is lost**: the counter steps from `max` to 0, and what
`do_read` scales stays as it was. -/
theorem not_countsEnergy_fullZone :
    ¬ ∀ (max energy₀ energy : Nat) (counter₀ : SysfsCounter) (reads : List FileRead)
      (energies : List (Option Nat)), Counted max energy₀ energy₀ counter₀ →
      List.Forall₂ (Shows max) reads energies → WrapCounter.Rising (max + 1) energy₀ energies →
      energy = WrapCounter.latest energy₀ energies →
      IsLong ((energy₀ % (max + 1) : Nat) + ((energy : Int) - energy₀)) →
      CountsEnergy energy₀ energy counter₀ (readAll counter₀ reads) := by
  intro h
  have htotal := (h _ _ 262143328851 fullZone [⟨some 0, true, true⟩] [some 262143328851]
    fullZone_counted (.cons rfl .nil) ⟨by decide, by decide, trivial⟩ rfl (by decide)).1
  exact absurd htotal (by decide)

end Sysfs
end Access
end X86Energy
