import X86Energy.Library.WrapCounter

/-!
# Reading a counter

The sources that read a register of 32 bits keep its count in the 64 bits of
`last_reading`: `do_read` replaces the low half by the reading and carries into the
high half when the reading is smaller than the low half.  All of them share this
code; they differ in how the register is delivered.
-/

namespace X86Energy
namespace Access

/-- What the `struct reader_def`s of these sources have in common and `do_read` uses
besides the address of the register. -/
structure Reader where
  lastReading : UInt64
  unit : Float

/-- The values of a unit: `1.0 / pow(2.0, exponent)`, `-1.0` or 0. -/
inductive EnergyUnit
  | power (exponent : Nat)
  | invalid
  | zero
deriving DecidableEq, Repr

def EnergyUnit.toFloat : EnergyUnit → Float
  | power exponent => 1.0 / Float.pow 2.0 exponent.toFloat
  | invalid => -1.0
  | zero => 0.0

/-- The test `unit > 0.0`. -/
def EnergyUnit.positive : EnergyUnit → Bool
  | power _ => true
  | _ => false

/-- The new `last_reading`. -/
def accumulate (lastReading reading : UInt64) : UInt64 :=
  if reading < lastReading &&& 0xFFFFFFFF then
    (lastReading &&& 0xFFFFFFFF00000000) + 0x100000000 + reading
  else
    (lastReading &&& 0xFFFFFFFF00000000) + reading

/-- The common body of `do_read`: `result` is what the device delivered, `none` if it
failed, and `convert` makes it the 64-bit value that is compared and stored. -/
def readInto {α : Type} (convert : α → UInt64) (result : Option α) (reader : Reader) :
    Float × Reader :=
  match result with
  | none => (-1.0, reader)
  | some reading =>
      let last := accumulate reader.lastReading (convert reading)
      (reader.unit * last.toFloat, { reader with lastReading := last })

/-- `do_read` of `msr-rapl`, on the result of `pread`. -/
def Msr.doRead : Option UInt64 → Reader → Float × Reader := readInto id

/-- `do_read` of `msr-rapl-fam23`, which masks the register. -/
def MsrFam23.doRead : Option UInt64 → Reader → Float × Reader :=
  readInto fun reading => reading &&& 0xFFFFFFFF

/-- `do_read` of `likwid-rapl`, on the 32 bits of `power_read`. -/
def Likwid.doRead : Option UInt32 → Reader → Float × Reader := readInto UInt32.toUInt64

/-- `do_read` of `x86a-rapl`, on the result of `x86_adapt_get_setting`. -/
def X86Adapt.doRead : Option UInt64 → Reader → Float × Reader := readInto id

/-- `do_read` of `x86a-rapl-amd`. -/
def X86AdaptFam23.doRead : Option UInt64 → Reader → Float × Reader := readInto id

/-- The sources with such a `do_read`. -/
inductive WrapSource
  | msr
  | msrFam23
  | likwid
  | x86Adapt
  | x86AdaptFam23

namespace WrapSource

/-- What the device of a source delivers. -/
def Raw : WrapSource → Type
  | likwid => UInt32
  | _ => UInt64

def doRead : (source : WrapSource) → Option source.Raw → Reader → Float × Reader
  | msr => Msr.doRead
  | msrFam23 => MsrFam23.doRead
  | likwid => Likwid.doRead
  | x86Adapt => X86Adapt.doRead
  | x86AdaptFam23 => X86AdaptFam23.doRead

/-- The first `last_reading`: `setup` stores what it reads as it is. -/
def setupReading : (source : WrapSource) → source.Raw → UInt64
  | likwid => UInt32.toUInt64
  | msr | msrFam23 | x86Adapt | x86AdaptFam23 => id

/-- The register shows an energy: its low half is the count modulo 2³², and the high half
is zero, except in `msr-rapl-fam23`. -/
def Shows : (source : WrapSource) → source.Raw → Nat → Prop
  | msrFam23 => fun (raw : UInt64) energy => raw.toNat % 2 ^ 32 = energy % 2 ^ 32
  | likwid => fun (raw : UInt32) energy => raw.toNat = energy % 2 ^ 32
  | msr | x86Adapt | x86AdaptFam23 => fun (raw : UInt64) energy => raw.toNat = energy % 2 ^ 32

/-- One read: it fails, or the register shows the energy. -/
def Delivers (source : WrapSource) : Option source.Raw → Option Nat → Prop
  | none, none => True
  | some raw, some energy => source.Shows raw energy
  | _, _ => False

/-- A run of reads, which may fail. -/
def readAll (source : WrapSource) (reader : Reader) (reads : List (Option source.Raw)) : Reader :=
  reads.foldl (fun reader read => (source.doRead read reader).2) reader

end WrapSource

section Words

theorem toNat_low (x : UInt64) : (x &&& 0xFFFFFFFF).toNat = x.toNat % 2 ^ 32 := by
  have hmask : (0xFFFFFFFF : UInt64).toNat = 2 ^ 32 - 1 := rfl
  rw [UInt64.toNat_and, hmask, Nat.and_two_pow_sub_one_eq_mod]

theorem toNat_high (x : UInt64) :
    (x &&& 0xFFFFFFFF00000000).toNat = x.toNat - x.toNat % 2 ^ 32 := by
  have hmask : (0xFFFFFFFF00000000 : UInt64).toNat = (2 ^ 32 - 1) <<< 32 := rfl
  have hdiv : x.toNat - x.toNat % 2 ^ 32 = (x.toNat >>> 32) <<< 32 := by
    rw [Nat.shiftRight_eq_div_pow, Nat.shiftLeft_eq]
    omega
  have hlt : x.toNat < 2 ^ 64 := x.toNat_lt
  rw [UInt64.toNat_and, hmask, hdiv]
  apply Nat.eq_of_testBit_eq
  intro i
  rw [Nat.testBit_and, Nat.testBit_shiftLeft, Nat.testBit_shiftLeft, Nat.testBit_shiftRight,
    Nat.testBit_two_pow_sub_one]
  by_cases hi : 32 ≤ i
  · have hback : 32 + (i - 32) = i := by omega
    rw [hback]
    by_cases hi' : i < 64
    · have hin : i - 32 < 32 := by omega
      simp [hi, hin]
    · have hzero : x.toNat.testBit i = false :=
        Nat.testBit_lt_two_pow (Nat.lt_of_lt_of_le hlt (Nat.pow_le_pow_right (by decide) (by omega)))
      simp [hzero]
  · simp [hi]

/-- The masks and the carry are those of a 32-bit counter in a 64-bit accumulator. -/
theorem toNat_accumulate (last reading : UInt64) :
    (accumulate last reading).toNat =
      WrapCounter.extend (2 ^ 32) last.toNat reading.toNat % 2 ^ 64 := by
  have hcarry : (0x100000000 : UInt64).toNat = 2 ^ 32 := rfl
  have hless : reading < last &&& 0xFFFFFFFF ↔ reading.toNat < last.toNat % 2 ^ 32 := by
    rw [UInt64.lt_iff_toNat_lt, toNat_low]
  unfold accumulate WrapCounter.extend
  by_cases h : reading.toNat < last.toNat % 2 ^ 32
  · rw [if_pos (hless.mpr h), if_pos h, UInt64.toNat_add, UInt64.toNat_add, toNat_high, hcarry,
      Nat.mod_add_mod]
  · rw [if_neg (fun hlt => h (hless.mp hlt)), if_neg h, UInt64.toNat_add, toNat_high,
      Nat.add_zero]

end Words

namespace WrapSource

/-- A read that succeeds is a step of the general counter. -/
theorem toNat_doRead {source : WrapSource} {raw : source.Raw} {energy : Nat}
    (h : source.Shows raw energy) (reader : Reader) :
    (source.doRead (some raw) reader).2.lastReading.toNat =
      WrapCounter.step (2 ^ 32) (2 ^ 64) reader.lastReading.toNat (some (energy % 2 ^ 32)) := by
  have hreads : ∀ reading : UInt64, reading.toNat = energy % 2 ^ 32 →
      (accumulate reader.lastReading reading).toNat =
        WrapCounter.step (2 ^ 32) (2 ^ 64) reader.lastReading.toNat (some (energy % 2 ^ 32)) := by
    intro reading hreading
    rw [toNat_accumulate, hreading]
    rfl
  cases source with
  | msr => exact hreads raw h
  | msrFam23 => exact hreads _ ((toNat_low raw).trans h)
  | likwid => exact hreads _ ((UInt32.toNat_toUInt64 raw).trans h)
  | x86Adapt => exact hreads raw h
  | x86AdaptFam23 => exact hreads raw h

/-- A read that fails. -/
theorem doRead_none (source : WrapSource) (reader : Reader) :
    source.doRead none reader = (-1.0, reader) := by
  cases source <;> rfl

theorem toNat_setupReading {source : WrapSource} {raw : source.Raw} {energy : Nat}
    (h : source.Shows raw energy) : (source.setupReading raw).toNat % 2 ^ 32 = energy % 2 ^ 32 := by
  have hmod : ∀ n : Nat, n = energy % 2 ^ 32 → n % 2 ^ 32 = energy % 2 ^ 32 := by
    intro n hn
    rw [hn, Nat.mod_mod]
  cases source with
  | msr => exact hmod _ h
  | msrFam23 => exact h
  | likwid => exact hmod _ ((UInt32.toNat_toUInt64 raw).trans h)
  | x86Adapt => exact hmod _ h
  | x86AdaptFam23 => exact hmod _ h

/-- A run of reads is a run of the general counter. -/
theorem toNat_readAll {source : WrapSource} {reads : List (Option source.Raw)}
    {energies : List (Option Nat)} (h : List.Forall₂ source.Delivers reads energies) :
    ∀ reader : Reader, (source.readAll reader reads).lastReading.toNat =
      (energies.map (Option.map (· % 2 ^ 32))).foldl (WrapCounter.step (2 ^ 32) (2 ^ 64))
        reader.lastReading.toNat := by
  induction h with
  | nil => exact fun _ => rfl
  | @cons read energy reads energies hread _ ih =>
      intro reader
      cases read with
      | none =>
          cases energy with
          | some _ => cases hread
          | none =>
              have hnext := ih (source.doRead none reader).2
              rw [doRead_none] at hnext
              change (source.readAll (source.doRead none reader).2 reads).lastReading.toNat = _
              rw [doRead_none]
              exact hnext
      | some raw =>
          cases energy with
          | none => cases hread
          | some energy =>
              change (source.readAll (source.doRead (some raw) reader).2 reads).lastReading.toNat = _
              rw [ih, toNat_doRead hread]
              rfl

/-- **`last_reading` moves as far as the energy**, in every source, over every run of
reads between which the energy rises by less than 2³², and a read that fails returns
-1.0 and changes nothing. -/
theorem lastReading_tracks (source : WrapSource) {raw : source.Raw} {energy₀ : Nat}
    (hsetup : source.Shows raw energy₀) (unit : Float) {reads : List (Option source.Raw)}
    {energies : List (Option Nat)} (hreads : List.Forall₂ source.Delivers reads energies)
    (hrising : WrapCounter.Rising (2 ^ 32) energy₀ energies) :
    (source.readAll ⟨source.setupReading raw, unit⟩ reads).lastReading -
        source.setupReading raw = UInt64.ofNat (WrapCounter.latest energy₀ energies - energy₀) ∧
      ∀ reader, source.doRead none reader = (-1.0, reader) := by
  refine ⟨?_, source.doRead_none⟩
  have hstart : WrapCounter.Tracks (2 ^ 32) (2 ^ 64) (source.setupReading raw).toNat energy₀
      (source.setupReading raw).toNat energy₀ := .start (toNat_setupReading hsetup)
  have htracks := WrapCounter.tracks_run (by decide) energies hstart hrising
  have hrun := toNat_readAll hreads ⟨source.setupReading raw, unit⟩
  rw [← hrun] at htracks
  have hmoved := htracks.moved
  have hlt := (source.setupReading raw).toNat_lt
  have hlt' := (source.readAll ⟨source.setupReading raw, unit⟩ reads).lastReading.toNat_lt
  apply UInt64.toNat_inj.mp
  rw [UInt64.toNat_sub, UInt64.toNat_ofNat']
  omega

/-- A register with high bits that wraps once, with a failed read before. -/
theorem lastReading_tracks_wrap :
    (msrFam23.readAll ⟨0x7FFFFFFFF, 0.5⟩ [none, some (0x900000005 : UInt64)]).lastReading -
        0x7FFFFFFFF = 6 ∧
      ∀ reader, msrFam23.doRead none reader = (-1.0, reader) :=
  @lastReading_tracks msrFam23 (0x7FFFFFFFF : UInt64) 0xFFFFFFFF rfl 0.5 _
    [none, some 0x100000005] (.cons trivial (.cons rfl .nil)) ⟨by decide, by decide, trivial⟩

end WrapSource

end Access
end X86Energy
