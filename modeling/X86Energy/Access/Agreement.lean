import X86Energy.Access.DoRead

/-!
# Do the 32-bit readers agree?

The copies of `do_read` differ in one line: that of `msr-rapl-fam23` masks the reading
before it compares it and puts it into `last_reading`, the others take all 64 bits.  As long
as the upper half of the register is zero nobody can tell.  Otherwise the upper half of every
reading stays in the upper half of `last_reading`.
-/

namespace X86Energy
namespace Access

/-- A run of reads that succeed. -/
def readValues (doRead : Option UInt64 → Reader → Float × Reader) (reader : Reader)
    (raws : List UInt64) : Reader :=
  raws.foldl (fun reader raw => (doRead (some raw) reader).2) reader

/-- How far `last_reading` moves from the value that `setup` stored. -/
def change (doRead : Option UInt64 → Reader → Float × Reader) (unit : Float) (initial : UInt64)
    (raws : List UInt64) : UInt64 :=
  (readValues doRead ⟨initial, unit⟩ raws).lastReading - initial

/-- **The readers agree** with that of `msr-rapl-fam23`. -/
structure ReadersAgree (unit : Float) (initial : UInt64) (raws : List UInt64) : Prop where
  msr : change Msr.doRead unit initial raws = change MsrFam23.doRead unit initial raws
  x86Adapt : change X86Adapt.doRead unit initial raws = change MsrFam23.doRead unit initial raws
  x86AdaptFam23 :
    change X86AdaptFam23.doRead unit initial raws = change MsrFam23.doRead unit initial raws

/-- A run of reads is a run of the general counter on the converted values. -/
theorem toNat_readValues (convert : UInt64 → UInt64) (raws : List UInt64) :
    ∀ reader : Reader, (readValues (readInto convert) reader raws).lastReading.toNat =
      (raws.map fun raw => some (convert raw).toNat).foldl (WrapCounter.step (2 ^ 32) (2 ^ 64))
        reader.lastReading.toNat := by
  induction raws with
  | nil => exact fun _ => rfl
  | cons raw raws ih =>
      intro reader
      have hstep : (readInto convert (some raw) reader).2.lastReading.toNat =
          WrapCounter.step (2 ^ 32) (2 ^ 64) reader.lastReading.toNat
            (some (convert raw).toNat) := toNat_accumulate _ _
      change (readValues (readInto convert) (readInto convert (some raw) reader).2 raws).lastReading.toNat
        = _
      rw [ih, hstep]
      rfl

/-- Readings as they are and masked ones move `last_reading` alike exactly if the excess of
the readings is a multiple of 2³². -/
theorem change_eq_iff (unit : Float) (initial : UInt64) (raws : List UInt64) :
    change (readInto id) unit initial raws = change MsrFam23.doRead unit initial raws ↔
      WrapCounter.totalExcess (2 ^ 32) initial.toNat (raws.map UInt64.toNat) % 2 ^ 32 = 0 := by
  have hwhole := toNat_readValues id raws ⟨initial, unit⟩
  have hmasked := toNat_readValues (fun reading => reading &&& 0xFFFFFFFF) raws ⟨initial, unit⟩
  simp only [toNat_low] at hmasked
  have hstart : initial.toNat ≡ initial.toNat + 0 * 2 ^ 32 [MOD 2 ^ 64] := by
    rw [Nat.zero_mul, Nat.add_zero]
  have hrun := WrapCounter.run_excess (by decide) (by decide) (raws.map UInt64.toNat) hstart
  rw [List.map_map, List.map_map, Nat.zero_add] at hrun
  have hends : (readValues (readInto id) ⟨initial, unit⟩ raws).lastReading.toNat ≡
      (readValues MsrFam23.doRead ⟨initial, unit⟩ raws).lastReading.toNat +
        WrapCounter.totalExcess (2 ^ 32) initial.toNat (raws.map UInt64.toNat) * 2 ^ 32
        [MOD 2 ^ 64] := by
    unfold MsrFam23.doRead
    rw [hwhole, hmasked]
    exact hrun
  have hlt := (readValues (readInto id) ⟨initial, unit⟩ raws).lastReading.toNat_lt
  have hlt' := (readValues MsrFam23.doRead ⟨initial, unit⟩ raws).lastReading.toNat_lt
  unfold Nat.ModEq at hends
  unfold change
  rw [UInt64.sub_left_inj, ← UInt64.toNat_inj]
  omega

/-- **The readers agree exactly if the excess is a multiple of 2³²**: the upper halves of the
values, each less one where the lower half has fallen, add up to it. -/
theorem readersAgree_iff (unit : Float) (initial : UInt64) (raws : List UInt64) :
    ReadersAgree unit initial raws ↔
      WrapCounter.totalExcess (2 ^ 32) initial.toNat (raws.map UInt64.toNat) % 2 ^ 32 = 0 := by
  constructor
  · exact fun h => (change_eq_iff unit initial raws).mp h.msr
  · intro h
    have hsame := (change_eq_iff unit initial raws).mpr h
    exact ⟨hsame, hsame, hsame⟩

/-- **One bit in the upper half** of the register: the readers disagree by 2³². -/
theorem not_readersAgree_upperBit :
    ¬ ∀ (unit : Float) (initial : UInt64) (raws : List UInt64), ReadersAgree unit initial raws := by
  intro h
  have hsame : (0x100000000 : UInt64) = 0 := (h 0.5 0 [0x100000000]).msr
  exact absurd hsame (by decide)

end Access
end X86Energy
