import X86Energy.Access.MsrHandles
import X86Energy.Access.Perf
import X86Energy.Access.X86Adapt

/-!
# The units that `setup` stores

The functions that find the unit of a counter report a failure by -1, -1.0, 0 or 1, and each
`setup` tests for some of these.  This file says, for the sources `msr-rapl`,
`msr-rapl-fam23`, `x86a-rapl` and `perf-rapl`, when the counter that a `setup` returns has a
unit that was read.
-/

namespace X86Energy
namespace Access

open CInt CDouble Architecture ArchNode Descriptors MsrState

/-- A unit as a number. -/
def EnergyUnit.toDouble : EnergyUnit → Double
  | power exponent => .finite (1 / 2 ^ exponent)
  | invalid => .finite (-1)
  | zero => .finite 0

theorem EnergyUnit.isPositive_iff (u : EnergyUnit) : u.toDouble.IsPositive ↔ u.positive = true := by
  cases u with
  | power exponent =>
      refine iff_of_true ?_ rfl
      change (0 : ℚ) < 1 / 2 ^ exponent
      exact one_div_pos.mpr (pow_pos two_pos exponent)
  | invalid => exact iff_of_false (by decide) (by decide)
  | zero => exact iff_of_false (by decide) (by decide)

/-- The processors for which the sources know the unit of the memory. -/
def HasDramConstant (host : Host) : Prop :=
  host.baseFamily = 6 ∧ host.extModel <<< 4 + host.baseModel ∈ [0x3f, 0x4e, 0x55]

instance (host : Host) : Decidable (HasDramConstant host) := inferInstanceAs (Decidable (_ ∧ _))

/-- A unit that is the constant of the model or was in the power unit register. -/
def EnergyUnit.ReadFrom (host : Host) (reads : List UInt64) (u : EnergyUnit) : Prop :=
  (HasDramConstant host ∧ u = .power 16) ∨ ∃ modifier ∈ reads, u = decodeUnit modifier

theorem EnergyUnit.ReadFrom.mono {host : Host} {reads reads' : List UInt64} {u : EnergyUnit}
    (h : u.ReadFrom host reads) (hsub : reads ⊆ reads') : u.ReadFrom host reads' := by
  rcases h with h | ⟨modifier, hmem, h⟩
  · exact .inl h
  · exact .inr ⟨modifier, hsub hmem, h⟩

section MsrUnits

/-- The unit that `setup` stores in the counter that it returns, `none` if it returns
`NULL`. -/
def MsrSource.storedUnit (source : MsrSource) (host : Host) (arch : ArchNode) (s : MsrState)
    (counterType : Counter) (index : Nat) (o : SetupOutcome) : Option EnergyUnit :=
  match source.asked counterType with
  | some (granularity, some _) =>
      match getTestCpu arch granularity index with
      | none => none
      | some cpu =>
          if cpu < 0 ∨ s.fds.length ≤ cpu.toNat then none
          else
            let opened := s.ensureOpen cpu.toNat o
            let unit := source.unitOf host counterType cpu.toNat o opened.1
            if opened.2 ∧ (unit.1.pread cpu.toNat o.register).isSome ∧ o.allocates ∧
                o.startsThread then some unit.2
            else none
  | _ => none

/-- What `get_default_unit` reads of the power unit register, if it comes to it. -/
def MsrState.unitRead (s : MsrState) (cpu : Nat) (o : SetupOutcome) : Option UInt64 :=
  if s.defaultUnit.positive then none
  else
    let opened :=
      if s.slot cpu ≤ 0 then s.openDevice cpu o.unitOpensMsr o.unitOpensMsrSafe else (s, true)
    if opened.2 then opened.1.pread cpu o.unitRegister else none

/-- What `get_dram_unit` reads of it. -/
def MsrState.dramUnitRead (host : Host) (s : MsrState) (cpu : Nat) (o : SetupOutcome) :
    Option UInt64 :=
  if s.dramUnit.positive ∨ host.baseFamily ≠ 6 ∨ HasDramConstant host then none
  else s.unitRead cpu o

/-- What the function of a source for the unit reads of it. -/
def MsrSource.unitRead (source : MsrSource) (host : Host) (counterType : Counter) (cpu : Nat)
    (o : SetupOutcome) (s : MsrState) : Option UInt64 :=
  match source with
  | rapl => if counterType = .dram then s.dramUnitRead host cpu o else s.unitRead cpu o
  | raplFam23 => s.unitRead cpu o

/-- The values of the power unit register that a call reads. -/
def MsrSource.unitReads (source : MsrSource) (host : Host) (arch : ArchNode) (s : MsrState) :
    MsrCall → List UInt64
  | .setup counterType index o =>
      match source.asked counterType with
      | some (granularity, some _) =>
          match getTestCpu arch granularity index with
          | none => []
          | some cpu =>
              if cpu < 0 ∨ s.fds.length ≤ cpu.toNat then []
              else
                let opened := s.ensureOpen cpu.toNat o
                if opened.2 then
                  (source.unitRead host counterType cpu.toNat o opened.1).toList
                else []
      | _ => []
  | _ => []

variable {s : MsrState} {cpu : Nat}

/-- What `addCounter` adds. -/
theorem counters_addCounter (s : MsrState) (cpu reg : Nat) (unit : EnergyUnit) (o : SetupOutcome) :
    ∃ reading, (s.addCounter cpu reg unit o).counters = s.counters ++
      ((if (s.pread cpu o.register).isSome ∧ o.allocates ∧ o.startsThread then some unit
        else none).toList.map fun unit => ⟨⟨reading, unit.toFloat⟩, cpu, reg⟩) := by
  unfold addCounter
  cases hread : s.pread cpu o.register with
  | none => exact ⟨0, by simp [closeSlot]⟩
  | some reading =>
      refine ⟨reading, ?_⟩
      cases o.allocates with
      | false => simp [closeSlot]
      | true => cases o.startsThread <;> simp [closeSlot]

/-- **What `get_default_unit` can do**: use the unit it has, fail, or read the register. -/
theorem getDefaultUnit_cases (s : MsrState) (cpu : Nat) (o : SetupOutcome) :
    (s.getDefaultUnit cpu o).1.fds.length = s.fds.length ∧
      (s.getDefaultUnit cpu o).1.counters = s.counters ∧
      (s.getDefaultUnit cpu o).1.dramUnit = s.dramUnit ∧
      ((s.defaultUnit.positive = true ∧ (s.getDefaultUnit cpu o).1.defaultUnit = s.defaultUnit ∧
          (s.getDefaultUnit cpu o).2 = s.defaultUnit) ∨
        ((s.getDefaultUnit cpu o).1.defaultUnit = s.defaultUnit ∧
          (s.getDefaultUnit cpu o).2 = .invalid) ∨
        ∃ modifier, s.unitRead cpu o = some modifier ∧
          (s.getDefaultUnit cpu o).1.defaultUnit = decodeUnit modifier ∧
          (s.getDefaultUnit cpu o).2 = decodeUnit modifier) := by
  have hdevice : ∀ (msr msrSafe : Bool),
      (s.openDevice cpu msr msrSafe).1.fds.length = s.fds.length ∧
      (s.openDevice cpu msr msrSafe).1.counters = s.counters ∧
      (s.openDevice cpu msr msrSafe).1.dramUnit = s.dramUnit ∧
      (s.openDevice cpu msr msrSafe).1.defaultUnit = s.defaultUnit := by
    intro msr msrSafe
    unfold openDevice
    split <;> exact ⟨List.length_set, rfl, rfl, rfl⟩
  unfold getDefaultUnit unitRead
  by_cases hcached : s.defaultUnit.positive = true
  · rw [if_pos hcached]
    exact ⟨rfl, rfl, rfl, .inl ⟨hcached, rfl, rfl⟩⟩
  · rw [if_neg hcached, if_neg hcached]
    by_cases hslot : s.slot cpu ≤ 0
    · simp only [if_pos hslot]
      obtain ⟨hlength, hcounters, hdram, hdefault⟩ :=
        hdevice o.unitOpensMsr o.unitOpensMsrSafe
      have hclosed := (List.length_set (i := cpu) (a := (-1 : Int))).trans hlength
      split
      · exact ⟨hlength, hcounters, hdram, .inr (.inl ⟨hdefault, rfl⟩)⟩
      · rename_i hopen
        rw [if_pos (by simpa using hopen)]
        split
        · exact ⟨hclosed, hcounters, hdram, .inr (.inl ⟨hdefault, rfl⟩)⟩
        · rename_i modifier hread
          exact ⟨hclosed, hcounters, hdram, .inr (.inr ⟨modifier, hread, rfl, rfl⟩)⟩
    · simp only [if_neg hslot, Bool.not_true, Bool.false_eq_true, if_false, if_true]
      split
      · exact ⟨rfl, rfl, rfl, .inr (.inl ⟨rfl, rfl⟩)⟩
      · rename_i modifier hread
        exact ⟨rfl, rfl, rfl, .inr (.inr ⟨modifier, hread, rfl, rfl⟩)⟩

/-- A closed slot delivers nothing. -/
theorem pread_of_closed (h : s.slot cpu = -1) (delivered : Option UInt64) :
    s.pread cpu delivered = none := by
  unfold pread
  rw [h]
  rfl

/-- A slot that delivers one register delivers what there is of another. -/
theorem pread_eq_delivered {delivered : Option UInt64}
    (h : (s.pread cpu delivered).isSome = true) (delivered' : Option UInt64) :
    s.pread cpu delivered' = delivered' := by
  unfold pread at h ⊢
  split at h
  · cases h
  · rfl

/-- Unless it has a unit or the slot is positive, `get_default_unit` leaves the slot closed. -/
theorem getDefaultUnit_closes (hcpu : cpu < s.fds.length)
    (hcached : ¬ s.defaultUnit.positive = true) (hslot : s.slot cpu ≤ 0) (o : SetupOutcome) :
    (s.getDefaultUnit cpu o).1.slot cpu = -1 := by
  unfold getDefaultUnit
  rw [if_neg hcached]
  simp only [if_pos hslot]
  cases hopen : (o.unitOpensMsr || o.unitOpensMsrSafe) with
  | false =>
      obtain ⟨hfail, hneg, _⟩ := openDevice_fails hcpu hopen
      simp only [hfail, Bool.not_false, if_true]
      exact hneg
  | true =>
      obtain ⟨hok, _, _, helse⟩ := openDevice_opens hcpu hopen
      have hneg : ((s.openDevice cpu o.unitOpensMsr o.unitOpensMsrSafe).1.closeSlot cpu
          (-1)).slot cpu = -1 := slot_set_self (by rw [helse.length]; exact hcpu) (-1)
      simp only [hok, Bool.not_true, Bool.false_eq_true, if_false]
      split <;> exact hneg

/-- **The unit of a counter whose register can still be read.**  If `get_default_unit` closes
the device, which it does unless the slot is positive, the read behind it fails. -/
theorem getDefaultUnit_of_pread (hcpu : cpu < s.fds.length) {o : SetupOutcome}
    (hread : ((s.getDefaultUnit cpu o).1.pread cpu o.register).isSome = true) :
    (s.getDefaultUnit cpu o).2.positive = true ↔
      s.defaultUnit.positive = true ∨ o.unitRegister.isSome = true := by
  by_cases hcached : s.defaultUnit.positive = true
  · unfold getDefaultUnit
    rw [if_pos hcached]
    exact iff_of_true hcached (.inl hcached)
  · by_cases hslot : s.slot cpu ≤ 0
    · rw [pread_of_closed (getDefaultUnit_closes hcpu hcached hslot o)] at hread
      cases hread
    · unfold getDefaultUnit at hread ⊢
      rw [if_neg hcached] at hread ⊢
      simp only [if_neg hslot, Bool.not_true, Bool.false_eq_true, if_false] at hread ⊢
      have hopen : (s.pread cpu o.register).isSome = true := by
        split at hread
        · exact hread
        · exact hread
      rw [pread_eq_delivered hopen]
      cases o.unitRegister with
      | none => exact iff_of_false Bool.false_ne_true (by simp [hcached])
      | some modifier => exact iff_of_true rfl (.inr rfl)

/-- The search for a unit adds no counter and leaves the size of `fds`. -/
theorem unitOf_keeps (source : MsrSource) (host : Host) (counterType : Counter) (cpu : Nat)
    (o : SetupOutcome) (s : MsrState) :
    (source.unitOf host counterType cpu o s).1.fds.length = s.fds.length ∧
      (source.unitOf host counterType cpu o s).1.counters = s.counters := by
  obtain ⟨hlength, hcounters, _⟩ := getDefaultUnit_cases s cpu o
  have hdram : (s.getDramUnit host cpu o).1.fds.length = s.fds.length ∧
      (s.getDramUnit host cpu o).1.counters = s.counters := by
    unfold getDramUnit
    split
    · exact ⟨rfl, rfl⟩
    · split
      · exact ⟨rfl, rfl⟩
      · split
        · exact ⟨rfl, rfl⟩
        · exact ⟨hlength, hcounters⟩
  cases source with
  | rapl =>
      unfold MsrSource.unitOf
      simp only
      split
      · exact hdram
      · exact ⟨hlength, hcounters⟩
  | raplFam23 => exact ⟨hlength, hcounters⟩

/-- What the static variables hold is a unit that was read, if it is positive. -/
def MsrState.UnitsRead (host : Host) (reads : List UInt64) (s : MsrState) : Prop :=
  (s.defaultUnit.positive = true → ∃ modifier ∈ reads, s.defaultUnit = decodeUnit modifier) ∧
    (s.dramUnit.positive = true → s.dramUnit.ReadFrom host reads)

variable {host : Host} {reads : List UInt64}

theorem MsrState.UnitsRead.mono {reads' : List UInt64} (h : s.UnitsRead host reads)
    (hsub : reads ⊆ reads') : s.UnitsRead host reads' := by
  refine ⟨fun hpos => ?_, fun hpos => (h.2 hpos).mono hsub⟩
  obtain ⟨modifier, hmem, heq⟩ := h.1 hpos
  exact ⟨modifier, hsub hmem, heq⟩

theorem MsrState.UnitsRead.congr {s' : MsrState} (h : s.UnitsRead host reads)
    (hdefault : s'.defaultUnit = s.defaultUnit) (hdram : s'.dramUnit = s.dramUnit) :
    s'.UnitsRead host reads := by
  unfold MsrState.UnitsRead
  rw [hdefault, hdram]
  exact h

theorem getDefaultUnit_unitsRead (h : s.UnitsRead host reads) (cpu : Nat) (o : SetupOutcome) :
    (s.getDefaultUnit cpu o).1.UnitsRead host (reads ++ (s.unitRead cpu o).toList) ∧
      ((s.getDefaultUnit cpu o).2.positive = true →
        ∃ modifier ∈ reads ++ (s.unitRead cpu o).toList,
          (s.getDefaultUnit cpu o).2 = decodeUnit modifier) := by
  have hmono := h.mono (List.subset_append_left reads (s.unitRead cpu o).toList)
  obtain ⟨_, _, hdram, hcases⟩ := getDefaultUnit_cases s cpu o
  rcases hcases with ⟨hpos, hdefault, hunit⟩ | ⟨hdefault, hunit⟩ |
    ⟨modifier, hread, hdefault, hunit⟩
  · refine ⟨hmono.congr hdefault hdram, fun _ => ?_⟩
    rw [hunit]
    exact hmono.1 hpos
  · refine ⟨hmono.congr hdefault hdram, fun hpos => ?_⟩
    rw [hunit] at hpos
    cases hpos
  · have hmem : modifier ∈ reads ++ (s.unitRead cpu o).toList := by
      rw [hread]
      simp
    refine ⟨⟨fun _ => ⟨modifier, hmem, hdefault⟩, ?_⟩, fun _ => ⟨modifier, hmem, hunit⟩⟩
    rw [hdram]
    exact hmono.2

theorem getDramUnit_unitsRead (h : s.UnitsRead host reads) (cpu : Nat) (o : SetupOutcome) :
    (s.getDramUnit host cpu o).1.UnitsRead host (reads ++ (s.dramUnitRead host cpu o).toList) ∧
      ((s.getDramUnit host cpu o).2.positive = true →
        (s.getDramUnit host cpu o).2.ReadFrom host
          (reads ++ (s.dramUnitRead host cpu o).toList)) := by
  have hmono := h.mono (List.subset_append_left reads (s.dramUnitRead host cpu o).toList)
  unfold getDramUnit
  split
  · exact ⟨hmono, hmono.2⟩
  · rename_i hcached
    split
    · exact ⟨hmono, nofun⟩
    · rename_i hfamily
      split
      · rename_i hmodel
        have hconstant : HasDramConstant host := ⟨not_not.mp hfamily, hmodel⟩
        exact ⟨⟨hmono.1, fun _ => .inl ⟨hconstant, rfl⟩⟩, fun _ => .inl ⟨hconstant, rfl⟩⟩
      · rename_i hmodel
        have hreads : s.dramUnitRead host cpu o = s.unitRead cpu o := by
          unfold dramUnitRead HasDramConstant
          rw [if_neg]
          rintro (h | h | h)
          · exact hcached h
          · exact hfamily h
          · exact hmodel h.2
        rw [hreads]
        obtain ⟨hread, hunit⟩ := getDefaultUnit_unitsRead h cpu o
        exact ⟨⟨hread.1, fun hpos => .inr (hunit hpos)⟩, fun hpos => .inr (hunit hpos)⟩

theorem unitOf_unitsRead (source : MsrSource) (h : s.UnitsRead host reads) (counterType : Counter)
    (cpu : Nat) (o : SetupOutcome) :
    (source.unitOf host counterType cpu o s).1.UnitsRead host
        (reads ++ (source.unitRead host counterType cpu o s).toList) ∧
      ((source.unitOf host counterType cpu o s).2.positive = true →
        (source.unitOf host counterType cpu o s).2.ReadFrom host
          (reads ++ (source.unitRead host counterType cpu o s).toList)) := by
  have hdefault := getDefaultUnit_unitsRead h cpu o
  cases source with
  | rapl =>
      unfold MsrSource.unitOf MsrSource.unitRead
      by_cases hdram : counterType = .dram
      · simp only [if_pos hdram]
        exact getDramUnit_unitsRead h cpu o
      · simp only [if_neg hdram]
        exact ⟨hdefault.1, fun hpos => .inr (hdefault.2 hpos)⟩
  | raplFam23 => exact ⟨hdefault.1, fun hpos => .inr (hdefault.2 hpos)⟩

/-- The unit can be had: it is cached, or the constant of the model, or the power unit register
can be read; and for the memory the processor is one of family 6. -/
def MsrSource.UnitAvailable (source : MsrSource) (host : Host) (s : MsrState)
    (counterType : Counter) (o : SetupOutcome) : Prop :=
  match source, counterType with
  | rapl, .dram =>
      s.dramUnit.positive = true ∨ (host.baseFamily = 6 ∧ (HasDramConstant host ∨
        s.defaultUnit.positive = true ∨ o.unitRegister.isSome = true))
  | _, _ => s.defaultUnit.positive = true ∨ o.unitRegister.isSome = true

theorem getDramUnit_of_pread (hcpu : cpu < s.fds.length) {o : SetupOutcome}
    (hread : ((s.getDramUnit host cpu o).1.pread cpu o.register).isSome = true) :
    (s.getDramUnit host cpu o).2.positive = true ↔
      MsrSource.rapl.UnitAvailable host s .dram o := by
  unfold MsrSource.UnitAvailable getDramUnit at *
  by_cases hcached : s.dramUnit.positive = true
  · rw [if_pos hcached]
    exact iff_of_true hcached (.inl hcached)
  · rw [if_neg hcached] at hread ⊢
    by_cases hfamily : host.baseFamily ≠ 6
    · rw [if_pos hfamily]
      exact iff_of_false Bool.false_ne_true
        (not_or.mpr ⟨hcached, fun h => hfamily h.1⟩)
    · rw [if_neg hfamily] at hread ⊢
      rw [not_not] at hfamily
      by_cases hmodel : host.extModel <<< 4 + host.baseModel ∈ [0x3f, 0x4e, 0x55]
      · rw [if_pos hmodel]
        exact iff_of_true rfl (.inr ⟨hfamily, .inl ⟨hfamily, hmodel⟩⟩)
      · rw [if_neg hmodel] at hread ⊢
        have hunit := getDefaultUnit_of_pread hcpu (o := o) hread
        refine hunit.trans ⟨fun h => .inr ⟨hfamily, .inr h⟩, ?_⟩
        rintro (h | ⟨_, h | h⟩)
        · exact absurd h hcached
        · exact absurd h.2 hmodel
        · exact h

/-- **When the unit of a returned counter is positive.** -/
theorem unitOf_of_pread (source : MsrSource) (hcpu : cpu < s.fds.length) {counterType : Counter}
    {o : SetupOutcome}
    (hread : ((source.unitOf host counterType cpu o s).1.pread cpu o.register).isSome = true) :
    (source.unitOf host counterType cpu o s).2.positive = true ↔
      source.UnitAvailable host s counterType o := by
  cases source with
  | rapl =>
      unfold MsrSource.unitOf at *
      by_cases hdram : counterType = .dram
      · subst hdram
        exact getDramUnit_of_pread hcpu hread
      · simp only [if_neg hdram] at hread ⊢
        rw [getDefaultUnit_of_pread hcpu hread]
        cases counterType with
        | dram => exact absurd rfl hdram
        | _ => exact Iff.rfl
  | raplFam23 =>
      rw [MsrSource.unitOf] at *
      rw [getDefaultUnit_of_pread hcpu hread]
      exact Iff.rfl

/-- The fields that `ensureOpen` leaves alone. -/
theorem ensureOpen_keeps (s : MsrState) (cpu : Nat) (o : SetupOutcome) :
    (s.ensureOpen cpu o).1.fds.length = s.fds.length ∧
      (s.ensureOpen cpu o).1.counters = s.counters ∧
      (s.ensureOpen cpu o).1.defaultUnit = s.defaultUnit ∧
      (s.ensureOpen cpu o).1.dramUnit = s.dramUnit := by
  unfold ensureOpen openDevice
  split
  · split <;> exact ⟨List.length_set, rfl, rfl, rfl⟩
  · exact ⟨rfl, rfl, rfl, rfl⟩

theorem addCounter_unitsRead {reg : Nat} {unit : EnergyUnit} {o : SetupOutcome}
    (h : s.UnitsRead host reads) : (s.addCounter cpu reg unit o).UnitsRead host reads := by
  unfold addCounter
  split
  · exact h
  · split
    · exact h
    · split <;> exact h

theorem setupOn_unitsRead (source : MsrSource) (h : s.UnitsRead host reads)
    (counterType : Counter) (cpu reg : Nat) (o : SetupOutcome) :
    (s.setupOn cpu (some reg) (source.unitOf host counterType cpu o) o).UnitsRead host
      (reads ++ if (s.ensureOpen cpu o).2 then
        (source.unitRead host counterType cpu o (s.ensureOpen cpu o).1).toList else []) := by
  obtain ⟨_, _, hdefault, hdram⟩ := ensureOpen_keeps s cpu o
  have hopened := h.congr hdefault hdram
  unfold setupOn
  cases hopen : (s.ensureOpen cpu o).2 with
  | false =>
      simp only [hopen, Bool.not_false, if_true, Bool.false_eq_true, if_false, List.append_nil]
      exact hopened
  | true =>
      simp only [hopen, Bool.not_true, Bool.false_eq_true, if_false, if_true]
      exact addCounter_unitsRead (unitOf_unitsRead source hopened counterType cpu o).1

variable {arch : ArchNode}

/-- **Every call keeps the units read.** -/
theorem MsrSource.step_unitsRead {source : MsrSource} {s' : MsrState} {call : MsrCall}
    (h : s.UnitsRead host reads) (hstep : source.step host arch s call = .ok s') :
    s'.UnitsRead host (reads ++ source.unitReads host arch s call) := by
  cases MsrSource.step_cases hstep with
  | idle call => exact h.mono (List.subset_append_left reads _)
  | @setup counterType index o granularity reg cpu hasked hcpu hneg hlt =>
      cases reg with
      | none =>
          -- a counter type that is refused once the device is open
          refine MsrState.UnitsRead.mono ?_ (List.subset_append_left reads _)
          obtain ⟨_, _, hdefault, hdram⟩ := ensureOpen_keeps s cpu.toNat o
          unfold setupOn
          simp only
          split <;> exact h.congr hdefault hdram
      | some reg =>
          have hreads : source.unitReads host arch s (.setup counterType index o) =
              if (s.ensureOpen cpu.toNat o).2 then
                (source.unitRead host counterType cpu.toNat o (s.ensureOpen cpu.toNat o).1).toList
              else [] := by
            unfold MsrSource.unitReads
            simp only [hasked, hcpu]
            rw [if_neg (not_or.mpr ⟨hneg, Nat.not_le.mpr hlt⟩)]
          rw [hreads]
          exact setupOn_unitsRead source h counterType cpu.toNat reg o
  | read => exact h.mono (List.subset_append_left reads _)
  | close => exact h.mono (List.subset_append_left reads _)

/-- The counter that a `setup` returns has the stored unit. -/
theorem MsrSource.counters_setup {source : MsrSource} {s' : MsrState} {counterType : Counter}
    {index : Nat} {o : SetupOutcome}
    (hstep : source.step host arch s (.setup counterType index o) = .ok s') :
    ∃ reading cpu reg, s'.counters = s.counters ++
      (source.storedUnit host arch s counterType index o).toList.map fun unit =>
        ⟨⟨reading, unit.toFloat⟩, cpu, reg⟩ := by
  rw [MsrSource.setup_eq] at hstep
  unfold MsrSource.storedUnit
  split at hstep
  · rename_i hasked
    cases hstep
    rw [hasked]
    exact ⟨0, 0, 0, (List.append_nil _).symm⟩
  · rename_i granularity reg hasked
    rw [hasked]
    split at hstep
    · cases hstep
    · rename_i cpu hcpu
      split at hstep
      · rename_i hneg
        cases hstep
        cases reg with
        | none => exact ⟨0, 0, 0, (List.append_nil _).symm⟩
        | some reg =>
            simp only [hcpu, if_pos (Or.inl hneg)]
            exact ⟨0, 0, 0, (List.append_nil _).symm⟩
      · rename_i hneg
        split at hstep
        · cases hstep
        · rename_i hlen
          cases hstep
          obtain ⟨_, hcounters, _, _⟩ := ensureOpen_keeps s cpu.toNat o
          unfold setupOn
          dsimp only
          cases reg with
          | none => exact ⟨0, 0, 0, by split <;> simpa using hcounters⟩
          | some reg =>
              simp only [hcpu, if_neg (not_or.mpr ⟨hneg, hlen⟩)]
              cases hopen : (s.ensureOpen cpu.toNat o).2 with
              | false => exact ⟨0, 0, 0, by simpa using hcounters⟩
              | true =>
                  obtain ⟨reading, hadd⟩ := counters_addCounter
                    (source.unitOf host counterType cpu.toNat o (s.ensureOpen cpu.toNat o).1).1
                    cpu.toNat reg
                    (source.unitOf host counterType cpu.toNat o (s.ensureOpen cpu.toNat o).1).2 o
                  refine ⟨reading, cpu.toNat, reg, ?_⟩
                  simp only [Bool.not_true, Bool.false_eq_true, if_false, true_and]
                  rw [hadd, (unitOf_keeps source host counterType cpu.toNat o _).2, hcounters]

end MsrUnits

end Access
end X86Energy
