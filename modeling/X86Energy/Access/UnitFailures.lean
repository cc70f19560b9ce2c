import X86Energy.Access.Units

/-!
# Units that are failure codes

`UnitSetup` is one call of `setup` in one of four sources, in a state that the source can
reach.  `Sound` is what its counter should be: the unit is positive and was read, the event
of `perf-rapl` is the one that the file names, and no read that succeeds delivers a negative
energy.

`setup_sound_iff` says for which calls this is so.  The two msr sources take the -1.0 of
`get_default_unit` for a unit, `msr-rapl` and `x86a-rapl` the 0 of `get_dram_unit`, and
`perf-rapl` the 1 of `get_event_id` for the number of an event.
-/

namespace X86Energy
namespace Access

open CInt CDouble Architecture ArchNode

section States

variable (host : Host) (arch : ArchNode)

/-- The states that an msr source can reach, with the values of the power unit register that
it has read so far. -/
inductive MsrSource.Reaches (source : MsrSource) : List UInt64 → MsrState → Prop
  | start (table : List (Option File)) :
      Reaches source [] ⟨[], .invalid, .invalid, [], table, false⟩
  | init {reads : List UInt64} {s s' : MsrState} (h : Reaches source reads s) (maxEntries : Int)
      (allocates : Bool) (hinit : s.init maxEntries allocates = some s') : Reaches source reads s'
  | call {reads : List UInt64} {s s' : MsrState} {call : MsrCall} (h : Reaches source reads s)
      (hstep : source.step host arch s call = .ok s') :
      Reaches source (reads ++ source.unitReads host arch s call) s'

variable {host arch}

theorem MsrSource.Reaches.unitsRead {source : MsrSource} {reads : List UInt64} {s : MsrState}
    (h : source.Reaches host arch reads s) : s.UnitsRead host reads := by
  induction h with
  | start table => exact ⟨nofun, nofun⟩
  | init h maxEntries allocates hinit ih =>
      obtain ⟨n, rfl⟩ := init_some hinit
      exact ih
  | call h hstep ih => exact MsrSource.step_unitsRead ih hstep

/-- The values of `dram_unit` that `x86a-rapl` can reach. -/
inductive X86Adapt.Reaches (lib : X86AdaptLib) (host : Host) : EnergyUnit → Prop
  | start : Reaches lib host .invalid
  | call {arch : ArchNode} {unit unit' : EnergyUnit} {counterType : Counter} {index : Nat}
      {o : XaOutcome} {counter : Option XaCounter} (h : Reaches lib host unit)
      (hsetup : X86Adapt.setup lib host arch unit counterType index o = .ok (unit', counter)) :
      Reaches lib host unit'

/-- `dram_unit` behind the choice of the unit, and `modifier_dbl`. -/
def X86Adapt.modifier (host : Host) (dramUnit : EnergyUnit) (counterType : Counter) :
    EnergyUnit × EnergyUnit :=
  if counterType = .dram then X86Adapt.getDramUnit host dramUnit else (dramUnit, .invalid)

/-- What `setup` reads of the power unit register, if it comes to it. -/
def X86Adapt.unitRead (host : Host) (dramUnit : EnergyUnit) (counterType : Counter)
    (o : XaOutcome) : Option UInt64 :=
  if (X86Adapt.modifier host dramUnit counterType).2 = .invalid then o.unitSetting else none

/-- The unit that `setup` stores, if it comes to it. -/
def X86Adapt.unitOf (host : Host) (dramUnit : EnergyUnit) (counterType : Counter)
    (o : XaOutcome) : Option EnergyUnit :=
  if (X86Adapt.modifier host dramUnit counterType).2 = .invalid then o.unitSetting.map decodeUnit
  else some (X86Adapt.modifier host dramUnit counterType).2

/-- **What a `setup` leaves**: `NULL`, or a counter with the unit. -/
theorem X86Adapt.setup_cases {lib : X86AdaptLib} {dramUnit unit' : EnergyUnit}
    {counterType : Counter} {index : Nat} {o : XaOutcome} {counter : Option XaCounter}
    (h : X86Adapt.setup lib host arch dramUnit counterType index o = .ok (unit', counter)) :
    (unit' = dramUnit ∨ unit' = (X86Adapt.modifier host dramUnit counterType).1) ∧
      ∀ c, counter = some c → ∃ unit, X86Adapt.unitOf host dramUnit counterType o = some unit ∧
        c.unit = unit.toFloat := by
  unfold X86Adapt.setup at h
  split at h
  · cases h
    exact ⟨.inl rfl, nofun⟩
  · split at h
    · cases h
    · dsimp only at h
      split at h
      · cases h
        exact ⟨.inl rfl, nofun⟩
      · split at h
        · cases h
          exact ⟨.inl rfl, nofun⟩
        · split at h
          · cases h
            exact ⟨.inl rfl, nofun⟩
          · split at h
            · cases h
              exact ⟨.inl rfl, nofun⟩
            · split at h
              · cases h
                exact ⟨.inr rfl, nofun⟩
              · rename_i unit hunit
                split at h
                · cases h
                  exact ⟨.inr rfl, nofun⟩
                · split at h
                  · cases h
                    exact ⟨.inr rfl, nofun⟩
                  · cases h
                    refine ⟨.inr rfl, fun c hc => ⟨unit, hunit, ?_⟩⟩
                    cases hc
                    rfl

theorem X86Adapt.getDramUnit_static {unit : EnergyUnit}
    (h : unit.positive = true → HasDramConstant host ∧ unit = .power 16)
    (hpos : (X86Adapt.getDramUnit host unit).1.positive = true) :
    HasDramConstant host ∧ (X86Adapt.getDramUnit host unit).1 = .power 16 := by
  unfold X86Adapt.getDramUnit at hpos ⊢
  by_cases hcached : unit.positive = true
  · rw [if_pos hcached]
    exact h hcached
  · rw [if_neg hcached] at hpos ⊢
    by_cases hfamily : host.baseFamily ≠ 6
    · rw [if_pos hfamily] at hpos
      exact absurd hpos hcached
    · rw [if_neg hfamily] at hpos ⊢
      by_cases hmodel : host.extModel <<< 4 + host.baseModel ∈ [0x3f, 0x4e, 0x55]
      · rw [if_pos hmodel]
        exact ⟨⟨not_not.mp hfamily, hmodel⟩, rfl⟩
      · rw [if_neg hmodel] at hpos
        exact absurd hpos hcached

/-- `dram_unit` is the constant of the model, if it is positive. -/
theorem X86Adapt.Reaches.dramUnit {lib : X86AdaptLib} {unit : EnergyUnit}
    (h : X86Adapt.Reaches lib host unit) (hpos : unit.positive = true) :
    HasDramConstant host ∧ unit = .power 16 := by
  induction h with
  | start => cases hpos
  | @call arch unit unit' counterType index o counter h hsetup ih =>
      rcases (X86Adapt.setup_cases hsetup).1 with rfl | rfl
      · exact ih hpos
      · unfold X86Adapt.modifier at hpos ⊢
        split at hpos
        · rename_i hdram
          rw [if_pos hdram]
          exact X86Adapt.getDramUnit_static ih hpos
        · rename_i hdram
          rw [if_neg hdram]
          exact ih hpos

end States

/-- What a `setup` hands out: the unit of its counter and, in `perf-rapl`, the `config` of the
event that it opened. -/
structure Returned where
  unit : Double
  config : Option Int

/-- One call of `setup`, in the state that it finds. -/
inductive UnitSetup
  | msr (source : MsrSource) (host : Host) (arch : ArchNode) (reads : List UInt64) (s : MsrState)
      (counterType : Counter) (index : Nat) (o : SetupOutcome)
  | x86a (lib : X86AdaptLib) (host : Host) (arch : ArchNode) (dramUnit : EnergyUnit)
      (counterType : Counter) (index : Nat) (o : XaOutcome)
  | perf (arch : ArchNode) (counterType : Counter) (index : Nat) (o : PerfOutcome)

namespace UnitSetup

/-- The state is one that the source can reach. -/
def Reachable : UnitSetup → Prop
  | msr source host arch reads s _ _ _ => source.Reaches host arch reads s
  | x86a lib host _ dramUnit _ _ _ => X86Adapt.Reaches lib host dramUnit
  | perf _ _ _ _ => True

/-- The counter; `none` is the return of `NULL`. -/
def returned : UnitSetup → Option Returned
  | msr source host arch _ s counterType index o =>
      (source.storedUnit host arch s counterType index o).map fun unit => ⟨unit.toDouble, none⟩
  | x86a lib host arch dramUnit counterType index o =>
      match X86Adapt.setup lib host arch dramUnit counterType index o with
      | .ok (_, some _) =>
          (X86Adapt.unitOf host dramUnit counterType o).map fun unit => ⟨unit.toDouble, none⟩
      | _ => none
  | perf arch counterType index o =>
      match Perf.setup arch counterType index o with
      | .ok (some (config, counter)) => some ⟨counter.unit, some config⟩
      | _ => none

/-- The unit was read, or it is the constant of the model. -/
def Delivers : UnitSetup → Double → Prop
  | msr source host arch reads s counterType index o, unit =>
      ∃ u : EnergyUnit,
        u.ReadFrom host (reads ++ source.unitReads host arch s (.setup counterType index o)) ∧
          unit = u.toDouble
  | x86a _ host _ dramUnit counterType _ o, unit =>
      ∃ u : EnergyUnit, u.ReadFrom host (X86Adapt.unitRead host dramUnit counterType o).toList ∧
        unit = u.toDouble
  | perf _ counterType _ o, unit =>
      ∃ suffix, Perf.stringsForEvents counterType = some suffix ∧ o.scale suffix = .number unit

/-- The event is the one that the file of the counter type names. -/
def Names : UnitSetup → Option Int → Prop
  | perf _ counterType _ o, config =>
      ∃ suffix text n, Perf.stringsForEvents counterType = some suffix ∧
        o.event suffix = .line text ∧ Perf.scanEvent text = some n ∧ config = some n
  | _, config => config = none

/-- **What a returned counter should be.** -/
structure Sound (call : UnitSetup) (r : Returned) : Prop where
  positive : r.unit.IsPositive
  delivered : call.Delivers r.unit
  event : call.Names r.config
  reads : ∀ delivered, (energyRead r.unit delivered).IsNegative → delivered = none

/-- The unit can be had, and the event is known. -/
def Available : UnitSetup → Prop
  | msr source host _ _ s counterType _ o => source.UnitAvailable host s counterType o
  | x86a _ host _ _ counterType _ _ => counterType = .dram → host.baseFamily = 6
  | perf _ counterType _ o =>
      ∃ suffix, Perf.stringsForEvents counterType = some suffix ∧
        (∃ text n, o.event suffix = .line text ∧ Perf.scanEvent text = some n ∧ 0 ≤ n ∧
          n ≤ intMax) ∧
        ∀ scale, o.scale suffix = .number scale → scale ≠ .finite 0 ∧ scale ≠ .nan

end UnitSetup

section Iff

variable {host : Host} {arch : ArchNode}

/-- Where a stored unit comes from. -/
theorem MsrSource.storedUnit_some {source : MsrSource} {s : MsrState} {counterType : Counter}
    {index : Nat} {o : SetupOutcome} {u : EnergyUnit}
    (h : source.storedUnit host arch s counterType index o = some u) :
    ∃ (opened : MsrState) (cpu : Nat), cpu < opened.fds.length ∧
      opened.defaultUnit = s.defaultUnit ∧ opened.dramUnit = s.dramUnit ∧
      u = (source.unitOf host counterType cpu o opened).2 ∧
      source.unitReads host arch s (.setup counterType index o) =
        (source.unitRead host counterType cpu o opened).toList ∧
      ((source.unitOf host counterType cpu o opened).1.pread cpu o.register).isSome = true := by
  unfold MsrSource.storedUnit at h
  split at h
  · rename_i hasked
    split at h
    · cases h
    · rename_i cpu hcpu
      split at h
      · cases h
      · rename_i hbounds
        rw [not_or] at hbounds
        obtain ⟨hlength, _, hdefault, hdram⟩ := ensureOpen_keeps s cpu.toNat o
        dsimp only at h
        split at h
        · rename_i hall
          cases h
          refine ⟨_, cpu.toNat, ?_, hdefault, hdram, rfl, ?_, hall.2.1⟩
          · rw [hlength]
            exact Nat.not_le.mp hbounds.2
          · unfold MsrSource.unitReads
            simp only [hasked, hcpu]
            rw [if_neg (not_or.mpr hbounds), if_pos hall.1]
        · cases h
  · cases h

theorem MsrSource.UnitAvailable.congr {source : MsrSource} {s s' : MsrState}
    {counterType : Counter} {o : SetupOutcome} (hdefault : s'.defaultUnit = s.defaultUnit)
    (hdram : s'.dramUnit = s.dramUnit) :
    source.UnitAvailable host s' counterType o ↔ source.UnitAvailable host s counterType o := by
  unfold MsrSource.UnitAvailable
  rw [hdefault, hdram]

/-- The unit of an msr counter: positive if it can be had, and then it was read. -/
theorem MsrSource.storedUnit_positive {source : MsrSource} {reads : List UInt64} {s : MsrState}
    (hreach : source.Reaches host arch reads s) {counterType : Counter} {index : Nat}
    {o : SetupOutcome} {u : EnergyUnit}
    (h : source.storedUnit host arch s counterType index o = some u) :
    (u.positive = true ↔ source.UnitAvailable host s counterType o) ∧
      (u.positive = true → u.ReadFrom host
        (reads ++ source.unitReads host arch s (.setup counterType index o))) := by
  obtain ⟨opened, cpu, hcpu, hdefault, hdram, rfl, hreads, hread⟩ := MsrSource.storedUnit_some h
  refine ⟨?_, ?_⟩
  · rw [unitOf_of_pread source hcpu hread]
    exact MsrSource.UnitAvailable.congr hdefault hdram
  · rw [hreads]
    exact (unitOf_unitsRead source (hreach.unitsRead.congr hdefault hdram) counterType cpu o).2

/-- The unit of a counter of `x86a-rapl`, likewise. -/
theorem X86Adapt.unitOf_positive {lib : X86AdaptLib} {dramUnit : EnergyUnit}
    (hreach : X86Adapt.Reaches lib host dramUnit) {counterType : Counter} {o : XaOutcome}
    {u : EnergyUnit} (h : X86Adapt.unitOf host dramUnit counterType o = some u) :
    (u.positive = true ↔ (counterType = .dram → host.baseFamily = 6)) ∧
      (u.positive = true →
        u.ReadFrom host (X86Adapt.unitRead host dramUnit counterType o).toList) := by
  have hregister : (o.unitSetting.map decodeUnit = some u) →
      u.positive = true ∧ u.ReadFrom host o.unitSetting.toList := by
    intro hmap
    obtain ⟨modifier, hsetting, rfl⟩ := Option.map_eq_some_iff.mp hmap
    refine ⟨rfl, .inr ⟨modifier, ?_, rfl⟩⟩
    rw [hsetting]
    exact List.mem_singleton_self _
  unfold X86Adapt.unitOf X86Adapt.modifier at h
  unfold X86Adapt.unitRead X86Adapt.modifier
  by_cases hdram : counterType = .dram
  · rw [if_pos hdram] at h ⊢
    unfold X86Adapt.getDramUnit at h ⊢
    by_cases hcached : dramUnit.positive = true
    · obtain ⟨hconstant, rfl⟩ := hreach.dramUnit hcached
      rw [if_pos hcached, if_neg (by decide)] at h
      cases h
      exact ⟨iff_of_true rfl fun _ => hconstant.1, fun _ => .inl ⟨hconstant, rfl⟩⟩
    · rw [if_neg hcached] at h
      by_cases hfamily : host.baseFamily ≠ 6
      · rw [if_pos hfamily, if_neg nofun] at h
        cases h
        exact ⟨iff_of_false Bool.false_ne_true fun hall => hfamily (hall hdram), nofun⟩
      · rw [if_neg hfamily] at h
        rw [not_not] at hfamily
        by_cases hmodel : host.extModel <<< 4 + host.baseModel ∈ [0x3f, 0x4e, 0x55]
        · rw [if_pos hmodel, if_neg (by decide)] at h
          cases h
          exact ⟨iff_of_true rfl fun _ => hfamily, fun _ => .inl ⟨⟨hfamily, hmodel⟩, rfl⟩⟩
        · rw [if_neg hmodel, if_pos rfl] at h
          obtain ⟨hpos, hread⟩ := hregister h
          rw [if_neg hcached, if_neg (not_not.mpr hfamily), if_neg hmodel, if_pos rfl]
          exact ⟨iff_of_true hpos fun _ => hfamily, fun _ => hread⟩
  · rw [if_neg hdram, if_pos rfl] at h ⊢
    obtain ⟨hpos, hread⟩ := hregister h
    exact ⟨iff_of_true hpos fun hd => absurd hd hdram, fun _ => hread⟩

/-- A counter whose unit is positive delivers no negative energy. -/
theorem energyRead_isNegative {unit : Double} (h : unit.IsPositive) {delivered : Option Nat}
    (hneg : (energyRead unit delivered).IsNegative) : delivered = none := by
  cases delivered with
  | none => rfl
  | some reading => exact absurd hneg (Double.not_isNegative_times h.not_isNegative reading)

/-- The number of an event, as `get_event_id` returns it. -/
theorem Perf.toInt32_toUnsignedLong {n : Int} (h : 0 ≤ n) (hmax : n ≤ intMax) :
    toInt32 (Perf.toUnsignedLong n) = n := by
  unfold intMax at hmax
  have hlong : (Perf.toUnsignedLong n : Int) = n := by
    unfold Perf.toUnsignedLong toSize
    rw [if_neg (by omega)]
    omega
  rw [hlong]
  exact toInt32_of_isInt32 ⟨by unfold intMin; omega, hmax⟩

/-- What a `setup` of `perf-rapl` that returns a counter has found. -/
theorem Perf.setup_some {counterType : Counter} {index : Nat} {o : PerfOutcome} {config : Int}
    {counter : PerfCounter}
    (h : Perf.setup arch counterType index o = .ok (some (config, counter))) :
    ∃ suffix, Perf.stringsForEvents counterType = some suffix ∧
      config = Perf.getEventId (o.event suffix) ∧ 0 ≤ config ∧
      counter.unit = Perf.getEventUnit (o.scale suffix) ∧ ¬ counter.unit.IsNegative := by
  unfold Perf.setup at h
  split at h
  · cases h
  · split at h
    · cases h
    · rename_i suffix hsuffix
      dsimp only at h
      split at h
      · cases h
      · rename_i hid
        split at h
        · cases h
        · rename_i hunit
          split at h
          · cases h
          · split at h
            · cases h
            · split at h
              · cases h
              · cases h
                exact ⟨suffix, hsuffix, rfl, Int.not_lt.mp hid, rfl, hunit⟩

/-- The counters whose unit is an `EnergyUnit`. -/
theorem UnitSetup.sound_iff_of_energyUnit {call : UnitSetup} {u : EnergyUnit}
    {reads : List UInt64} {available : Prop} (hpositive : u.positive = true ↔ available)
    (hread : u.positive = true → u.ReadFrom host reads)
    (hdelivers : u.ReadFrom host reads → call.Delivers u.toDouble) (hnames : call.Names none) :
    call.Sound ⟨u.toDouble, none⟩ ↔ available := by
  constructor
  · intro h
    exact hpositive.mp ((EnergyUnit.isPositive_iff u).mp h.positive)
  · intro havailable
    have hpos := hpositive.mpr havailable
    have hunit := (EnergyUnit.isPositive_iff u).mpr hpos
    exact ⟨hunit, hdelivers (hread hpos), hnames, fun _ => energyRead_isNegative hunit⟩

theorem Perf.sound_iff {counterType : Counter} {index : Nat} {o : PerfOutcome} {config : Int}
    {counter : PerfCounter}
    (h : Perf.setup arch counterType index o = .ok (some (config, counter))) :
    (UnitSetup.perf arch counterType index o).Sound ⟨counter.unit, some config⟩ ↔
      (UnitSetup.perf arch counterType index o).Available := by
  obtain ⟨suffix, hsuffix, hconfig, hnonneg, hunit, hsign⟩ := Perf.setup_some h
  constructor
  · intro hsound
    obtain ⟨suffix', text, n, hsuffix', hevent, hscan, hn⟩ := hsound.event
    obtain rfl : suffix = suffix' := Option.some.inj (hsuffix.symm.trans hsuffix')
    have hnumber : n = toInt32 (Perf.toUnsignedLong n) := by
      rw [hevent, Perf.getEventId] at hconfig
      simp only [hscan] at hconfig
      rw [← hconfig]
      exact (Option.some.inj hn).symm
    refine ⟨suffix, hsuffix, ⟨text, n, hevent, hscan, ?_, ?_⟩, fun scale hscale => ?_⟩
    · rw [← Option.some.inj hn]
      exact hnonneg
    · rw [hnumber]
      exact (toInt32_isInt32 _).2
    · have hpos := hsound.positive
      change counter.unit.IsPositive at hpos
      rw [hunit, hscale, Perf.getEventUnit] at hpos
      constructor
      · rintro rfl
        exact lt_irrefl _ hpos
      · rintro rfl
        exact hpos
  · rintro ⟨suffix', hsuffix', ⟨text, n, hevent, hscan, hn, hmax⟩, hscale⟩
    obtain rfl : suffix = suffix' := Option.some.inj (hsuffix.symm.trans hsuffix')
    obtain ⟨scale, hnumber⟩ : ∃ scale, o.scale suffix = .number scale := by
      cases hread : o.scale suffix with
      | number scale => exact ⟨scale, rfl⟩
      | _ =>
          rw [hunit, hread] at hsign
          exact absurd (by decide) hsign
    have hscaleUnit : counter.unit = scale := by rw [hunit, hnumber, Perf.getEventUnit]
    have hpos : counter.unit.IsPositive := by
      by_contra hnot
      rcases (Double.not_isPositive_iff hsign).mp hnot with hzero | hnan
      · exact (hscale scale hnumber).1 (hscaleUnit.symm.trans hzero)
      · exact (hscale scale hnumber).2 (hscaleUnit.symm.trans hnan)
    refine ⟨hpos, ⟨suffix, hsuffix, ?_⟩, ⟨suffix, text, n, hsuffix, hevent, hscan, ?_⟩,
      fun _ => energyRead_isNegative hpos⟩
    · change o.scale suffix = .number counter.unit
      rw [hscaleUnit, hnumber]
    · change some config = some n
      rw [hconfig, hevent, Perf.getEventId]
      simp only [hscan, Perf.toInt32_toUnsignedLong hn hmax]

/-- **A returned counter is sound exactly if** its unit can be had and its event is known. -/
theorem setup_sound_iff {call : UnitSetup} (hreach : call.Reachable) {r : Returned}
    (h : call.returned = some r) : call.Sound r ↔ call.Available := by
  cases call with
  | msr source host arch reads s counterType index o =>
      obtain ⟨u, hstored, rfl⟩ := Option.map_eq_some_iff.mp h
      obtain ⟨hpositive, hread⟩ := MsrSource.storedUnit_positive hreach hstored
      exact UnitSetup.sound_iff_of_energyUnit hpositive hread (fun hfrom => ⟨u, hfrom, rfl⟩) rfl
  | x86a lib host arch dramUnit counterType index o =>
      simp only [UnitSetup.returned] at h
      split at h
      · obtain ⟨u, hunit, rfl⟩ := Option.map_eq_some_iff.mp h
        obtain ⟨hpositive, hread⟩ := X86Adapt.unitOf_positive hreach hunit
        exact UnitSetup.sound_iff_of_energyUnit hpositive hread (fun hfrom => ⟨u, hfrom, rfl⟩) rfl
      · cases h
  | perf arch counterType index o =>
      simp only [UnitSetup.returned] at h
      split at h
      · rename_i config counter hsetup
        cases h
        exact Perf.sound_iff hsetup
      · cases h

/-- The first counter of `msr-rapl` on a machine with one CPU. -/
def firstSetup (o : SetupOutcome) : UnitSetup :=
  .msr .rapl anyHost oneCpu [] { freshProcess with fds := [0] } .pckg 0 o

theorem firstSetup_reachable (o : SetupOutcome) : (firstSetup o).Reachable :=
  MsrSource.Reaches.init (.start freshProcess.table) 1 true rfl

theorem setup_sound_allSucceed :
    (firstSetup allSucceed).Sound ⟨(EnergyUnit.power 14).toDouble, none⟩ :=
  (setup_sound_iff (firstSetup_reachable allSucceed) rfl).mpr (.inr rfl)

/-- **The power unit register cannot be read**, but the register of the counter can: the counter
has the unit -1.0. -/
theorem not_setup_sound_unitFails :
    ¬ ∀ (call : UnitSetup) (r : Returned), call.Reachable → call.returned = some r →
      call.Sound r := by
  intro hall
  have hsound := hall (firstSetup { allSucceed with unitRegister := none }) ⟨.finite (-1), none⟩
    (firstSetup_reachable _) rfl
  exact absurd hsound.positive (by decide)

end Iff

end Access
end X86Energy
