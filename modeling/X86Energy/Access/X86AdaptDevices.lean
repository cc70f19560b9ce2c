import X86Energy.Access.Placement
import X86Energy.Access.X86Adapt
import X86Energy.Architecture.TestCpu
import X86Energy.Library.Ownership
import X86Energy.Library.Transition

/-!
# The devices that the x86a source takes

`x86a-rapl` takes the device of a DIE from the library for each `setup`, and returns it with
`x86_adapt_put_device` when the `setup` fails or the counter is closed.  The descriptor of
a device is that of the library, so the counters of one device share it; but a `setup` that
fails before it has its reading also closes it.

**Results.**
* `X86Adapt.devices_returned`: in every run the devices that are taken are those of the counters
  in use, each as often as it has counters;
* `X86Adapt.never_cut_iff`: which runs close no descriptor under a counter.
-/

namespace X86Energy
namespace Access

open CInt Architecture ArchNode

/-- `dram_unit`, the counters in use, and the numbers of the devices that were taken and not
returned.  `cut` records that a descriptor was closed that a counter in use reads. -/
structure XaState where
  dramUnit : EnergyUnit
  counters : List XaCounter
  taken : List Nat
  cut : Bool

/-- The calls of a client. -/
inductive XaCall
  | setup (counterType : Counter) (index : Nat) (o : XaOutcome)
  | read (position : Nat) (delivered : Option UInt64)
  | close (position : Nat)

namespace X86Adapt

/-- `x86_adapt_put_device`, for a device that was taken. -/
def putDevice (s : XaState) (nr : Nat) : XaState := { s with taken := s.taken.erase nr }

/-- `close(fd)` with the descriptor of a device. -/
def closeDevice (s : XaState) (fd : Int) : XaState :=
  { s with cut := s.cut || s.counters.any fun counter => counter.device = fd }

/-- `setup` once it has the device. -/
def setupDevice (lib : X86AdaptLib) (host : Host) (s : XaState) (counterType : Counter)
    (index : Nat) (cpu xaIndex : Int) (o : XaOutcome) : XaState :=
  let fd := lib.getDeviceRo .die index
  let s := { s with taken := index :: s.taken }
  if lib.lookupCiName .die powerUnitRegister < 0 then putDevice (closeDevice s fd) index
  else
    let modifier :=
      if counterType = .dram then getDramUnit host s.dramUnit else (s.dramUnit, .invalid)
    let s := { s with dramUnit := modifier.1 }
    let unit := if modifier.2 = .invalid then o.unitSetting.map decodeUnit else some modifier.2
    match unit with
    | none => putDevice (closeDevice s fd) index
    | some unit =>
        match o.setting with
        | none => putDevice (closeDevice s fd) index
        | some currentSetting =>
            if !o.startsThread then putDevice s index
            else
              { s with
                counters := s.counters ++ [⟨⟨currentSetting, unit.toFloat⟩, xaIndex, fd,
                  toInt32 index, cpu⟩] }

/-- `setup`, with the devices.  A result of 0 of `x86_adapt_get_device_ro` is refused like a failure
and counts as a device that was not taken. -/
def setupCounter (lib : X86AdaptLib) (host : Host) (arch : ArchNode) (s : XaState)
    (counterType : Counter) (index : Nat) (o : XaOutcome) : Except XaFault XaState :=
  match name counterType with
  | none => .ok s
  | some name =>
      match getTestCpu arch .socket index with
      | none => .error .missingChild
      | some cpu =>
          if cpu < 0 then .ok s
          else if lib.lookupCiName .die name < 0 then .ok s
          else if lib.getDeviceRo .die index ≤ 0 then .ok s
          else .ok (setupDevice lib host s counterType index cpu (lib.lookupCiName .die name) o)

/-- `do_close`. -/
def doClose (s : XaState) (position : Nat) : XaState :=
  match s.counters[position]? with
  | none => s
  | some counter =>
      putDevice { s with counters := s.counters.eraseIdx position } (toSize counter.pkg)

/-- The new `last_reading` of a counter. -/
def readCounter (delivered : Option UInt64) (counter : XaCounter) : XaCounter :=
  { counter with toReader := (doRead delivered counter.toReader).2 }

/-- One call. -/
def step (lib : X86AdaptLib) (host : Host) (arch : ArchNode) (s : XaState) :
    XaCall → Except XaFault XaState
  | .setup counterType index o => setupCounter lib host arch s counterType index o
  | .read position delivered =>
      .ok { s with counters := s.counters.modify position (readCounter delivered) }
  | .close position => .ok (doClose s position)

/-- `setup` adds the counter that it returns, and leaves the same `dram_unit`. -/
theorem setupCounter_setup (lib : X86AdaptLib) (host : Host) (arch : ArchNode) (s : XaState)
    (counterType : Counter) (index : Nat) (o : XaOutcome) :
    (setupCounter lib host arch s counterType index o).map (fun s' => (s'.dramUnit, s'.counters)) =
      (setup lib host arch s.dramUnit counterType index o).map fun result =>
        (result.1, s.counters ++ result.2.toList) := by
  have hnone : ∀ s' : XaState, s'.counters = s.counters →
      (.ok (s'.dramUnit, s'.counters) : Except XaFault (EnergyUnit × List XaCounter)) =
        .ok (s'.dramUnit, s.counters ++ (none : Option XaCounter).toList) := by
    intro s' hs'
    rw [hs', Option.toList_none, List.append_nil]
  unfold setupCounter setup
  cases name counterType with
  | none => exact hnone s rfl
  | some register =>
      cases getTestCpu arch .socket index with
      | none => rfl
      | some cpu =>
          simp only
          by_cases hneg : cpu < 0
          · simp only [if_pos hneg]
            exact hnone s rfl
          · by_cases hregister : lib.lookupCiName .die register < 0
            · simp only [if_neg hneg, if_pos hregister]
              exact hnone s rfl
            · by_cases hfd : lib.getDeviceRo .die index ≤ 0
              · simp only [if_neg hneg, if_neg hregister, if_pos hfd]
                exact hnone s rfl
              · simp only [if_neg hneg, if_neg hregister, if_neg hfd]
                unfold setupDevice
                by_cases hlookup : lib.lookupCiName .die powerUnitRegister < 0
                · simp only [if_pos hlookup]
                  exact hnone s rfl
                · simp only [if_neg hlookup]
                  generalize (if counterType = .dram then getDramUnit host s.dramUnit
                    else (s.dramUnit, EnergyUnit.invalid)) = modifier
                  generalize (if modifier.2 = .invalid then o.unitSetting.map decodeUnit
                    else some modifier.2) = unit
                  cases unit with
                  | none => exact hnone { s with dramUnit := modifier.1 } rfl
                  | some unit =>
                      cases o.setting with
                      | none => exact hnone { s with dramUnit := modifier.1 } rfl
                      | some reading =>
                          cases o.startsThread with
                          | false => exact hnone { s with dramUnit := modifier.1 } rfl
                          | true => rfl

section Cases

variable {lib : X86AdaptLib} {host : Host} {arch : ArchNode} {s s' : XaState}
  {counterType : Counter} {index : Nat} {o : XaOutcome}

/-- `dram_unit` after the search for a unit. -/
def dramUnitFor (host : Host) (dramUnit : EnergyUnit) (counterType : Counter) : EnergyUnit :=
  (if counterType = .dram then getDramUnit host dramUnit else (dramUnit, .invalid)).1

/-- The unit that `setup` finds. -/
def unitFor (host : Host) (dramUnit : EnergyUnit) (counterType : Counter) (o : XaOutcome) :
    Option EnergyUnit :=
  let modifier := if counterType = .dram then getDramUnit host dramUnit else (dramUnit, .invalid)
  if modifier.2 = .invalid then o.unitSetting.map decodeUnit else some modifier.2

/-- `setup` fails after it took the device and before it has its reading. -/
def FailsEarly (lib : X86AdaptLib) (host : Host) (s : XaState) (counterType : Counter)
    (o : XaOutcome) : Prop :=
  lib.lookupCiName .die powerUnitRegister < 0 ∨ unitFor host s.dramUnit counterType o = none ∨
    o.setting = none

/-- `setup` comes to the device, with this CPU and register. -/
structure TakesDevice (lib : X86AdaptLib) (arch : ArchNode) (counterType : Counter) (index : Nat)
    (cpu xaIndex : Int) : Prop where
  testCpu : getTestCpu arch .socket index = some cpu
  nonneg : ¬ cpu < 0
  register : ∃ register, name counterType = some register ∧ xaIndex = lib.lookupCiName .die register
  known : ¬ xaIndex < 0
  opens : 0 < lib.getDeviceRo .die index

/-- What `setup` can do: nothing, take the device and return it, with or without closing its
descriptor, or add a counter. -/
inductive SetupCases (lib : X86AdaptLib) (host : Host) (arch : ArchNode) (s : XaState)
    (counterType : Counter) (index : Nat) (o : XaOutcome) : XaState → Prop
  | same (hnot : ∀ cpu xaIndex, ¬ TakesDevice lib arch counterType index cpu xaIndex) :
      SetupCases lib host arch s counterType index o s
  | cuts {cpu xaIndex : Int} {dramUnit : EnergyUnit}
      (htakes : TakesDevice lib arch counterType index cpu xaIndex)
      (hearly : FailsEarly lib host s counterType o) :
      SetupCases lib host arch s counterType index o
        { closeDevice s (lib.getDeviceRo .die index) with dramUnit := dramUnit }
  | returns {cpu xaIndex : Int} {dramUnit : EnergyUnit}
      (htakes : TakesDevice lib arch counterType index cpu xaIndex)
      (hlate : ¬ FailsEarly lib host s counterType o) :
      SetupCases lib host arch s counterType index o { s with dramUnit := dramUnit }
  | adds {cpu xaIndex : Int} {dramUnit unit : EnergyUnit} {reading : UInt64}
      (htakes : TakesDevice lib arch counterType index cpu xaIndex)
      (hlate : ¬ FailsEarly lib host s counterType o) :
      SetupCases lib host arch s counterType index o
        { s with
          dramUnit := dramUnit
          taken := index :: s.taken
          counters := s.counters ++ [⟨⟨reading, unit.toFloat⟩, xaIndex, lib.getDeviceRo .die index,
            toInt32 index, cpu⟩] }

theorem setupDevice_cases {cpu xaIndex : Int}
    (htakes : TakesDevice lib arch counterType index cpu xaIndex) :
    SetupCases lib host arch s counterType index o
      (setupDevice lib host s counterType index cpu xaIndex o) := by
  have hput : ∀ dramUnit : EnergyUnit,
      putDevice { s with dramUnit := dramUnit, taken := index :: s.taken } index =
        { s with dramUnit := dramUnit } := by
    intro dramUnit
    simp [putDevice]
  have hcut : ∀ dramUnit : EnergyUnit,
      putDevice (closeDevice { s with dramUnit := dramUnit, taken := index :: s.taken }
        (lib.getDeviceRo .die index)) index =
        { closeDevice s (lib.getDeviceRo .die index) with dramUnit := dramUnit } := by
    intro dramUnit
    simp [putDevice, closeDevice]
  unfold setupDevice
  by_cases hlookup : lib.lookupCiName .die powerUnitRegister < 0
  · simp only [if_pos hlookup]
    rw [hcut s.dramUnit]
    exact .cuts htakes (.inl hlookup)
  · simp only [if_neg hlookup]
    cases hunit : unitFor host s.dramUnit counterType o with
    | none =>
        have hresult := hcut (dramUnitFor host s.dramUnit counterType)
        simp only [unitFor] at hunit
        simp only [dramUnitFor] at hresult
        rw [hunit, hresult]
        exact .cuts htakes (.inr (.inl hunit))
    | some unit =>
        have hmodifier := hunit
        simp only [unitFor] at hmodifier
        rw [hmodifier]
        cases hsetting : o.setting with
        | none =>
            have hresult := hcut (dramUnitFor host s.dramUnit counterType)
            simp only [dramUnitFor] at hresult
            simp only
            rw [hresult]
            exact .cuts htakes (.inr (.inr hsetting))
        | some reading =>
            have hlate : ¬ FailsEarly lib host s counterType o := by
              rintro (h | h | h)
              · exact hlookup h
              · rw [hunit] at h
                cases h
              · rw [hsetting] at h
                cases h
            cases hthread : o.startsThread with
            | false =>
                have hresult := hput (dramUnitFor host s.dramUnit counterType)
                simp only [dramUnitFor] at hresult
                simp only [Bool.not_false, if_true]
                rw [hresult]
                exact .returns htakes hlate
            | true => exact .adds htakes hlate

theorem setupCounter_cases (h : setupCounter lib host arch s counterType index o = .ok s') :
    SetupCases lib host arch s counterType index o s' := by
  unfold setupCounter at h
  cases hname : name counterType with
  | none =>
      rw [hname] at h
      cases h
      refine .same fun cpu xaIndex htakes => ?_
      obtain ⟨register, hregister, -⟩ := htakes.register
      rw [hname] at hregister
      cases hregister
  | some register =>
      cases hcpu : getTestCpu arch .socket index with
      | none =>
          simp only [hname, hcpu] at h
          cases h
      | some cpu =>
          simp only [hname, hcpu] at h
          by_cases hneg : cpu < 0
          · rw [if_pos hneg] at h
            cases h
            refine .same fun cpu' xaIndex htakes => htakes.nonneg ?_
            obtain rfl := Option.some.inj (hcpu.symm.trans htakes.testCpu)
            exact hneg
          · rw [if_neg hneg] at h
            have hregister : ∀ {cpu' xaIndex}, TakesDevice lib arch counterType index cpu' xaIndex →
                xaIndex = lib.lookupCiName .die register := by
              intro cpu' xaIndex htakes
              obtain ⟨register', hname', hindex⟩ := htakes.register
              obtain rfl := Option.some.inj (hname.symm.trans hname')
              exact hindex
            by_cases hlookup : lib.lookupCiName .die register < 0
            · rw [if_pos hlookup] at h
              cases h
              exact .same fun _ _ htakes => htakes.known (hregister htakes ▸ hlookup)
            · rw [if_neg hlookup] at h
              by_cases hfd : lib.getDeviceRo .die index ≤ 0
              · rw [if_pos hfd] at h
                cases h
                exact .same fun _ _ htakes => absurd htakes.opens (Int.not_lt.mpr hfd)
              · rw [if_neg hfd] at h
                cases h
                exact setupDevice_cases
                  ⟨hcpu, hneg, ⟨register, hname, rfl⟩, hlookup, Int.not_le.mp hfd⟩

end Cases

section Runs

variable {lib : X86AdaptLib} {host : Host} {arch : ArchNode} {s s' : XaState} {calls : List XaCall}

/-- **The devices that are taken** are those of the counters in use, each as often as it has
counters. -/
def DevicesKept (s : XaState) : Prop :=
  s.taken.Perm (s.counters.map fun counter => toSize counter.pkg)

theorem DevicesKept.step (hids : ∀ x ∈ arch.preorder, IsInt32 x.id) {call : XaCall}
    (h : DevicesKept s) (hstep : step lib host arch s call = .ok s') : DevicesKept s' := by
  unfold DevicesKept at h ⊢
  cases call with
  | setup counterType index o =>
      cases setupCounter_cases hstep with
      | same => exact h
      | cuts => exact h
      | returns => exact h
      | adds htakes _ =>
          have hindex : toSize (toInt32 index) = index := by
            obtain ⟨x, hx, -, hid, -⟩ := getTestCpu_found htakes.testCpu htakes.nonneg
            rw [← hid, toInt32_toSize (hids x hx)]
          rw [List.map_append, List.map_singleton, hindex]
          exact (h.cons index).trans (List.perm_append_singleton _ _).symm
  | read position delivered =>
      cases hstep
      have hpkg : ∀ counter : XaCounter,
          toSize (readCounter delivered counter).pkg = toSize counter.pkg := fun _ => rfl
      have hsame := Ownership.map_modify_of_keeps (g := fun counter => toSize counter.pkg)
        (f := readCounter delivered) hpkg s.counters position
      exact h.trans (List.Perm.of_eq hsame.symm)
  | close position =>
      cases hstep
      unfold doClose
      cases hget : s.counters[position]? with
      | none => exact h
      | some counter =>
          obtain ⟨hlt, rfl⟩ := List.getElem?_eq_some_iff.mp hget
          have hsplit := (List.getElem_cons_eraseIdx_perm hlt).map fun counter => toSize counter.pkg
          have herase := (h.trans hsplit.symm).erase (toSize s.counters[position].pkg)
          rw [List.map_cons, List.erase_cons_head] at herase
          exact herase

theorem devices_returned (hids : ∀ x ∈ arch.preorder, IsInt32 x.id) (hcounters : s.counters = [])
    (htaken : s.taken = []) (hrun : Transition.run (step lib host arch) s calls = .ok s') :
    DevicesKept s' := by
  have hstart : DevicesKept s := by
    rw [DevicesKept, hcounters, htaken]
    rfl
  exact Transition.run_invariant (fun _ _ _ _ hkept hstep => hkept.step hids hstep) hstart hrun

/-- Everything that `setup` asks of the library is delivered. -/
def xaDelivered : XaOutcome := ⟨some 0xA0E03, some 5, true⟩

/-- Two counters of one package, of which one is closed, and a `setup` without a reading for the
other package. -/
def xaCalls : List XaCall :=
  [.setup .pckg 0 xaDelivered, .setup .cores 0 xaDelivered, .close 0,
    .setup .pckg 1 { xaDelivered with setting := none }]

/-- A process before the first `setup`. -/
def noDevices : XaState := ⟨.invalid, [], [], false⟩

theorem run_xaCalls :
    ∃ s', Transition.run (step anyLib anyHost twoSockets) noDevices xaCalls = .ok s' ∧
      s'.counters.map (fun counter => counter.device) = [1] ∧ s'.taken = [0] :=
  ⟨_, rfl, rfl, rfl⟩

theorem devices_returned_xaCalls :
    ∃ s', Transition.run (step anyLib anyHost twoSockets) noDevices xaCalls = .ok s' ∧
      s'.taken = [0] ∧ DevicesKept s' := by
  obtain ⟨s', hrun, -, htaken⟩ := run_xaCalls
  exact ⟨s', hrun, htaken, devices_returned twoSockets_ids rfl rfl hrun⟩

/-- A `setup` that fails after it took a device and before it has its reading finds no counter
of that device in use. -/
def CutsNothing (lib : X86AdaptLib) (host : Host) (arch : ArchNode) (s : XaState) :
    XaCall → Prop
  | .setup counterType index o =>
      (∃ cpu xaIndex, TakesDevice lib arch counterType index cpu xaIndex) →
        FailsEarly lib host s counterType o →
          ∀ counter ∈ s.counters, counter.device ≠ lib.getDeviceRo .die index
  | _ => True

theorem cut_step {call : XaCall} (hstep : step lib host arch s call = .ok s') :
    s'.cut = false ↔ s.cut = false ∧ CutsNothing lib host arch s call := by
  cases call with
  | setup counterType index o =>
      cases setupCounter_cases hstep with
      | same hnot => exact (and_iff_left fun ⟨_, _, htakes⟩ => absurd htakes (hnot _ _)).symm
      | cuts htakes hearly =>
          rw [CutsNothing, imp_iff_right ⟨_, _, htakes⟩, imp_iff_right hearly]
          simp [closeDevice]
      | returns _ hlate => exact (and_iff_left fun _ hearly => absurd hearly hlate).symm
      | adds _ hlate => exact (and_iff_left fun _ hearly => absurd hearly hlate).symm
  | read position delivered =>
      cases hstep
      exact (and_iff_left trivial).symm
  | close position =>
      cases hstep
      have hsame : (doClose s position).cut = s.cut := by
        unfold doClose
        split <;> rfl
      rw [hsame]
      exact (and_iff_left trivial).symm

/-- **A run closes no descriptor under a counter exactly if** every `setup` that fails after it took
a device and before it has its reading finds no counter of that device in use. -/
theorem never_cut_iff (hcut : s.cut = false)
    (hrun : Transition.run (step lib host arch) s calls = .ok s') :
    s'.cut = false ↔ Transition.Meets (step lib host arch) (CutsNothing lib host arch) s calls := by
  rw [Transition.run_iff_meets (fun _ _ _ hstep => cut_step hstep) hrun]
  exact and_iff_right hcut

theorem never_cut_xaCalls :
    ∃ s', Transition.run (step anyLib anyHost twoSockets) noDevices xaCalls = .ok s' ∧
      (s'.cut = false ↔ Transition.Meets (step anyLib anyHost twoSockets)
        (CutsNothing anyLib anyHost twoSockets) noDevices xaCalls) := by
  obtain ⟨s', hrun, -, -⟩ := run_xaCalls
  exact ⟨s', hrun, never_cut_iff rfl hrun⟩

end Runs

end X86Adapt

end Access
end X86Energy
