import X86Energy.Access.Msr

/-!
# The x86_adapt sources

`x86a-rapl` and `x86a-rapl-amd` read their registers through the devices that the
library `x86_adapt` has for the DIEs and for the CPUs.  The device of a DIE is chosen by
a number.  `x86a-rapl-amd` looks up the first DIE of the SOCKET for it, `x86a-rapl`
takes the index of the SOCKET.

The library is a parameter.  That its device of a given number is the NUMA node, or the
CPU, of this number is left to the statements that need it.
-/

namespace X86Energy
namespace Access

open CInt Architecture ArchNode

/-- `X86_ADAPT_DIE` and `X86_ADAPT_CPU`. -/
inductive DeviceType
  | die
  | cpu
deriving DecidableEq, Repr

/-- The library: the numbers of its registers, the descriptors that
`x86_adapt_get_device_ro` returns, and the devices that they refer to. -/
structure X86AdaptLib where
  lookupCiName : DeviceType → String → Int
  getDeviceRo : DeviceType → Nat → Int
  deviceOf : Int → Option (DeviceType × Nat)
  opened : ∀ type nr, 0 < getDeviceRo type nr → deviceOf (getDeviceRo type nr) = some (type, nr)

/-- What `x86_adapt_get_setting` delivers in one `setup`, `none` unless it returns 8, and
whether the overflow thread can be created. -/
structure XaOutcome where
  unitSetting : Option UInt64
  setting : Option UInt64
  startsThread : Bool

/-- Undefined behaviour: the children of a node that has none, or those of the tree that
could not be built. -/
inductive XaFault
  | missingChild
  | missingTree
deriving DecidableEq, Repr

/-- `struct reader_def` of `x86a-rapl`. -/
structure XaCounter extends Reader where
  reg : Int
  device : Int
  pkg : Int
  cpu : Int

/-- `struct reader_def` of `x86a-rapl-amd`. -/
structure XaFam23Counter extends XaCounter where
  isPerCore : Bool

/-- `POWER_UNIT_REGISTER`. -/
def powerUnitRegister : String := "Intel_RAPL_Power_Unit"

/-- The unit in the power unit register. -/
def decodeUnit (modifier : UInt64) : EnergyUnit :=
  .power ((modifier &&& 0x1F00) >>> 8).toNat

namespace X86Adapt

/-- The entries of `x86a_names` for the counter types that `setup` accepts. -/
def name : Counter → Option String
  | .pckg => some "Intel_RAPL_Pckg_Energy"
  | .cores => some "Intel_RAPL_PP0_Energy"
  | .dram => some "Intel_RAPL_RAM_Energy"
  | .gpu => some "Intel_RAPL_PP1_Energy"
  | .platform => none
  | .singleCore => none

/-- `get_dram_unit`: the new value of the static `dram_unit`, and the result. -/
def getDramUnit (host : Host) (dramUnit : EnergyUnit) : EnergyUnit × EnergyUnit :=
  if dramUnit.positive then (dramUnit, dramUnit)
  else if host.baseFamily ≠ 6 then (dramUnit, .zero)
  else if host.extModel <<< 4 + host.baseModel ∈ [0x3f, 0x4e, 0x55] then
    (.power 16, .power 16)
  else (dramUnit, .invalid)

/-- `setup`; the state is `dram_unit`, and `none` is the return of `NULL`. -/
def setup (lib : X86AdaptLib) (host : Host) (arch : ArchNode) (dramUnit : EnergyUnit)
    (counterType : Counter) (index : Nat) (o : XaOutcome) :
    Except XaFault (EnergyUnit × Option XaCounter) :=
  match name counterType with
  | none => .ok (dramUnit, none)
  | some name =>
      match getTestCpu arch .socket index with
      | none => .error .missingChild
      | some cpu =>
          let xaIndex := lib.lookupCiName .die name
          -- the number of a SOCKET, used as that of a DIE
          let fd := lib.getDeviceRo .die index
          if cpu < 0 then .ok (dramUnit, none)
          else if xaIndex < 0 then .ok (dramUnit, none)
          else if fd ≤ 0 then .ok (dramUnit, none)
          else if lib.lookupCiName .die powerUnitRegister < 0 then .ok (dramUnit, none)
          else
            let modifier :=
              if counterType = .dram then getDramUnit host dramUnit else (dramUnit, .invalid)
            let unit :=
              if modifier.2 = .invalid then o.unitSetting.map decodeUnit else some modifier.2
            match unit with
            | none => .ok (modifier.1, none)
            | some unit =>
                match o.setting with
                | none => .ok (modifier.1, none)
                | some currentSetting =>
                    if !o.startsThread then .ok (modifier.1, none)
                    else
                      .ok (modifier.1, some ⟨⟨currentSetting, unit.toFloat⟩, xaIndex, fd,
                        toInt32 index, cpu⟩)

/-- A counter reads the device of the DIE with the number `index`. -/
theorem setup_device {lib : X86AdaptLib} {host : Host} {arch : ArchNode}
    {dramUnit unit : EnergyUnit} {counterType : Counter} {index : Nat} {o : XaOutcome}
    {counter : XaCounter}
    (h : setup lib host arch dramUnit counterType index o = .ok (unit, some counter)) :
    counterType ≠ .platform ∧ counterType ≠ .singleCore ∧
      lib.deviceOf counter.device = some (.die, index) := by
  unfold setup at h
  cases hname : name counterType with
  | none =>
      rw [hname] at h
      cases h
  | some register =>
      have htype : counterType ≠ .platform ∧ counterType ≠ .singleCore := by
        constructor
        · rintro rfl
          cases hname
        · rintro rfl
          cases hname
      rw [hname] at h
      simp only at h
      split at h
      · cases h
      · split at h
        · cases h
        · split at h
          · cases h
          · split at h
            · cases h
            · rename_i hopen
              split at h
              · cases h
              · split at h
                · cases h
                · split at h
                  · cases h
                  · split at h
                    · cases h
                    · cases h
                      exact ⟨htype.1, htype.2, lib.opened _ _ (Int.not_le.mp hopen)⟩

end X86Adapt

namespace X86AdaptFam23

/-- `PKG_REGISTER`. -/
def pkgRegister : String := "Intel_RAPL_Pckg_Energy"

/-- `CORE_REGISTER`. -/
def coreRegister : String := "AMD_RAPL_Core_Energy"

/-- `get_default_unit`: the new value of the static `default_unit`, and the result. -/
def getDefaultUnit (lib : X86AdaptLib) (defaultUnit : EnergyUnit) (o : XaOutcome) :
    EnergyUnit × EnergyUnit :=
  if defaultUnit.positive then (defaultUnit, defaultUnit)
  else if lib.lookupCiName .die powerUnitRegister < 0 then (defaultUnit, .invalid)
  else if lib.getDeviceRo .die 0 ≤ 0 then (defaultUnit, .invalid)
  else
    match o.unitSetting with
    | none => (defaultUnit, .invalid)
    | some modifier => (decodeUnit modifier, decodeUnit modifier)

/-- The id of the first DIE of a SOCKET, as a `size_t`, in the tree of
`x86_energy_init_architecture_nodes`. -/
def dieOfSocket (rootNode : Option ArchNode) (index : Nat) : Except XaFault (Option Nat) :=
  match rootNode with
  | none => .error .missingTree
  | some root =>
      match root.children.find? fun c => c.granularity = .socket ∧ toSize c.id = index with
      | none => .ok none
      | some socket =>
          match socket.children with
          | [] => .ok none
          | die :: _ => .ok (some (toSize die.id))

/-- The local variables `cpu`, `index`, `xa_index` and `fd` after the first `switch`. -/
structure Chosen where
  cpu : Int
  index : Nat
  xaIndex : Int
  fd : Int

/-- The end of a case of the `switch`. -/
def openDevice (lib : X86AdaptLib) (cpu : Int) (index : Nat) (type : DeviceType) (nr : Nat)
    (register : String) : Option Chosen :=
  let xaIndex := lib.lookupCiName type register
  let fd := lib.getDeviceRo type nr
  if xaIndex < 0 then none
  else if fd ≤ 0 then none
  else some ⟨cpu, index, xaIndex, fd⟩

/-- The first `switch` of `setup`. -/
def choose (lib : X86AdaptLib) (arch : ArchNode) (rootNode : Option ArchNode)
    (counterType : Counter) (index : Nat) : Except XaFault (Option Chosen) :=
  match counterType with
  | .pckg =>
      match getTestCpu arch .socket index with
      | none => .error .missingChild
      | some cpu =>
          if cpu < 0 then .ok none
          else
            match dieOfSocket rootNode index with
            | .error e => .error e
            | .ok none => .ok none
            | .ok (some index) => .ok (openDevice lib cpu index .die index pkgRegister)
  | .singleCore =>
      match getTestCpu arch .core index with
      | none => .error .missingChild
      | some cpu =>
          if cpu < 0 then .ok none
          else .ok (openDevice lib cpu index .cpu cpu.toNat coreRegister)
  | _ => .ok none

/-- `setup`; the state is `default_unit`, and `none` is the return of `NULL`. -/
def setup (lib : X86AdaptLib) (arch : ArchNode) (rootNode : Option ArchNode)
    (defaultUnit : EnergyUnit) (counterType : Counter) (index : Nat) (o : XaOutcome) :
    Except XaFault (EnergyUnit × Option XaFam23Counter) :=
  match choose lib arch rootNode counterType index with
  | .error e => .error e
  | .ok none => .ok (defaultUnit, none)
  | .ok (some chosen) =>
      let unit := getDefaultUnit lib defaultUnit o
      if unit.2 = .invalid then .ok (unit.1, none)
      else
        match o.setting with
        | none => .ok (unit.1, none)
        | some currentSetting =>
            if !o.startsThread then .ok (unit.1, none)
            else
              .ok (unit.1, some ⟨⟨⟨currentSetting, unit.2.toFloat⟩, chosen.xaIndex, chosen.fd,
                toInt32 chosen.index, chosen.cpu⟩, counterType = .singleCore⟩)

/-- The DIE is the first child of a SOCKET with the id. -/
theorem dieOfSocket_some {root : ArchNode} {index nr : Nat}
    (h : dieOfSocket (some root) index = .ok (some nr)) :
    ∃ s ∈ root.children, s.granularity = .socket ∧ toSize s.id = index ∧
      ∃ d ∈ s.children, toSize d.id = nr := by
  unfold dieOfSocket at h
  simp only at h
  split at h
  · cases h
  · rename_i s hfind
    split at h
    · cases h
    · rename_i d ds hchildren
      cases h
      have hs := List.find?_some hfind
      simp only [Bool.decide_and, Bool.and_eq_true, decide_eq_true_eq] at hs
      exact ⟨s, List.mem_of_find?_eq_some hfind, hs.1, hs.2, d, by rw [hchildren]; simp, rfl⟩

theorem openDevice_some {lib : X86AdaptLib} {cpu : Int} {index nr : Nat} {type : DeviceType}
    {register : String} {chosen : Chosen}
    (h : openDevice lib cpu index type nr register = some chosen) :
    lib.deviceOf chosen.fd = some (type, nr) := by
  unfold openDevice at h
  simp only at h
  split at h
  · cases h
  · split at h
    · cases h
    · rename_i hopen
      cases h
      exact lib.opened _ _ (Int.not_le.mp hopen)

/-- A package counter reads the device of the DIE that was looked up, a core counter that
of the CPU. -/
theorem setup_device {lib : X86AdaptLib} {arch : ArchNode} {rootNode : Option ArchNode}
    {defaultUnit unit : EnergyUnit} {counterType : Counter} {index : Nat} {o : XaOutcome}
    {counter : XaFam23Counter}
    (h : setup lib arch rootNode defaultUnit counterType index o = .ok (unit, some counter)) :
    (counterType = .pckg ∧ ∃ nr, dieOfSocket rootNode index = .ok (some nr) ∧
        lib.deviceOf counter.device = some (.die, nr)) ∨
      (counterType = .singleCore ∧ ∃ cpu, getTestCpu arch .core index = some cpu ∧ ¬ cpu < 0 ∧
        lib.deviceOf counter.device = some (.cpu, cpu.toNat)) := by
  have hchosen : ∃ chosen, choose lib arch rootNode counterType index = .ok (some chosen) ∧
      counter.device = chosen.fd := by
    unfold setup at h
    split at h
    · cases h
    · cases h
    · rename_i chosen hchoose
      simp only at h
      split at h
      · cases h
      · split at h
        · cases h
        · split at h
          · cases h
          · cases h
            exact ⟨chosen, hchoose, rfl⟩
  obtain ⟨chosen, hchoose, hdevice⟩ := hchosen
  rw [hdevice]
  unfold choose at hchoose
  split at hchoose
  · left
    split at hchoose
    · cases hchoose
    · split at hchoose
      · cases hchoose
      · split at hchoose
        · cases hchoose
        · cases hchoose
        · rename_i nr hdie
          exact ⟨rfl, nr, hdie, openDevice_some (Except.ok.inj hchoose)⟩
  · right
    split at hchoose
    · cases hchoose
    · rename_i cpu hcpu
      split at hchoose
      · cases hchoose
      · rename_i hneg
        exact ⟨rfl, cpu, hcpu, hneg, openDevice_some (Except.ok.inj hchoose)⟩
  · cases hchoose

end X86AdaptFam23

end Access
end X86Energy
