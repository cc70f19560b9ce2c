import X86Energy.Access.MsrHandles
import X86Energy.Access.PowercapZones
import X86Energy.Access.X86Adapt
import X86Energy.Architecture.TestCpu
import X86Energy.ParseArchitecture.AnyBuild

/-!
# Which node a counter measures

The same index reaches a device on five ways: through the id of a SOCKET or CORE, the
number of a CPU, that of a NUMA node, and that of a package of powercap.  A counter is
placed if its device lies in the SOCKET that the index stands for.

Two of the ways mix up the numbers: `x86a-rapl` takes the id of the SOCKET for that of a
DIE, and `sysfs-powercap-rapl` takes the id of a CORE for that of a package.  The others
are placed on every tree (`placed_iff`).
-/

namespace X86Energy

open CInt

namespace ArchNode

/-- The root is the SYSTEM, its children are SOCKETs and theirs are DIEs. -/
structure WellShaped (t : ArchNode) : Prop where
  system : t.granularity = .system
  sockets : ∀ s ∈ t.children, s.granularity = .socket
  dies : ∀ s ∈ t.children, ∀ d ∈ s.children, d.granularity = .die

/-- Everything of another granularity lies below a SOCKET. -/
theorem WellShaped.socket_of_mem {t x : ArchNode} (h : t.WellShaped) (hx : x ∈ t.preorder)
    (hg : x.granularity ≠ .system) :
    ∃ s ∈ t.preorder, s.granularity = .socket ∧ x ∈ s.preorder := by
  rw [preorder_eq_cons] at hx
  rcases List.mem_cons.mp hx with rfl | hx
  · exact absurd h.system hg
  · obtain ⟨s, hs, hxs⟩ := List.mem_flatMap.mp hx
    exact ⟨s, mem_preorder_of_mem_children hs (self_mem_preorder s), h.sockets s hs, hxs⟩

end ArchNode

open ArchNode ParseArchitecture in
/-- The tree of every machine has this shape. -/
theorem wellShaped_of_init {S : Snapshot} {arch : ArchNode}
    (h : initArchitectureNodes S = .ok arch) : arch.WellShaped := by
  obtain ⟨hsystem, hsockets⟩ := formed_of_init h
  exact ⟨hsystem, fun s hs => (hsockets s hs).1, fun s hs d hd => ((hsockets s hs).2 d hd).1⟩

namespace Access

open Architecture ArchNode Descriptors

/-- The sources that take a SOCKET or CORE for an index. -/
inductive Source
  | sysfs
  | msr (source : MsrSource)
  | x86Adapt
  | x86AdaptFam23

/-- What a counter reads: an open file, a device of x86_adapt, or a directory of
powercap. -/
inductive Device
  | file (f : Option File)
  | adapt (d : Option (DeviceType × Nat))
  | zone (T : PowercapTree) (dName : List Char)

/-- The device lies in a SOCKET: a DIE device of x86_adapt is the NUMA node of its number
and a CPU device the CPU, and a zone belongs to the package that its parent is named
after. -/
def Device.LiesIn (s : ArchNode) : Device → Prop
  | file (some (.msr cpu)) => (cpu : Int) ∈ s.threads
  | file _ => False
  | adapt (some (.die, nr)) => ∃ d ∈ s.preorder, d.granularity = .die ∧ toSize d.id = nr
  | adapt (some (.cpu, nr)) => (nr : Int) ∈ s.threads
  | adapt none => False
  | zone T dName => ∃ z, .inl z ∈ T.entries ∧ dName = z.dir ∧ T.InPackage s.id z

/-- `setup` of the source returns a counter that reads the device. -/
inductive Delivers (arch : ArchNode) (counterType : Counter) (index : Nat) :
    Source → Device → Prop
  | sysfs {T : PowercapTree} {dir : Powercap} {o : SysfsOutcome} {counter : SysfsCounter}
      (hdir : T.NamedBy dir)
      (h : Sysfs.setup arch dir counterType index o = .ok (some counter)) :
      Delivers arch counterType index .sysfs (.zone T counter.zone)
  | msr {host : Host} {source : MsrSource} {s s' : MsrState} {o : SetupOutcome}
      {counter : MsrCounter} (hs : Reachable host arch source s)
      (h : source.step host arch s (.setup counterType index o) = .ok s')
      (hcounter : s'.counters = s.counters ++ [counter]) :
      Delivers arch counterType index (.msr source)
        (.file (fileAt s'.table (s'.slot counter.cpuId)))
  | x86Adapt {lib : X86AdaptLib} {host : Host} {dramUnit unit : EnergyUnit} {o : XaOutcome}
      {counter : XaCounter}
      (h : X86Adapt.setup lib host arch dramUnit counterType index o =
        .ok (unit, some counter)) :
      Delivers arch counterType index .x86Adapt (.adapt (lib.deviceOf counter.device))
  | x86AdaptFam23 {lib : X86AdaptLib} {defaultUnit unit : EnergyUnit} {o : XaOutcome}
      {counter : XaFam23Counter}
      (h : X86AdaptFam23.setup lib arch (some arch) defaultUnit counterType index o =
        .ok (unit, some counter)) :
      Delivers arch counterType index .x86AdaptFam23 (.adapt (lib.deviceOf counter.device))

/-- The SOCKET that an index stands for: the one with the id, or one that contains the CORE
with the id. -/
def StandsFor (counterType : Counter) (index : Nat) (s : ArchNode) : Prop :=
  match counterType with
  | .singleCore => ∃ core ∈ s.preorder, core.granularity = .core ∧ toSize core.id = index
  | _ => toSize s.id = index

/-- The device lies in the SOCKET of the index.  A counter of the platform has none. -/
def Placed (arch : ArchNode) (counterType : Counter) (index : Nat) (device : Device) : Prop :=
  counterType ≠ .platform → ∃ s ∈ arch.preorder, s.granularity = .socket ∧
    StandsFor counterType index s ∧ device.LiesIn s

/-- The SOCKET with the id contains a node of the granularity with the same id. -/
def SameNumber (arch : ArchNode) (g : Granularity) (index : Nat) : Prop :=
  ∃ s ∈ arch.preorder, s.granularity = .socket ∧ toSize s.id = index ∧
    ∃ x ∈ s.preorder, x.granularity = g ∧ toSize x.id = index

/-- What the translation of the index needs. -/
def NumbersFit (arch : ArchNode) (counterType : Counter) (index : Nat) : Source → Prop
  | .x86Adapt => SameNumber arch .die index
  | .sysfs => counterType = .singleCore → SameNumber arch .core index
  | _ => True

section Placed

variable {arch : ArchNode} {counterType : Counter} {index : Nat}

/-- The granularity at which the index is looked up. -/
def levelOf (counterType : Counter) : Granularity :=
  if counterType ≠ .singleCore then .socket else .core

theorem standsFor_iff (hne : counterType ≠ .singleCore) (s : ArchNode) :
    StandsFor counterType index s ↔ toSize s.id = index := by
  cases counterType with
  | singleCore => exact absurd rfl hne
  | _ => exact Iff.rfl

/-- A node with the id, at the right granularity, lies in a SOCKET of the index. -/
theorem exists_standsFor (h : arch.WellShaped) {x : ArchNode} (hx : x ∈ arch.preorder)
    (hg : x.granularity = levelOf counterType) (hid : toSize x.id = index) :
    ∃ s ∈ arch.preorder, s.granularity = .socket ∧ StandsFor counterType index s ∧
      x ∈ s.preorder := by
  by_cases hne : counterType ≠ .singleCore
  · rw [levelOf, if_pos hne] at hg
    exact ⟨x, hx, hg, (standsFor_iff hne x).mpr hid, self_mem_preorder x⟩
  · obtain rfl := not_not.mp hne
    rw [levelOf, if_neg hne] at hg
    obtain ⟨s, hs, hsg, hxs⟩ := h.socket_of_mem hx (by rw [hg]; decide)
    exact ⟨s, hs, hsg, ⟨x, hxs, hg, hid⟩, hxs⟩

/-- A CPU of the index lies in a SOCKET of the index. -/
theorem placed_of_cpu (h : arch.WellShaped) {cpu : Int}
    (hcpu : getTestCpu arch (levelOf counterType) index = some cpu) (hpos : ¬ cpu < 0)
    {device : Device} (hdevice : ∀ s : ArchNode, cpu ∈ s.threads → device.LiesIn s) :
    Placed arch counterType index device := by
  intro _
  obtain ⟨x, hx, hg, hid, hmem⟩ := getTestCpu_found hcpu hpos
  obtain ⟨s, hs, hsg, hstands, hxs⟩ := exists_standsFor h hx hg hid
  obtain ⟨y, hy, hthread, hyid⟩ := mem_threads.mp hmem
  exact ⟨s, hs, hsg, hstands, hdevice s (mem_threads.mpr ⟨y, preorder_trans hxs hy, hthread, hyid⟩)⟩

theorem asked_levelOf {source : MsrSource} {granularity : Granularity} {reg : Nat}
    (h : source.asked counterType = some (granularity, some reg)) :
    granularity = levelOf counterType := by
  cases source <;> cases counterType <;> cases h <;> rfl

/-- **A counter of the msr sources is placed** in every reachable state. -/
theorem placed_msr (h : arch.WellShaped) {host : Host} {source : MsrSource} {s s' : MsrState}
    {o : SetupOutcome} {counter : MsrCounter} (hs : Reachable host arch source s)
    (hstep : source.step host arch s (.setup counterType index o) = .ok s')
    (hcounter : s'.counters = s.counters ++ [counter]) :
    Placed arch counterType index (.file (fileAt s'.table (s'.slot counter.cpuId))) := by
  obtain ⟨hhandled, granularity, reg, cpu, hasked, hcpu, hpos, hid⟩ :=
    MsrSource.setup_handled hs.slotsOpen hstep hcounter
  rw [asked_levelOf hasked] at hcpu
  unfold MsrState.Handled at hhandled
  rw [hhandled, hid]
  refine placed_of_cpu h hcpu hpos fun s hmem => ?_
  change (cpu.toNat : Int) ∈ s.threads
  rwa [Int.toNat_of_nonneg (Int.not_lt.mp hpos)]

/-- **A counter of `x86a-rapl-amd` is placed**: the first DIE of a SOCKET lies in it. -/
theorem placed_x86AdaptFam23 (h : arch.WellShaped) {lib : X86AdaptLib}
    {defaultUnit unit : EnergyUnit} {o : XaOutcome} {counter : XaFam23Counter}
    (hsetup : X86AdaptFam23.setup lib arch (some arch) defaultUnit counterType index o =
      .ok (unit, some counter)) :
    Placed arch counterType index (.adapt (lib.deviceOf counter.device)) := by
  rcases X86AdaptFam23.setup_device hsetup with ⟨rfl, nr, hdie, hdevice⟩ |
    ⟨rfl, cpu, hcpu, hpos, hdevice⟩
  · intro _
    obtain ⟨s, hs, hg, hid, d, hd, hdid⟩ := X86AdaptFam23.dieOfSocket_some hdie
    rw [hdevice]
    exact ⟨s, mem_preorder_of_mem_children hs (self_mem_preorder s), hg, hid, d,
      mem_preorder_of_mem_children hd (self_mem_preorder d), h.dies s hs d hd, hdid⟩
  · rw [hdevice]
    have hcore : Granularity.core = levelOf .singleCore := rfl
    rw [hcore] at hcpu
    refine placed_of_cpu h hcpu hpos fun s hmem => ?_
    change (cpu.toNat : Int) ∈ s.threads
    rwa [Int.toNat_of_nonneg (Int.not_lt.mp hpos)]

/-- A counter of `x86a-rapl` is placed exactly if the SOCKET has a DIE of its own number. -/
theorem placed_x86Adapt_iff {lib : X86AdaptLib} {host : Host} {dramUnit unit : EnergyUnit}
    {o : XaOutcome} {counter : XaCounter}
    (hsetup : X86Adapt.setup lib host arch dramUnit counterType index o =
      .ok (unit, some counter)) :
    Placed arch counterType index (.adapt (lib.deviceOf counter.device)) ↔
      SameNumber arch .die index := by
  obtain ⟨hplatform, hcore, hdevice⟩ := X86Adapt.setup_device hsetup
  rw [hdevice]
  simp only [Placed, standsFor_iff hcore]
  exact ⟨fun hplaced => hplaced hplatform, fun hsame _ => hsame⟩

/-- A counter of `sysfs-powercap-rapl` is placed if it is not for a CORE, and otherwise
exactly if the SOCKET of its number contains the CORE. -/
theorem placed_sysfs_iff (hids : ∀ x ∈ arch.preorder, IsInt32 x.id)
    {T : PowercapTree} {dir : Powercap} {o : SysfsOutcome} {counter : SysfsCounter}
    (hdir : T.NamedBy dir)
    (hsetup : Sysfs.setup arch dir counterType index o = .ok (some counter)) :
    Placed arch counterType index (.zone T counter.zone) ↔
      (counterType = .singleCore → SameNumber arch .core index) := by
  obtain ⟨hcpu, hpos, max, hscan⟩ := Sysfs.setup_some hsetup
  obtain ⟨x, hx, hg, hid, _⟩ := getTestCpu_found hcpu hpos
  obtain ⟨z, hz, hzone, hpackage⟩ := PowercapTree.inPackage_of_scan hdir hscan
  -- the zone lies in a SOCKET exactly if this has the package as its id
  have hlies : ∀ s ∈ arch.preorder, Device.LiesIn s (.zone T counter.zone) ↔
      toSize s.id = index := by
    intro s hs
    have hint := toInt32_toSize (hids x hx)
    rw [hid] at hint
    constructor
    · rintro ⟨z', hz', hzone', hpackage'⟩
      have hsame := hpackage.eq_of_dir hz hz' (hzone.symm.trans hzone') hpackage'
      rw [← hsame, hint, hid]
    · rintro rfl
      rw [toInt32_toSize (hids s hs)] at hpackage
      exact ⟨z, hz, hzone, hpackage⟩
  by_cases hne : counterType ≠ .singleCore
  · refine ⟨fun _ heq => absurd heq hne, fun _ _ => ?_⟩
    rw [if_pos hne] at hg
    exact ⟨x, hx, hg, (standsFor_iff hne x).mpr hid, (hlies x hx).mpr hid⟩
  · obtain rfl := not_not.mp hne
    constructor
    · intro hplaced _
      obtain ⟨s, hs, hsg, hcore, hin⟩ := hplaced (by decide)
      exact ⟨s, hs, hsg, (hlies s hs).mp hin, hcore⟩
    · intro hsame _
      obtain ⟨s, hs, hsg, hsid, hcore⟩ := hsame rfl
      exact ⟨s, hs, hsg, hcore, (hlies s hs).mpr hsid⟩

/-- **Which counters measure the node they were asked for**: all of the msr sources and of
`x86a-rapl-amd`; those of `x86a-rapl` if the SOCKET has a DIE of its own number; and
those of `sysfs-powercap-rapl` unless they are for a CORE that lies outside the SOCKET of
its own number. -/
theorem placed_iff (h : arch.WellShaped) (hids : ∀ x ∈ arch.preorder, IsInt32 x.id)
    {source : Source} {device : Device}
    (hdelivers : Delivers arch counterType index source device) :
    Placed arch counterType index device ↔ NumbersFit arch counterType index source := by
  cases hdelivers with
  | sysfs hdir hsetup => exact placed_sysfs_iff hids hdir hsetup
  | msr hs hstep hcounter => exact iff_of_true (placed_msr h hs hstep hcounter) trivial
  | x86Adapt hsetup => exact placed_x86Adapt_iff hsetup
  | x86AdaptFam23 hsetup => exact iff_of_true (placed_x86AdaptFam23 h hsetup) trivial

end Placed

section Machines

instance (arch : ArchNode) (g : Granularity) (index : Nat) :
    Decidable (SameNumber arch g index) :=
  inferInstanceAs (Decidable (∃ s ∈ arch.preorder, s.granularity = .socket ∧ toSize s.id = index ∧
    ∃ x ∈ s.preorder, x.granularity = g ∧ toSize x.id = index))

/-- One CPU in a DIE. -/
def oneCpuDie (number : Int) : ArchNode :=
  .node .die number none [.node .core number none [.node .thread number none []]]

/-- Two SOCKETs with two DIEs each. -/
def twoSockets : ArchNode :=
  .node .system 0 none
    [.node .socket 0 none [oneCpuDie 0, oneCpuDie 1],
      .node .socket 1 none [oneCpuDie 2, oneCpuDie 3]]

theorem twoSockets_wellShaped : twoSockets.WellShaped where
  system := rfl
  sockets := by decide
  dies := by decide

theorem twoSockets_ids : ∀ x ∈ twoSockets.preorder, IsInt32 x.id := by decide

/-- A library with all registers and devices. -/
def anyLib : X86AdaptLib where
  lookupCiName _ _ := 0
  getDeviceRo
    | .die, nr => 2 * nr + 1
    | .cpu, nr => 2 * nr + 2
  deviceOf fd :=
    if fd % 2 = 1 then some (.die, ((fd - 1) / 2).toNat) else some (.cpu, ((fd - 2) / 2).toNat)
  opened type nr _ := by
    cases type with
    | die =>
        have hodd : (2 * (nr : Int) + 1) % 2 = 1 := by omega
        have hhalf : ((2 * (nr : Int) + 1 - 1) / 2).toNat = nr := by omega
        simp only [if_pos hodd, hhalf]
    | cpu =>
        have heven : ¬ (2 * (nr : Int) + 2) % 2 = 1 := by omega
        have hhalf : ((2 * (nr : Int) + 2 - 2) / 2).toNat = nr := by omega
        simp only [if_neg heven, hhalf]

def allDeliver : XaOutcome := ⟨some 0xA0E03, some 0x1234, true⟩

/-- `x86a-rapl` reads the DIE with the number of the SOCKET. -/
theorem delivers_x86Adapt (nr : Nat) (hnr : nr < 2) :
    Delivers twoSockets .pckg nr .x86Adapt (.adapt (some (.die, nr))) :=
  match nr, hnr with
  | 0, _ => @Delivers.x86Adapt twoSockets .pckg 0 anyLib anyHost .invalid _ allDeliver _ rfl
  | 1, _ => @Delivers.x86Adapt twoSockets .pckg 1 anyLib anyHost .invalid _ allDeliver _ rfl

theorem placed_twoSockets : Placed twoSockets .pckg 0 (.adapt (some (.die, 0))) :=
  (placed_iff twoSockets_wellShaped twoSockets_ids (delivers_x86Adapt 0 (by decide))).mpr
    (by decide : SameNumber twoSockets .die 0)

/-- The zones of two packages, each with one for its cores. -/
def coreZones : PowercapTree where
  entries := [.inl (.top 0), .inl (.sub 0 0), .inl (.top 1), .inl (.sub 1 0)]
  label
    | .top 0 => .package 0 none
    | .top 1 => .package 1 none
    | _ => .domain "core".toList
  range _ := 262143328850
  others := by simp
  parents := by simp [Zone.parent]
  numbers := by simp [Zone.parent, intMax]
  packages z n die hlabel := by
    split at hlabel
    all_goals cases hlabel
    all_goals decide
  domains z text hlabel := by
    split at hlabel
    all_goals cases hlabel
    decide

def coreZonesDir : Powercap where
  namelist := ["intel-rapl:0", "intel-rapl:0:0", "intel-rapl:1", "intel-rapl:1:0"].map String.toList
  nameFile name :=
    if name = "intel-rapl:0".toList then some "package-0\n".toList
    else if name = "intel-rapl:1".toList then some "package-1\n".toList
    else some "core\n".toList
  energyOpens _ := true
  maxFile _ := .value 262143328850

theorem coreZones_named : coreZones.NamedBy coreZonesDir where
  namelist := rfl
  nameFile := by
    intro z hz content hcontent
    have hz : z = .top 0 ∨ z = .sub 0 0 ∨ z = .top 1 ∨ z = .sub 1 0 := by
      simpa [coreZones] using hz
    rcases hz with rfl | rfl | rfl | rfl
    all_goals
      cases hcontent
      decide

/-- **Two SOCKETs with two DIEs and two COREs each**: for SOCKET 1 `x86a-rapl` reads DIE 1,
and for CORE 1 `sysfs-powercap-rapl` reads package 1; but both lie in the other SOCKET. -/
theorem not_placed_twoSockets :
    (Delivers twoSockets .pckg 1 .x86Adapt (.adapt (some (.die, 1))) ∧
        ¬ Placed twoSockets .pckg 1 (.adapt (some (.die, 1)))) ∧
      Delivers twoSockets .singleCore 1 .sysfs (.zone coreZones "intel-rapl:1:0".toList) ∧
        ¬ Placed twoSockets .singleCore 1 (.zone coreZones "intel-rapl:1:0".toList) := by
  have hadapt := delivers_x86Adapt 1 (by decide)
  have hsetup : Sysfs.setup twoSockets coreZonesDir .singleCore 1 ⟨true, some 5, true, true, true⟩ =
      .ok (some ⟨"intel-rapl:1:0".toList, 1, 1, 5, 0, 262143328850⟩) := by rfl
  refine ⟨⟨hadapt, fun hplaced => ?_⟩, .sysfs coreZones_named hsetup, fun hplaced => ?_⟩
  · have hsame : SameNumber twoSockets .die 1 := hplaced (by decide)
    revert hsame
    decide
  · have hsame := (placed_sysfs_iff twoSockets_ids coreZones_named hsetup).mp hplaced rfl
    revert hsame
    decide

end Machines

end Access

end X86Energy
