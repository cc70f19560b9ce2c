import X86Energy.ParseArchitecture.ProcessNode

/-!
# Which mechanism a machine has

`x86_energy_get_avail_mechanism` identifies the CPU and tells a client which
counters there are, at which granularity each of them is indexed, and which sources
can be asked for them.
-/

namespace X86Energy
namespace Architecture

open ParseArchitecture

/-- `enum x86_energy_counter`. -/
inductive Counter
  | pckg
  | cores
  | dram
  | gpu
  | platform
  | singleCore
deriving DecidableEq, Repr

/-- The part of `x86_energy_mechanisms_t` that a client reads; the sources by name. -/
structure Mechanism where
  name : String
  sourceGranularities : Counter → Granularity
  availSources : List String

/-- What `x86_energy_get_avail_mechanism` depends on besides the topology: the
registers that `cpuid` delivers for leaf 0 and leaf 1, the environment variable
`X86_ENERGY_SOURCE`, the build options and the two requests for memory. -/
structure Host where
  ebx : Nat
  edx : Nat
  ecx : Nat
  eax : Nat
  selectedSource : Option String
  useLikwid : Bool
  useX86Adapt : Bool
  memoryMechanism : Bool
  memorySources : Bool

namespace Host

/-- The four bytes of a register as text, lowest first. -/
def registerText (r : Nat) : List Char :=
  [0, 8, 16, 24].map fun shift => Char.ofNat (r >>> shift % 256)

/-- The vendor name in `buffer`. -/
def vendor (host : Host) : List Char :=
  registerText host.ebx ++ registerText host.edx ++ registerText host.ecx

def baseModel (host : Host) : Nat := host.eax >>> 4 % 16

def baseFamily (host : Host) : Nat := host.eax >>> 8 % 16

def extModel (host : Host) : Nat := host.eax >>> 16 % 16

def extFamily (host : Host) : Nat := host.eax >>> 20 % 256

def cpuFamily (host : Host) : Nat :=
  if host.baseFamily = 15 then host.extFamily + host.baseFamily else host.baseFamily

def cpuModel (host : Host) : Nat :=
  if host.baseFamily = 6 ∨ host.baseFamily = 15 then
    host.extModel <<< 4 + host.baseModel
  else host.baseModel

/-- `is_selected_source`. -/
def isSelectedSource (host : Host) (source : String) : Bool :=
  match host.selectedSource with
  | none => true
  | some name => name = source

/-- The names of the sources, in order, that were built in and are selected. -/
def selectedSources (host : Host) (sources : List (Bool × String)) : List String :=
  ((sources.filter Prod.fst).map Prod.snd).filter host.isSelectedSource

end Host

/-- The counters of the Intel processors that are recognized, by model. -/
def intelSupported (model : Nat) : Option (List Counter) :=
  if model ∈ [0x2a, 0x3a, 0x97, 0x9a, 0xbf] then some [.pckg, .cores, .gpu]
  else if model ∈ [0x2d, 0x3e, 0x45, 0x46, 0x47] then some [.pckg, .cores, .dram]
  else if model ∈ [0x3c, 0x3d] then some [.pckg, .cores, .dram, .gpu]
  else if model ∈ [0x3f, 0x56, 0x4f, 0x55, 0x5e, 0x8f] then some [.pckg, .dram]
  else if model = 0x4e then some [.pckg]
  else if model = 0x8e then some [.pckg, .cores, .dram, .gpu, .platform]
  else none

/-- The granularities of "Intel RAPL". -/
def intelGranularities (supported : List Counter) : Counter → Granularity
  | .platform => if Counter.platform ∈ supported then .system else .size
  | .singleCore => if Counter.singleCore ∈ supported then .core else .size
  | counter => if counter ∈ supported then .socket else .size

/-- The granularities of "AMD APM". -/
def amdGranularities (supported : List Counter) (counter : Counter) : Granularity :=
  if counter ∈ supported then .socket else .size

/-- The granularities of "AMD RAPL". -/
def amdRaplGranularities (supported : List Counter) : Counter → Granularity
  | .pckg => .socket
  | .cores => if Counter.cores ∈ supported then .socket else .size
  | .singleCore => if Counter.singleCore ∈ supported then .core else .size
  | _ => .size

/-- A mechanism with its sources; `none` if no source is selected or memory is
refused. -/
def makeMechanism (host : Host) (name : String) (granularities : Counter → Granularity)
    (sources : List (Bool × String)) : Option Mechanism :=
  if !host.memoryMechanism then none
  else if host.selectedSources sources = [] then none
  else if !host.memorySources then none
  else some ⟨name, granularities, host.selectedSources sources⟩

/-- The mechanism of the processor; `none` is the return of `NULL`. -/
def detectMechanism (host : Host) : Option Mechanism :=
  if host.vendor = "GenuineIntel".toList then
    if host.cpuFamily ≠ 6 then none
    else
      match intelSupported host.cpuModel with
      | none => none
      | some supported =>
          makeMechanism host "Intel RAPL" (intelGranularities supported)
            [(true, "sysfs-powercap-rapl"), (true, "perf-rapl"), (true, "msr-rapl"),
              (host.useLikwid, "likwid-rapl"), (host.useX86Adapt, "x86a-rapl")]
  else if host.vendor = "AuthenticAMD".toList then
    if host.cpuFamily = 0x15 then
      makeMechanism host "AMD APM" (amdGranularities [.pckg]) [(true, "sysfs-Fam15h")]
    else if host.cpuFamily = 0x17 then
      makeMechanism host "AMD RAPL" (amdRaplGranularities [.pckg, .singleCore])
        [(true, "msr-rapl-fam23"), (true, "sysfs-powercap-rapl"), (true, "perf-rapl"),
          (host.useX86Adapt, "x86a-rapl-amd")]
    else if host.cpuFamily = 0x19 then
      makeMechanism host "AMD RAPL" (amdRaplGranularities [.pckg, .cores])
        [(true, "msr-rapl-fam23"), (true, "sysfs-powercap-rapl"), (true, "perf-rapl"),
          (host.useX86Adapt, "x86a-rapl-amd")]
    else none
  else none

/-- `x86_energy_get_avail_mechanism`: the tree in `arch` and the mechanism (`failed`
is the return of `NULL`). -/
def getAvailMechanism (host : Host) (S : Snapshot) : Except BuildStop (ArchNode × Mechanism) :=
  match initArchitectureNodes S with
  | .error e => .error e
  | .ok arch =>
      if ArchNode.archCount .socket arch = 0 then .error .failed
      else
        match detectMechanism host with
        | none => .error .failed
        | some mechanism => .ok (arch, mechanism)

/-- Every mechanism asks for the package counter by SOCKET, and every other counter by
SOCKET, by CORE or for the SYSTEM, if it has the counter. -/
theorem detectMechanism_granularities {host : Host} {m : Mechanism}
    (h : detectMechanism host = some m) :
    m.sourceGranularities .pckg = .socket ∧
      ∀ c, m.sourceGranularities c ∈ [.system, .socket, .core, .size] := by
  have hmake : ∀ {name gs sources}, makeMechanism host name gs sources = some m →
      m.sourceGranularities = gs := by
    intro name gs sources hmake
    unfold makeMechanism at hmake
    split at hmake
    · cases hmake
    · split at hmake
      · cases hmake
      · split at hmake
        · cases hmake
        · cases hmake
          rfl
  have hintel : ∀ supported, intelSupported host.cpuModel = some supported →
      Counter.pckg ∈ supported := by
    intro supported hs
    unfold intelSupported at hs
    repeat' split at hs
    all_goals first
      | (cases hs; simp)
      | cases hs
  have hpick : ∀ (p : Prop) [Decidable p] (g : Granularity),
      g ∈ [Granularity.system, .socket, .core, .size] →
      (if p then g else .size) ∈ [Granularity.system, .socket, .core, .size] := by
    intro p _ g hg
    split
    · exact hg
    · decide
  unfold detectMechanism at h
  split at h
  · split at h
    · cases h
    · cases hs : intelSupported host.cpuModel with
      | none =>
          rw [hs] at h
          cases h
      | some supported =>
          rw [hs] at h
          rw [hmake h]
          refine ⟨if_pos (hintel supported hs), fun c => ?_⟩
          cases c <;> exact hpick _ _ (by decide)
  · split at h
    · split at h
      · rw [hmake h]
        exact ⟨rfl, fun c => hpick _ _ (by decide)⟩
      · split at h
        · rw [hmake h]
          exact ⟨rfl, fun c => by cases c <;> decide⟩
        · split at h
          · rw [hmake h]
            exact ⟨rfl, fun c => by cases c <;> decide⟩
          · cases h
    · cases h

end Architecture
end X86Energy
