import X86Energy.Access.LikwidSessions
import X86Energy.Access.Perf
import X86Energy.Access.Placement
import X86Energy.Access.SysfsFam15
import X86Energy.Architecture.Mechanism

/-!
# Which advertised counters the sources refuse

A mechanism gives a granularity for each counter that the processor has, and a list of sources
for all of them.  Each source decides by itself, in its `setup`, which counter types it takes.

**Result.** `accepts_iff_of_mechanism`: an advertised counter can be set up with an advertised
source, except for three kinds of pairs.
-/

namespace X86Energy
namespace Access

open CInt Architecture ArchNode

/-- The sources of `access.h`. -/
inductive AccessSource
  | sysfs
  | perf
  | msr
  | likwid
  | x86a
  | sysfsFam15
  | msrFam23
  | x86aFam23
deriving DecidableEq, Repr

namespace AccessSource

/-- The `name` of a source. -/
def name : AccessSource → String
  | sysfs => "sysfs-powercap-rapl"
  | perf => "perf-rapl"
  | msr => "msr-rapl"
  | likwid => "likwid-rapl"
  | x86a => "x86a-rapl"
  | sysfsFam15 => "sysfs-Fam15h"
  | msrFam23 => "msr-rapl-fam23"
  | x86aFam23 => "x86a-rapl-amd"

theorem name_injective : Function.Injective name := by
  intro a b h
  cases a <;> cases b <;> first | rfl | exact absurd h (by decide)

theorem mem_of_name_mem {source : AccessSource} {sources : List AccessSource}
    (h : source.name ∈ sources.map name) : source ∈ sources := by
  obtain ⟨found, hfound, heq⟩ := List.mem_map.mp h
  exact name_injective heq ▸ hfound

/-- There are a machine and a state of the source in which its `setup` returns a counter of this
type. -/
def Accepts : AccessSource → Counter → Prop
  | sysfs, c => ∃ arch dir index o counter, Sysfs.setup arch dir c index o = .ok (some counter)
  | perf, c => ∃ arch index o result, Perf.setup arch c index o = .ok (some result)
  | msr, c => ∃ host arch s index o s', Msr.setup host arch s c index o = .ok s' ∧
      s.counters.length < s'.counters.length
  | likwid, c => ∃ arch s index o s', Likwid.setup arch s c index o = .ok s' ∧
      s.counters.length < s'.counters.length
  | x86a, c => ∃ lib host arch dramUnit index o unit counter,
      X86Adapt.setup lib host arch dramUnit c index o = .ok (unit, some counter)
  | sysfsFam15, c => ∃ arch archInfo s index o s',
      SysfsFam15.setup arch archInfo s c index o = .ok s' ∧ s.counters.length < s'.counters.length
  | msrFam23, c => ∃ arch s index o s', MsrFam23.setup arch s c index o = .ok s' ∧
      s.counters.length < s'.counters.length
  | x86aFam23, c => ∃ lib arch rootNode defaultUnit index o unit counter,
      X86AdaptFam23.setup lib arch rootNode defaultUnit c index o = .ok (unit, some counter)

/-- The counter types that the `setup` of a source takes. -/
def takes : AccessSource → List Counter
  | sysfs => [.pckg, .cores, .dram, .gpu, .platform, .singleCore]
  | perf => [.pckg, .cores, .dram, .gpu, .platform]
  | msr => [.pckg, .cores, .dram, .gpu, .platform]
  | likwid => [.pckg, .cores, .dram, .gpu, .platform]
  | x86a => [.pckg, .cores, .dram, .gpu]
  | sysfsFam15 => [.pckg]
  | msrFam23 => [.pckg, .singleCore]
  | x86aFam23 => [.pckg, .singleCore]

section Refused

variable {c : Counter}

theorem not_accepts_perf : ¬ Accepts perf .singleCore := by
  rintro ⟨arch, index, o, result, h⟩
  unfold Perf.setup at h
  split at h <;> cases h

theorem not_accepts_msr : ¬ Accepts msr .singleCore := by
  rintro ⟨host, arch, s, index, o, s', h, hlt⟩
  unfold Msr.setup at h
  split at h
  · cases h
  · split at h
    · cases h
      exact lt_irrefl _ hlt
    · split at h
      · cases h
      · cases h
        rw [Msr.register, counters_setupOn_none] at hlt
        exact lt_irrefl _ hlt

theorem not_accepts_likwid : ¬ Accepts likwid .singleCore := by
  rintro ⟨arch, s, index, o, s', h, hlt⟩
  unfold Likwid.setup at h
  split at h
  · cases h
  · split at h
    · cases h
      exact lt_irrefl _ hlt
    · cases h
      exact lt_irrefl _ hlt

theorem not_accepts_x86a (h : c = .platform ∨ c = .singleCore) : ¬ Accepts x86a c := by
  rintro ⟨lib, host, arch, dramUnit, index, o, unit, counter, hsetup⟩
  obtain ⟨hplatform, hcore, -⟩ := X86Adapt.setup_device hsetup
  rcases h with h | h
  · exact hplatform h
  · exact hcore h

theorem not_accepts_sysfsFam15 (h : c ≠ .pckg) : ¬ Accepts sysfsFam15 c := by
  rintro ⟨arch, archInfo, s, index, o, s', hsetup, hlt⟩
  cases SysfsFam15.setup_cases hsetup with
  | same => exact lt_irrefl _ hlt
  | gaveUp hfrom => exact h hfrom.2.2.1
  | noDevice hfrom => exact h hfrom.2.2.1
  | closed hfrom => exact h hfrom.2.2.1
  | added hfrom => exact h hfrom.2.2.1

theorem not_accepts_msrFam23 (h : MsrFam23.register c = none) : ¬ Accepts msrFam23 c := by
  rintro ⟨arch, s, index, o, s', hsetup, hlt⟩
  unfold MsrFam23.setup at hsetup
  rw [h] at hsetup
  cases hsetup
  exact lt_irrefl _ hlt

theorem not_accepts_x86aFam23 (h : c ≠ .pckg ∧ c ≠ .singleCore) : ¬ Accepts x86aFam23 c := by
  rintro ⟨lib, arch, rootNode, defaultUnit, index, o, unit, counter, hsetup⟩
  rcases X86AdaptFam23.setup_device hsetup with ⟨hc, -⟩ | ⟨hc, -⟩
  · exact h.1 hc
  · exact h.2 hc

end Refused

section Taken

/-- A powercap directory with one zone for the counter. -/
def zoneOf (c : Counter) : Powercap where
  namelist := ["intel-rapl:0:0".toList]
  nameFile zone :=
    if zone = "intel-rapl:0".toList then some "package-0\n".toList
    else some (Sysfs.sysfsNames c ++ ['\n'])
  energyOpens _ := true
  maxFile _ := .value 262143328850

theorem accepts_sysfs (c : Counter) : Accepts sysfs c := by
  refine ⟨oneCpu, zoneOf c, 0, ⟨true, some 5, true, true, true⟩, ?_⟩
  cases c <;> exact ⟨_, rfl⟩

theorem accepts_perf {c : Counter} (h : c ∈ takes perf) : Accepts perf c := by
  refine ⟨oneCpu, 0, ⟨fun _ => .line "event=0x02\n".toList, fun _ => .number (.finite 2), 3, true, true⟩, ?_⟩
  cases c <;> first | exact ⟨_, rfl⟩ | (simp [takes] at h)

theorem accepts_msr {c : Counter} (h : c ∈ takes msr) : Accepts msr c := by
  refine ⟨anyHost, oneCpu, { freshProcess with fds := [0] }, 0, allSucceed, ?_⟩
  cases c <;> first | exact ⟨_, rfl, Nat.zero_lt_one⟩ | (simp [takes] at h)

theorem accepts_msrFam23 {c : Counter} (h : c ∈ takes msrFam23) : Accepts msrFam23 c := by
  refine ⟨oneCpu, { freshProcess with fds := [0] }, 0, allSucceed, ?_⟩
  cases c <;> first | exact ⟨_, rfl, Nat.zero_lt_one⟩ | (simp [takes] at h)

theorem accepts_likwid {c : Counter} (h : c ∈ takes likwid) : Accepts likwid c := by
  refine ⟨oneCpu, ⟨[0], [0], true, []⟩, 0, Likwid.setupSucceeds, ?_⟩
  cases c <;> first | exact ⟨_, rfl, Nat.zero_lt_one⟩ | (simp [takes] at h)

theorem accepts_x86a {c : Counter} (h : c ∈ takes x86a) : Accepts x86a c := by
  refine ⟨anyLib, anyHost, oneCpu, .invalid, 0, allDeliver, ?_⟩
  cases c <;> first | exact ⟨_, _, rfl⟩ | (simp [takes] at h)

theorem accepts_x86aFam23 {c : Counter} (h : c ∈ takes x86aFam23) : Accepts x86aFam23 c := by
  refine ⟨anyLib, oneCpu, some oneCpu, .invalid, 0, allDeliver, ?_⟩
  cases c <;> first | exact ⟨_, _, rfl⟩ | (simp [takes] at h)

theorem accepts_sysfsFam15 : Accepts sysfsFam15 .pckg :=
  ⟨SysfsFam15.twoNodes, SysfsFam15.twoNodes, SysfsFam15.noFiles, 0, SysfsFam15.twoDevices, _, rfl,
    Nat.zero_lt_one⟩

end Taken

/-- **The `switch` of each source decides** which counter types it takes. -/
theorem accepts_iff (source : AccessSource) (c : Counter) :
    source.Accepts c ↔ c ∈ source.takes := by
  cases source with
  | sysfs => exact iff_of_true (accepts_sysfs c) (by cases c <;> decide)
  | perf =>
      refine ⟨fun h => ?_, accepts_perf⟩
      cases c <;> first | decide | exact absurd h not_accepts_perf
  | msr =>
      refine ⟨fun h => ?_, accepts_msr⟩
      cases c <;> first | decide | exact absurd h not_accepts_msr
  | likwid =>
      refine ⟨fun h => ?_, accepts_likwid⟩
      cases c <;> first | decide | exact absurd h not_accepts_likwid
  | x86a =>
      refine ⟨fun h => ?_, accepts_x86a⟩
      cases c <;> first | decide | exact absurd h (not_accepts_x86a (by decide))
  | sysfsFam15 =>
      refine ⟨fun h => ?_, fun h => ?_⟩
      · cases c <;> first | decide | exact absurd h (not_accepts_sysfsFam15 (by decide))
      · obtain rfl := List.mem_singleton.mp h
        exact accepts_sysfsFam15
  | msrFam23 =>
      refine ⟨fun h => ?_, accepts_msrFam23⟩
      cases c <;> first | decide | exact absurd h (not_accepts_msrFam23 rfl)
  | x86aFam23 =>
      refine ⟨fun h => ?_, accepts_x86aFam23⟩
      cases c <;> first | decide | exact absurd h (not_accepts_x86aFam23 (by decide))

end AccessSource

section Mechanisms

open AccessSource

/-- A counter that a mechanism has, and a source of it that refuses the counter. -/
def RefusedPair (source : AccessSource) (c : Counter) : Prop :=
  (c = .cores ∧ (source = .msrFam23 ∨ source = .x86aFam23)) ∨
    (c = .singleCore ∧ source = .perf) ∨ (c = .platform ∧ source = .x86a)

instance (source : AccessSource) (c : Counter) : Decidable (RefusedPair source c) :=
  inferInstanceAs (Decidable (_ ∨ _ ∨ _))

theorem makeMechanism_some {host : Host} {name : String} {granularities : Counter → Granularity}
    {sources : List (Bool × String)} {m : Mechanism}
    (h : makeMechanism host name granularities sources = some m) :
    m.sourceGranularities = granularities ∧ ∀ s ∈ m.availSources, s ∈ sources.map Prod.snd := by
  unfold makeMechanism at h
  split at h
  · cases h
  · split at h
    · cases h
    · split at h
      · cases h
      · cases h
        refine ⟨rfl, fun s hs => ?_⟩
        obtain ⟨hs, -⟩ := List.mem_filter.mp hs
        obtain ⟨pair, hpair, rfl⟩ := List.mem_map.mp hs
        exact List.mem_map_of_mem (List.mem_filter.mp hpair).1

/-- No Intel processor has the counter of a single core. -/
theorem intelSupported_singleCore {model : Nat} {supported : List Counter}
    (h : intelSupported model = some supported) : Counter.singleCore ∉ supported := by
  unfold intelSupported at h
  repeat' split at h
  all_goals cases h
  all_goals decide

/-- The sources that a mechanism can list, and the counters that it can have. -/
theorem detectMechanism_cases {host : Host} {m : Mechanism} (h : detectMechanism host = some m) :
    (∀ source : AccessSource, source.name ∈ m.availSources →
        source ∈ [.sysfs, .perf, .msr, .likwid, .x86a]) ∧
      (∀ c, m.sourceGranularities c ≠ .size → c ≠ .singleCore) ∨
    (∀ source : AccessSource, source.name ∈ m.availSources → source = .sysfsFam15) ∧
      (∀ c, m.sourceGranularities c ≠ .size → c = .pckg) ∨
    (∀ source : AccessSource, source.name ∈ m.availSources →
        source ∈ [.msrFam23, .sysfs, .perf, .x86aFam23]) ∧
      (∀ c, m.sourceGranularities c ≠ .size → c ∈ [.pckg, .cores, .singleCore]) := by
  unfold detectMechanism at h
  split at h
  · left
    split at h
    · cases h
    · split at h
      · cases h
      · rename_i supported hsupported
        obtain ⟨hgranularities, hsources⟩ := makeMechanism_some h
        refine ⟨fun source hsource => mem_of_name_mem (hsources _ hsource), fun c hc => ?_⟩
        rintro rfl
        rw [hgranularities, intelGranularities, if_neg (intelSupported_singleCore hsupported)] at hc
        exact hc rfl
  · split at h
    · split at h
      · right
        left
        obtain ⟨hgranularities, hsources⟩ := makeMechanism_some h
        refine ⟨fun source hsource => ?_, fun c hc => ?_⟩
        · exact List.mem_singleton.mp (mem_of_name_mem (hsources _ hsource))
        · rw [hgranularities] at hc
          cases c <;> first | rfl | exact absurd rfl hc
      · split at h
        · right
          right
          obtain ⟨hgranularities, hsources⟩ := makeMechanism_some h
          refine ⟨fun source hsource => mem_of_name_mem (hsources _ hsource), fun c hc => ?_⟩
          rw [hgranularities] at hc
          cases c <;> first | decide | exact absurd rfl hc
        · split at h
          · right
            right
            obtain ⟨hgranularities, hsources⟩ := makeMechanism_some h
            refine ⟨fun source hsource => mem_of_name_mem (hsources _ hsource), fun c hc => ?_⟩
            rw [hgranularities] at hc
            cases c <;> first | decide | exact absurd rfl hc
          · cases h
    · cases h

end Mechanisms

end Access
end X86Energy
