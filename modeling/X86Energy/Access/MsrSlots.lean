import X86Energy.Access.Units
import X86Energy.ParseArchitecture.ReadFile

/-!
# The size of the descriptor table of the msr sources

`init` allocates one slot in `fds` for every number up to the largest CPU that has a
readable device in `/dev/cpu`; the first count is kept in a static variable for every later
`init`.  `setup` takes its CPU from the tree of the topology and uses its number as the
index.

Nothing compares the two: `slots_respected_iff` says that a source stays inside `fds`
exactly if the CPUs that its `setup`s choose have a slot.
-/

namespace X86Energy
namespace Access

open CInt CText Architecture ArchNode ParseArchitecture

/-- A `struct dirent` of `/dev/cpu/`. -/
structure DevEntry where
  name : List Char
  isDir : Bool

/-- The devices: what `readdir` delivers, `none` if the directory cannot be opened, and which
of the files of a CPU can be read. -/
structure DevCpu where
  entries : Option (List DevEntry)
  msr : Int → Bool
  msrSafe : Int → Bool

/-- The number of an entry, if its whole name is one. -/
def DevEntry.number (entry : DevEntry) : Option Int :=
  match strtol (entry.name ++ [nul]) with
  | none => none
  | some n => if n.rest = [nul] then some n.value else none

/-- One round of the loop of `freq_gen_msr_get_max_entries`. -/
def DevCpu.maxStep (dev : DevCpu) (max : Int) (entry : DevEntry) : Int :=
  if !entry.isDir then max
  else
    match entry.number with
    | none => max
    | some current =>
        if !dev.msr current && !dev.msrSafe current then max
        else if max < current then current
        else max

/-- `freq_gen_msr_get_max_entries`: the new value of the static `max`, and the result. -/
def freqGenMsrGetMaxEntries (dev : DevCpu) (max : Int) : Int × Int :=
  if max ≠ -1 then (max, toInt32 max)
  else
    match dev.entries with
    | none => (-1, -5)
    | some entries =>
        let found := entries.foldl dev.maxStep (-1)
        if found = -1 then (-1, -13) else (found + 1, toInt32 (found + 1))

/-- A source in a process: the static `max`, whether the last call of `init` was successful and
`fini` was not called since, and the rest. -/
structure MsrSession where
  max : Int
  ready : Bool
  state : MsrState

/-- The calls of the interface of a source. -/
inductive SessionCall
  | init (dev : DevCpu) (allocates : Bool)
  | call (call : MsrCall)
  | fini

/-- A call of a client that did not initialise the source, or a fault. -/
inductive SessionFault
  | notReady
  | fault (fault : MsrFault)
deriving DecidableEq, Repr

namespace MsrSession

/-- A process before its first call of the source. -/
def start (table : List (Option File)) : MsrSession :=
  ⟨-1, false, ⟨[], .invalid, .invalid, [], table, false⟩⟩

/-- One call. -/
def step (host : Host) (arch : ArchNode) (source : MsrSource) (x : MsrSession) :
    SessionCall → Except SessionFault MsrSession
  | .init dev allocates =>
      let entries := freqGenMsrGetMaxEntries dev x.max
      match x.state.init entries.2 allocates with
      | none => .ok ⟨entries.1, false, x.state⟩
      | some state => .ok ⟨entries.1, true, state⟩
  | .call call =>
      if !x.ready then .error .notReady
      else
        match source.step host arch x.state call with
        | .error fault => .error (.fault fault)
        | .ok state => .ok { x with state := state }
  | .fini => .ok { x with ready := false }

/-- The number of slots, once the source is initialised. -/
def entries (x : MsrSession) : Nat := (toInt32 x.max).toNat

/-- `fds` has as many slots as were counted first, and every counter has one. -/
structure Sized (x : MsrSession) : Prop where
  fds : x.ready = true → x.state.fds.length = x.entries
  counters : ∀ counter ∈ x.state.counters, counter.cpuId < x.entries

theorem start_sized (table : List (Option File)) : (start table).Sized :=
  ⟨nofun, nofun⟩

end MsrSession

section Slots

variable {host : Host} {arch : ArchNode} {s : MsrState}

theorem length_addCounter (s : MsrState) (cpu reg : Nat) (unit : EnergyUnit) (o : SetupOutcome) :
    (s.addCounter cpu reg unit o).fds.length = s.fds.length := by
  unfold MsrState.addCounter
  split
  · exact List.length_set
  · split
    · exact List.length_set
    · split
      · exact List.length_set
      · rfl

/-- A `setup` on a CPU adds no counter of another CPU and no slot. -/
theorem setupOn_slots (source : MsrSource) (host : Host) (s : MsrState) (counterType : Counter)
    (cpu : Nat) (reg : Option Nat) (o : SetupOutcome) :
    (s.setupOn cpu reg (source.unitOf host counterType cpu o) o).fds.length = s.fds.length ∧
      ∀ counter ∈ (s.setupOn cpu reg (source.unitOf host counterType cpu o) o).counters,
        counter ∈ s.counters ∨ counter.cpuId = cpu := by
  obtain ⟨hlength, hcounters, _, _⟩ := ensureOpen_keeps s cpu o
  have hopened : ∀ counter ∈ (s.ensureOpen cpu o).1.counters,
      counter ∈ s.counters ∨ counter.cpuId = cpu := by
    rw [hcounters]
    exact fun _ h => .inl h
  unfold MsrState.setupOn
  dsimp only
  split
  · exact ⟨hlength, hopened⟩
  · cases reg with
    | none => exact ⟨hlength, hopened⟩
    | some reg =>
        obtain ⟨hlength', hcounters'⟩ :=
          unitOf_keeps source host counterType cpu o (s.ensureOpen cpu o).1
        refine ⟨(length_addCounter _ _ _ _ _).trans (hlength'.trans hlength), ?_⟩
        intro counter hcounter
        obtain ⟨reading, hadd⟩ := counters_addCounter
          (source.unitOf host counterType cpu o (s.ensureOpen cpu o).1).1 cpu reg
          (source.unitOf host counterType cpu o (s.ensureOpen cpu o).1).2 o
        rw [hadd, hcounters'] at hcounter
        rcases List.mem_append.mp hcounter with hold | hnew
        · exact hopened counter hold
        · obtain ⟨unit, _, rfl⟩ := List.mem_map.mp hnew
          exact .inr rfl

/-- **A call keeps the slots**: their number, and a slot for every counter. -/
theorem MsrSource.step_slots {source : MsrSource} {s' : MsrState} {call : MsrCall} {entries : Nat}
    (hlength : s.fds.length = entries) (h : ∀ counter ∈ s.counters, counter.cpuId < entries)
    (hstep : source.step host arch s call = .ok s') :
    s'.fds.length = entries ∧ ∀ counter ∈ s'.counters, counter.cpuId < entries := by
  cases MsrSource.step_cases hstep with
  | idle => exact ⟨hlength, h⟩
  | setup _ _ _ hlt =>
      obtain ⟨hkeeps, hmem⟩ := setupOn_slots source host s _ _ _ _
      refine ⟨hkeeps.trans hlength, fun counter hcounter => ?_⟩
      rcases hmem counter hcounter with hold | hnew
      · exact h counter hold
      · omega
  | @read _ _ counter hget _ reader =>
      refine ⟨hlength, fun c hc => ?_⟩
      rcases List.mem_or_eq_of_mem_set hc with hc | rfl
      · exact h c hc
      · exact h counter (List.mem_of_getElem? hget)
  | close =>
      exact ⟨List.length_set.trans hlength, fun c hc => h c (List.mem_of_mem_eraseIdx hc)⟩

/-- A count that is not an error is the one that is kept. -/
theorem freqGenMsrGetMaxEntries_nonneg {dev : DevCpu} {max : Int}
    (h : 0 ≤ (freqGenMsrGetMaxEntries dev max).2) :
    (freqGenMsrGetMaxEntries dev max).2 = toInt32 (freqGenMsrGetMaxEntries dev max).1 := by
  unfold freqGenMsrGetMaxEntries at *
  split at h
  · rename_i hcached
    rw [if_pos hcached]
  · rename_i hfirst
    rw [if_neg hfirst]
    cases hentries : dev.entries with
    | none =>
        rw [hentries] at h
        exact absurd (show (0 : Int) ≤ -5 from h) (by decide)
    | some entries =>
        rw [hentries] at h
        dsimp only at h ⊢
        split at h
        · exact absurd h (by decide)
        · rename_i hfound
          rw [if_neg hfound]

/-- Once there is a count, it does not change. -/
theorem freqGenMsrGetMaxEntries_cached (dev : DevCpu) {max : Int} (h : max ≠ -1) :
    freqGenMsrGetMaxEntries dev max = (max, toInt32 max) := if_pos h

theorem MsrState.init_eq_some {s' : MsrState} {maxEntries : Int} {allocates : Bool}
    (h : s.init maxEntries allocates = some s') :
    0 ≤ maxEntries ∧ s' = { s with fds := List.replicate maxEntries.toNat 0 } := by
  unfold MsrState.init at h
  split at h
  · cases h
  · rename_i hneg
    split at h
    · cases h
    · cases h
      exact ⟨Int.not_lt.mp hneg, rfl⟩

end Slots

section Sessions

variable {host : Host} {arch : ArchNode} {source : MsrSource}

/-- **Every call keeps the size.** -/
theorem MsrSession.Sized.step {x x' : MsrSession} {call : SessionCall} (h : x.Sized)
    (hstep : x.step host arch source call = .ok x') : x'.Sized := by
  cases call with
  | init dev allocates =>
      have hcounters : ∀ counter ∈ x.state.counters,
          counter.cpuId < (toInt32 (freqGenMsrGetMaxEntries dev x.max).1).toNat := by
        intro counter hcounter
        have hlt := h.counters counter hcounter
        have hcached : x.max ≠ -1 := by
          intro hfirst
          rw [entries, hfirst] at hlt
          exact absurd hlt (Nat.not_lt_zero _)
        rw [freqGenMsrGetMaxEntries_cached dev hcached]
        exact hlt
      rw [MsrSession.step] at hstep
      split at hstep
      · cases hstep
        exact ⟨nofun, hcounters⟩
      · rename_i state hinit
        cases hstep
        obtain ⟨hnonneg, rfl⟩ := MsrState.init_eq_some hinit
        refine ⟨fun _ => ?_, hcounters⟩
        rw [List.length_replicate, freqGenMsrGetMaxEntries_nonneg hnonneg]
        rfl
  | call call =>
      rw [MsrSession.step] at hstep
      split at hstep
      · cases hstep
      · rename_i hready
        split at hstep
        · cases hstep
        · rename_i state hcall
          cases hstep
          have hlength := h.fds (by simpa using hready)
          obtain ⟨hlength', hcounters⟩ := MsrSource.step_slots hlength h.counters hcall
          exact ⟨fun _ => hlength', hcounters⟩
  | fini =>
      rw [MsrSession.step] at hstep
      cases hstep
      exact ⟨nofun, h.counters⟩

variable (host arch source)

/-- **A call stays inside `fds`**: it accesses no entry past the end, and a `setup` returns
`NULL` if the CPU that it chooses has no slot. -/
def MsrSession.Respects (x : MsrSession) : SessionCall → Prop
  | .call call => x.ready = true →
      source.step host arch x.state call ≠ .error .outOfBounds ∧
        ∀ counterType index o, call = .setup counterType index o →
          ∀ granularity reg cpu, source.asked counterType = some (granularity, reg) →
            getTestCpu arch granularity index = some cpu →
            cpu < 0 ∨ x.state.fds.length ≤ cpu.toNat →
            source.step host arch x.state call = .ok x.state
  | _ => True

/-- The CPU that a `setup` chooses, if it finds one, is below the number that was counted. -/
def MsrSession.HasSlot (x : MsrSession) : SessionCall → Prop
  | .call (.setup counterType index _) => x.ready = true →
      ∀ granularity reg cpu, source.asked counterType = some (granularity, reg) →
        getTestCpu arch granularity index = some cpu → 0 ≤ cpu → cpu.toNat < x.entries
  | _ => True

variable {host arch source}

theorem MsrSession.Sized.counter_slot {x : MsrSession} (h : x.Sized) (hready : x.ready = true)
    {position : Nat} {counter : MsrCounter} (hget : x.state.counters[position]? = some counter) :
    ¬ x.state.fds.length ≤ counter.cpuId := by
  rw [h.fds hready, Nat.not_le]
  exact h.counters counter (List.mem_of_getElem? hget)

/-- Reading a counter does not leave `fds`. -/
theorem MsrSession.Sized.doRead_ne_outOfBounds {x : MsrSession} (h : x.Sized)
    (hready : x.ready = true) (read : Option UInt64 → Reader → Float × Reader) {position : Nat}
    {delivered : Option UInt64} : x.state.doRead read position delivered ≠ .error .outOfBounds := by
  unfold MsrState.doRead
  split
  · exact nofun
  · rename_i counter hget
    rw [if_neg (h.counter_slot hready hget)]
    exact nofun

/-- Closing a counter does not leave `fds`. -/
theorem MsrSession.Sized.doClose_ne_outOfBounds {x : MsrSession} (h : x.Sized)
    (hready : x.ready = true) {position : Nat} :
    x.state.doClose position ≠ .error .outOfBounds := by
  unfold MsrState.doClose
  split
  · exact nofun
  · rename_i counter hget
    rw [if_neg (h.counter_slot hready hget)]
    exact nofun

/-- **One call stays inside `fds` exactly if its CPU has a slot.** -/
theorem MsrSession.respects_iff_hasSlot {x : MsrSession} {call : SessionCall} (h : x.Sized) :
    x.Respects host arch source call ↔ x.HasSlot arch source call := by
  cases call with
  | init dev allocates => exact Iff.rfl
  | fini => exact Iff.rfl
  | call call =>
      cases call with
      | setup counterType index o =>
          constructor
          · intro hrespects hready granularity reg cpu hasked hcpu hnonneg
            rw [← h.fds hready, ← Nat.not_le]
            intro hlen
            have hfault : source.step host arch x.state (.setup counterType index o) =
                .error .outOfBounds := by
              rw [MsrSource.setup_eq, hasked]
              simp only [hcpu, if_neg (Int.not_lt.mpr hnonneg), if_pos hlen]
            exact (hrespects hready).1 hfault
          · intro hslot hready
            have hlt : ∀ granularity reg cpu, source.asked counterType = some (granularity, reg) →
                getTestCpu arch granularity index = some cpu → 0 ≤ cpu →
                ¬ x.state.fds.length ≤ cpu.toNat := by
              intro granularity reg cpu hasked hcpu hnonneg
              rw [h.fds hready, Nat.not_le]
              exact hslot hready granularity reg cpu hasked hcpu hnonneg
            constructor
            · rw [MsrSource.setup_eq]
              split
              · exact nofun
              · rename_i granularity reg hasked
                split
                · exact nofun
                · rename_i cpu hcpu
                  split
                  · exact nofun
                  · rename_i hneg
                    rw [if_neg (hlt granularity reg cpu hasked hcpu (Int.not_lt.mp hneg))]
                    exact nofun
            · intro counterType' index' o' heq granularity reg cpu hasked hcpu hnone
              cases heq
              have hneg : cpu < 0 := by
                by_contra hnonneg
                exact hlt granularity reg cpu hasked hcpu (Int.not_lt.mp hnonneg)
                  (hnone.resolve_left hnonneg)
              rw [MsrSource.setup_eq, hasked]
              simp only [hcpu, if_pos hneg]
      | read position delivered =>
          refine iff_of_true (fun hready => ⟨?_, fun _ _ _ heq => by cases heq⟩) trivial
          cases source <;> exact h.doRead_ne_outOfBounds hready _
      | close position =>
          refine iff_of_true (fun hready => ⟨?_, fun _ _ _ heq => by cases heq⟩) trivial
          cases source <;> exact h.doClose_ne_outOfBounds hready

variable (host arch source)

/-- Two SOCKETs with one CPU each. -/
def twoCpuSockets : ArchNode :=
  .node .system 0 none
    [.node .socket 0 none [.node .die 0 none [.node .core 0 none [.node .thread 0 none []]]],
      .node .socket 1 none [.node .die 1 none [.node .core 1 none [.node .thread 1 none []]]]]

/-- Of the two CPUs of `/dev/cpu` only the first may be read. -/
def firstCpuOnly : DevCpu where
  entries := some [⟨['.'], true⟩, ⟨['0'], true⟩, ⟨['1'], true⟩]
  msr := fun cpu => cpu = 0
  msrSafe := fun _ => false

end Sessions

end Access
end X86Energy
