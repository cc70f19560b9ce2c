import X86Energy.Access.AdvertisedCounters
import X86Energy.Access.MsrSlots
import X86Energy.Architecture.TestCpu

/-!
# The test program on the msr sources

`main` of `test.c` tries each advertised counter for each package: `setup`, some calls of
`read`, and `close`.  So at most one counter is in use, and none of what goes wrong with two
counters of a CPU can happen.

**Result.** `testSource_leaves_table`: whatever the device operations deliver, the program ends
with the descriptors that it started with.
-/

namespace X86Energy
namespace Access

open Architecture ArchNode Descriptors MsrState

/-- What the program does for one counter and one package: what `setup` finds, and what the
calls of `read` get. -/
structure Attempt where
  counterType : Counter
  index : Nat
  outcome : SetupOutcome
  readings : List (Option UInt64)

section Program

variable (host : Host) (arch : ArchNode) (source : MsrSource)

/-- The body of the inner loop; a `setup` that returns `NULL` adds no counter. -/
def tryCounter (s : MsrState) (attempt : Attempt) : Except MsrFault MsrState :=
  match source.step host arch s (.setup attempt.counterType attempt.index attempt.outcome) with
  | .error fault => .error fault
  | .ok s' =>
      if s'.counters.length = s.counters.length then .ok s'
      else
        Transition.run (source.step host arch) s'
          (attempt.readings.map (.read s.counters.length) ++ [.close s.counters.length])

/-- The counters in the order of the outer loop. -/
def allCounters : List Counter := [.pckg, .cores, .dram, .gpu, .platform, .singleCore]

/-- The two loops over the counters and packages. -/
def testAttempts (granularities : Counter → Granularity)
    (outcome : Counter → Nat → SetupOutcome × List (Option UInt64)) : List Attempt :=
  (allCounters.filter fun counterType => granularities counterType ≠ .size).flatMap
    fun counterType =>
      (List.range (archCount (granularities counterType) arch)).map fun package =>
        ⟨counterType, package, (outcome counterType package).1, (outcome counterType package).2⟩

/-- What `main` does with one source; it goes on with the next one if `init` fails. -/
def testSource (x : MsrSession) (dev : DevCpu) (allocates : Bool) (attempts : List Attempt) :
    Except SessionFault MsrSession :=
  match x.step host arch source (.init dev allocates) with
  | .error fault => .error fault
  | .ok x =>
      if !x.ready then .ok x
      else
        match Transition.run (tryCounter host arch source) x.state attempts with
        | .error fault => .error (.fault fault)
        | .ok state => MsrSession.step host arch source { x with state := state } .fini

end Program

section Steps

variable {table : List (Option File)} {slots cpu : Nat} {s : MsrState}

/-- No slot holds a descriptor, and the descriptors of the process are those of a table. -/
structure Idle (table : List (Option File)) (slots : Nat) (s : MsrState) : Prop where
  length : s.fds.length = slots
  closed : ∀ x, s.slot x ≤ 0
  files : ∀ x, fileAt s.table x = fileAt table x
  foreignClosed : s.foreignClosed = false

/-- The slot of a CPU holds a descriptor of its device, and everything else is idle. -/
structure Holding (table : List (Option File)) (slots cpu : Nat) (s : MsrState) : Prop where
  length : s.fds.length = slots
  positive : 0 < s.slot cpu
  closed : ∀ x ≠ cpu, s.slot x ≤ 0
  free : fileAt table (s.slot cpu) = none
  files : ∀ x, fileAt s.table x = if x = s.slot cpu then some (.msr cpu) else fileAt table x
  foreignClosed : s.foreignClosed = false

/-- The source behind `init`. -/
theorem idle_init (table : List (Option File)) (slots : Nat) :
    Idle table slots { (MsrSession.start table).state with fds := List.replicate slots 0 } := by
  refine ⟨List.length_replicate, fun x => ?_, fun _ => rfl, rfl⟩
  unfold slot
  rw [List.getElem?_replicate]
  split <;> exact Int.le_refl 0

theorem Holding.handled (h : Holding table slots cpu s) : s.Handled cpu := by
  unfold Handled
  rw [h.files, if_pos rfl]

/-- Units and counters are not looked at. -/
theorem Holding.congr (h : Holding table slots cpu s) {s' : MsrState} (hfds : s'.fds = s.fds)
    (htable : s'.table = s.table) (hforeign : s'.foreignClosed = s.foreignClosed) :
    Holding table slots cpu s' := by
  have hslot : ∀ x, s'.slot x = s.slot x := by
    intro x
    unfold slot
    rw [hfds]
  refine ⟨(congrArg List.length hfds).trans h.length, ?_, fun x hx => ?_, ?_, fun x => ?_, ?_⟩
  · rw [hslot]
    exact h.positive
  · rw [hslot]
    exact h.closed x hx
  · rw [hslot]
    exact h.free
  · rw [hslot, htable]
    exact h.files x
  · rw [hforeign]
    exact h.foreignClosed

/-- The device is opened, or the source stays idle. -/
theorem Idle.ensureOpen (h : Idle table slots s) (hcpu : cpu < slots)
    (hstdin : fileAt table 0 ≠ none) (o : SetupOutcome) :
    (s.ensureOpen cpu o).1.counters = s.counters ∧
      (((s.ensureOpen cpu o).2 = false ∧ Idle table slots (s.ensureOpen cpu o).1) ∨
        ((s.ensureOpen cpu o).2 = true ∧ Holding table slots cpu (s.ensureOpen cpu o).1)) := by
  have hlt : cpu < s.fds.length := by rw [h.length]; exact hcpu
  unfold MsrState.ensureOpen
  rw [if_pos (h.closed cpu)]
  unfold openDevice
  split
  · refine ⟨rfl, .inr ⟨rfl, ?_⟩⟩
    have hslot : ((s.fds.set cpu (lowestFree s.table))[cpu]?).getD 0 =
        (lowestFree s.table : Int) := slot_set_self hlt _
    have hfree : fileAt table (lowestFree s.table) = none := by
      rw [← h.files, fileAt_lowestFree]
    have hpos : (0 : Int) < lowestFree s.table := by
      have hne : (lowestFree s.table : Int) ≠ 0 := by
        intro hzero
        rw [hzero] at hfree
        exact hstdin hfree
      omega
    refine ⟨?_, ?_, fun x hx => ?_, ?_, fun x => ?_, h.foreignClosed⟩
    · exact (List.length_set ..).trans h.length
    · exact lt_of_lt_of_eq hpos hslot.symm
    · exact le_of_eq_of_le (slot_set_ne hx _) (h.closed x)
    · exact (congrArg (fileAt table) hslot).trans hfree
    · unfold slot
      rw [hslot, fileAt_openFile, h.files]
  · refine ⟨rfl, .inl ⟨rfl, ?_, fun x => ?_, h.files, h.foreignClosed⟩⟩
    · exact (List.length_set ..).trans h.length
    · by_cases hx : x = cpu
      · have hslot : ((s.fds.set cpu (-1))[cpu]?).getD 0 = -1 := slot_set_self hlt _
        unfold slot
        rw [hx, hslot]
        decide
      · exact le_of_eq_of_le (slot_set_ne hx _) (h.closed x)

/-- Closing the slot leaves the descriptors as they were. -/
theorem Holding.closeSlot (h : Holding table slots cpu s) (hcpu : cpu < slots) :
    Idle table slots (s.closeSlot cpu 0) := by
  have hlt : cpu < s.fds.length := by rw [h.length]; exact hcpu
  have hhandled : fileAt s.table (s.slot cpu) = some (.msr cpu) := h.handled
  refine ⟨(List.length_set ..).trans h.length, fun x => ?_, fun x => ?_, ?_⟩
  · by_cases hx : x = cpu
    · have hslot : ((s.fds.set cpu 0)[cpu]?).getD 0 = 0 := slot_set_self hlt _
      unfold slot MsrState.closeSlot
      rw [hx, hslot]
    · exact le_of_eq_of_le (slot_set_ne hx _) (h.closed x hx)
  · unfold MsrState.closeSlot
    rw [fileAt_closeFile]
    by_cases hx : x = s.slot cpu
    · rw [if_pos hx, hx, h.free]
    · rw [if_neg hx, h.files, if_neg hx]
  · simp [MsrState.closeSlot, h.foreignClosed, hhandled]

/-- With a positive slot the unit is read without opening anything. -/
theorem getDefaultUnit_state (hpos : 0 < s.slot cpu) (o : SetupOutcome) :
    ∃ unit, (s.getDefaultUnit cpu o).1 = { s with defaultUnit := unit } := by
  have hslot : ¬ s.slot cpu ≤ 0 := by omega
  unfold getDefaultUnit
  split
  · exact ⟨_, rfl⟩
  · simp only [if_neg hslot, Bool.not_true, Bool.false_eq_true, if_false]
    split
    · exact ⟨_, rfl⟩
    · exact ⟨_, rfl⟩

theorem unitOf_state (source : MsrSource) (host : Host) (hpos : 0 < s.slot cpu)
    (counterType : Counter) (o : SetupOutcome) :
    ∃ unit dramUnit, (source.unitOf host counterType cpu o s).1 =
      { s with defaultUnit := unit, dramUnit := dramUnit } := by
  obtain ⟨unit, hunit⟩ := getDefaultUnit_state hpos o
  have hdefault : ∃ unit dramUnit, (s.getDefaultUnit cpu o).1 =
      { s with defaultUnit := unit, dramUnit := dramUnit } := ⟨unit, _, hunit⟩
  cases source with
  | raplFam23 => exact hdefault
  | rapl =>
      unfold MsrSource.unitOf
      dsimp only
      split
      · unfold getDramUnit
        split
        · exact ⟨_, _, rfl⟩
        · split
          · exact ⟨_, _, rfl⟩
          · split
            · exact ⟨_, _, rfl⟩
            · exact ⟨unit, (s.getDefaultUnit cpu o).2, by simp only [hunit]⟩
      · exact hdefault

/-- What the end of `setup` does to the device that is open. -/
theorem Holding.addCounter (h : Holding table slots cpu s) (hcpu : cpu < slots) (reg : Nat)
    (unit : EnergyUnit) (o : SetupOutcome) :
    (Idle table slots (s.addCounter cpu reg unit o) ∧
        (s.addCounter cpu reg unit o).counters = s.counters) ∨
      (Holding table slots cpu (s.addCounter cpu reg unit o) ∧ ∃ counter : MsrCounter,
        counter.cpuId = cpu ∧
          (s.addCounter cpu reg unit o).counters = s.counters ++ [counter]) := by
  have hidle := h.closeSlot hcpu
  unfold MsrState.addCounter
  split
  · exact .inl ⟨hidle, rfl⟩
  · split
    · exact .inl ⟨hidle, rfl⟩
    · split
      · exact .inl ⟨hidle, rfl⟩
      · exact .inr ⟨h.congr rfl rfl rfl, _, rfl, rfl⟩

/-- A `setup` with a register stays idle or holds the device of a new counter. -/
theorem Idle.setupOn {source : MsrSource} {host : Host} (h : Idle table slots s)
    (hcpu : cpu < slots) (hstdin : fileAt table 0 ≠ none) (reg : Nat) (counterType : Counter)
    (o : SetupOutcome) {s' : MsrState}
    (heq : s' = s.setupOn cpu (some reg) (source.unitOf host counterType cpu o) o) :
    (Idle table slots s' ∧ s'.counters = s.counters) ∨
      (Holding table slots cpu s' ∧ ∃ counter : MsrCounter,
        counter.cpuId = cpu ∧ s'.counters = s.counters ++ [counter]) := by
  obtain ⟨hcounters, hopened⟩ := h.ensureOpen hcpu hstdin o
  rw [heq]
  unfold MsrState.setupOn
  rcases hopened with ⟨hfail, hidle⟩ | ⟨hok, hholding⟩
  · simp only [hfail, Bool.not_false, if_true]
    exact .inl ⟨hidle, hcounters⟩
  · simp only [hok, Bool.not_true, Bool.false_eq_true, if_false]
    obtain ⟨unit, dramUnit, hunit⟩ := unitOf_state source host hholding.positive counterType o
    rw [hunit]
    generalize (s.ensureOpen cpu o).1 = s₁ at hcounters hholding
    have hunits : Holding table slots cpu { s₁ with defaultUnit := unit, dramUnit := dramUnit } :=
      hholding.congr rfl rfl rfl
    rw [← hcounters]
    exact hunits.addCounter hcpu reg _ o

/-- A read replaces the reader of the counter. -/
theorem Holding.read (source : MsrSource) (host : Host) (arch : ArchNode)
    (h : Holding table slots cpu s) (hcpu : cpu < slots) {counter : MsrCounter}
    (hcounter : counter.cpuId = cpu) (hcounters : s.counters = [counter])
    (reading : Option UInt64) :
    ∃ s', source.step host arch s (.read 0 reading) = .ok s' ∧ Holding table slots cpu s' ∧
      ∃ counter : MsrCounter, counter.cpuId = cpu ∧ s'.counters = [counter] := by
  have hread : ∀ read, ∃ s', s.doRead read 0 reading = .ok s' ∧ Holding table slots cpu s' ∧
      ∃ counter : MsrCounter, counter.cpuId = cpu ∧ s'.counters = [counter] := by
    intro read
    have hlt : ¬ s.fds.length ≤ counter.cpuId := by
      rw [h.length, hcounter]
      omega
    let counter' : MsrCounter :=
      { counter with toReader := (read (s.pread counter.cpuId reading) counter.toReader).2 }
    have heq : s.doRead read 0 reading = .ok { s with counters := [counter'] } := by
      rw [doRead, hcounters, List.getElem?_cons_zero]
      exact if_neg hlt
    exact ⟨_, heq, h.congr rfl rfl rfl, counter', hcounter, rfl⟩
  cases source with
  | rapl => exact hread _
  | raplFam23 => exact hread _

theorem Holding.close (source : MsrSource) (host : Host) (arch : ArchNode)
    (h : Holding table slots cpu s) (hcpu : cpu < slots) {counter : MsrCounter}
    (hcounter : counter.cpuId = cpu) (hcounters : s.counters = [counter]) :
    ∃ s', source.step host arch s (.close 0) = .ok s' ∧ Idle table slots s' ∧ s'.counters = [] := by
  have hlt : ¬ s.fds.length ≤ counter.cpuId := by
    rw [h.length, hcounter]
    omega
  have hidle := h.closeSlot hcpu
  have hclose : s.doClose 0 = .ok { s.closeSlot counter.cpuId 0 with counters := [] } := by
    rw [doClose, hcounters, List.getElem?_cons_zero]
    exact if_neg hlt
  rw [hcounter] at hclose
  have hend : Idle table slots { s.closeSlot cpu 0 with counters := [] } :=
    ⟨hidle.length, hidle.closed, hidle.files, hidle.foreignClosed⟩
  cases source with
  | rapl => exact ⟨_, hclose, hend, rfl⟩
  | raplFam23 => exact ⟨_, hclose, hend, rfl⟩

/-- The calls of `read` and the `close` behind a successful `setup`. -/
theorem Holding.run (source : MsrSource) (host : Host) (arch : ArchNode)
    (readings : List (Option UInt64)) :
    ∀ {s : MsrState} {counter : MsrCounter}, Holding table slots cpu s → cpu < slots →
      counter.cpuId = cpu → s.counters = [counter] →
      ∃ s', Transition.run (source.step host arch) s
          (readings.map (.read 0) ++ [.close 0]) = .ok s' ∧
        Idle table slots s' ∧ s'.counters = [] := by
  induction readings with
  | nil =>
      intro s counter h hcpu hcounter hcounters
      obtain ⟨s', hclose, hend⟩ := h.close source host arch hcpu hcounter hcounters
      exact ⟨s', Transition.run_cons_ok hclose [], hend⟩
  | cons reading readings ih =>
      intro s counter h hcpu hcounter hcounters
      obtain ⟨s₁, hread, h₁, counter₁, hcounter₁, hcounters₁⟩ :=
        h.read source host arch hcpu hcounter hcounters reading
      obtain ⟨s', hrun, hend⟩ := ih h₁ hcpu hcounter₁ hcounters₁
      exact ⟨s', by rw [List.map_cons, List.cons_append, Transition.run_cons_ok hread, hrun], hend⟩

end Steps

section Loops

variable {host : Host} {arch : ArchNode} {source : MsrSource} {table : List (Option File)}
variable {slots : Nat}

/-- The counter type is not one that the source refuses with the device open. -/
def Takes (source : MsrSource) (counterType : Counter) : Prop :=
  ∀ granularity reg, source.asked counterType = some (granularity, reg) → reg ≠ none

/-- `get_test_cpu` returns a CPU of the tree or -1. -/
theorem getTestCpu_lt (hpopulated : arch.Populated) (hslots : ∀ cpu ∈ arch.threads, cpu < slots)
    (granularity : Granularity) (index : Nat) :
    ∃ cpu, getTestCpu arch granularity index = some cpu ∧ cpu < slots := by
  by_cases hid : ∃ x ∈ arch.preorder, x.granularity = granularity ∧ CInt.toSize x.id = index
  · obtain ⟨-, -, -, -, cpu, hcpu, -, hmem⟩ := getTestCpu_spec hpopulated hid
    exact ⟨cpu, hcpu, hslots cpu hmem⟩
  · exact ⟨-1, getTestCpu_missing hid, by omega⟩

/-- **Each attempt ends where it began**: idle and without a counter. -/
theorem tryCounter_idle (hstdin : fileAt table 0 ≠ none) (hpopulated : arch.Populated)
    (hslots : ∀ cpu ∈ arch.threads, cpu < slots) {s : MsrState} (h : Idle table slots s)
    (hcounters : s.counters = []) {attempt : Attempt}
    (htakes : Takes source attempt.counterType) :
    ∃ s', tryCounter host arch source s attempt = .ok s' ∧ Idle table slots s' ∧
      s'.counters = [] := by
  unfold tryCounter
  rw [MsrSource.setup_eq]
  cases hasked : source.asked attempt.counterType with
  | none => exact ⟨s, if_pos rfl, h, hcounters⟩
  | some asked =>
      obtain ⟨granularity, reg⟩ := asked
      obtain ⟨reg, rfl⟩ := Option.ne_none_iff_exists'.mp (htakes _ _ hasked)
      obtain ⟨cpu, hcpu, hlt⟩ := getTestCpu_lt hpopulated hslots granularity attempt.index
      simp only [hcpu]
      by_cases hneg : cpu < 0
      · rw [if_pos hneg]
        exact ⟨s, if_pos rfl, h, hcounters⟩
      · have hslot : cpu.toNat < slots := by omega
        simp only [if_neg hneg, if_neg (show ¬ s.fds.length ≤ cpu.toNat by rw [h.length]; omega)]
        generalize hs' : s.setupOn cpu.toNat (some reg)
          (source.unitOf host attempt.counterType cpu.toNat attempt.outcome) attempt.outcome = s'
        rcases h.setupOn hslot hstdin reg attempt.counterType attempt.outcome hs'.symm with
          ⟨hidle, hsame⟩ | ⟨hholding, counter, hcounter, hadded⟩
        · rw [hsame, if_pos rfl]
          exact ⟨s', rfl, hidle, hsame.trans hcounters⟩
        · rw [hcounters] at hadded ⊢
          rw [if_neg (by simp [hadded])]
          exact hholding.run source host arch attempt.readings hslot hcounter hadded

/-- The loops over the counters and packages. -/
theorem testLoops_idle (hstdin : fileAt table 0 ≠ none) (hpopulated : arch.Populated)
    (hslots : ∀ cpu ∈ arch.threads, cpu < slots) {s : MsrState} (h : Idle table slots s)
    (hcounters : s.counters = []) {attempts : List Attempt}
    (htakes : ∀ attempt ∈ attempts, Takes source attempt.counterType) :
    ∃ s', Transition.run (tryCounter host arch source) s attempts = .ok s' ∧
      Idle table slots s' ∧ s'.counters = [] :=
  Transition.run_ok_of_meets (G := fun _ _ => True)
    (I := fun s => Idle table slots s ∧ s.counters = [])
    (fun _ attempt hattempt hs _ =>
      tryCounter_idle hstdin hpopulated hslots hs.1 hs.2 (htakes attempt hattempt))
    ⟨h, hcounters⟩ (Transition.Meets.of_forall (fun _ _ => trivial) s attempts)

theorem mem_testAttempts {granularities : Counter → Granularity}
    {outcome : Counter → Nat → SetupOutcome × List (Option UInt64)} {attempt : Attempt}
    (h : attempt ∈ testAttempts arch granularities outcome) :
    granularities attempt.counterType ≠ .size := by
  obtain ⟨counterType, hcounter, hattempt⟩ := List.mem_flatMap.mp h
  obtain ⟨package, -, rfl⟩ := List.mem_map.mp hattempt
  simpa using (List.mem_filter.mp hcounter).2

/-- The name under which a mechanism lists a source. -/
def MsrSource.listed : MsrSource → AccessSource
  | rapl => .msr
  | raplFam23 => .msrFam23

/-- No source refuses an advertised counter with the device open. -/
theorem takes_of_advertised {m : Mechanism} (hmechanism : detectMechanism host = some m)
    (hsource : source.listed.name ∈ m.availSources) {counterType : Counter}
    (hadvertised : m.sourceGranularities counterType ≠ .size) : Takes source counterType := by
  intro granularity reg hasked
  cases source with
  | raplFam23 =>
      obtain ⟨chosen, -, heq⟩ := Option.map_eq_some_iff.mp hasked
      cases heq
      simp
  | rapl =>
      cases hasked
      have hcore : counterType ≠ .singleCore := by
        rcases detectMechanism_cases hmechanism with ⟨-, hcounters⟩ | ⟨hsources, -⟩ | ⟨hsources, -⟩
        · exact hcounters counterType hadvertised
        · exact absurd (hsources .msr hsource) (by decide)
        · exact absurd (hsources .msr hsource) (by decide)
      cases counterType <;> first | exact absurd rfl hcore | simp [Msr.register]

/-- **The test program leaves the descriptors as it found them**, whatever the device operations
of an msr source deliver, on a tree in which every node but a THREAD has a child: it accesses no
entry past the end of `fds`, closes nothing of others and leaves no device open. -/
theorem testSource_leaves_table {m : Mechanism} (hmechanism : detectMechanism host = some m)
    (hsource : source.listed.name ∈ m.availSources) (hpopulated : arch.Populated) (dev : DevCpu)
    (hslots : ∀ cpu ∈ arch.threads, cpu < (freqGenMsrGetMaxEntries dev (-1)).2)
    (hstdin : fileAt table 0 ≠ none) (allocates : Bool)
    (outcome : Counter → Nat → SetupOutcome × List (Option UInt64)) :
    ∃ x, testSource host arch source (MsrSession.start table) dev allocates
        (testAttempts arch m.sourceGranularities outcome) = .ok x ∧
      x.state.counters = [] ∧ x.state.foreignClosed = false ∧
      ∀ fd, fileAt x.state.table fd = fileAt table fd := by
  have htakes : ∀ attempt ∈ testAttempts arch m.sourceGranularities outcome,
      Takes source attempt.counterType :=
    fun attempt hattempt => takes_of_advertised hmechanism hsource (mem_testAttempts hattempt)
  have hslots' : ∀ cpu ∈ arch.threads, cpu < (freqGenMsrGetMaxEntries dev (-1)).2.toNat := by
    intro cpu hcpu
    have := hslots cpu hcpu
    omega
  have hfirst : (MsrSession.start table).max = -1 := rfl
  unfold testSource
  rw [MsrSession.step, hfirst]
  cases hinit : (MsrSession.start table).state.init (freqGenMsrGetMaxEntries dev (-1)).2
      allocates with
  | none => exact ⟨_, rfl, rfl, rfl, fun _ => rfl⟩
  | some state =>
      obtain ⟨-, rfl⟩ := MsrState.init_eq_some hinit
      obtain ⟨s', hrun, hidle, hcounters⟩ := testLoops_idle hstdin hpopulated hslots'
        (idle_init table _) rfl htakes
      simp only [Bool.not_true, Bool.false_eq_true, if_false]
      rw [hrun]
      exact ⟨_, rfl, hcounters, hidle.foreignClosed, hidle.files⟩

/-- Both CPUs of `/dev/cpu` may be read. -/
def bothCpus : DevCpu where
  entries := some [⟨['.'], true⟩, ⟨['0'], true⟩, ⟨['1'], true⟩]
  msr := fun cpu => cpu = 0 ∨ cpu = 1
  msrSafe := fun _ => false

/-- The program on two SOCKETs of family 17h, where every operation succeeds. -/
theorem testSource_leaves_table_family17h :
    ∃ m x, detectMechanism family17h = some m ∧
      testSource family17h twoCpuSockets .raplFam23
          (MsrSession.start [some .foreign, some .foreign, some .foreign]) bothCpus true
          (testAttempts twoCpuSockets m.sourceGranularities fun _ _ =>
            (allSucceed, [some 0x10, some 0x20])) = .ok x ∧
      x.state.counters = [] ∧ x.state.foreignClosed = false ∧
      ∀ fd, fileAt x.state.table fd =
        fileAt [some File.foreign, some File.foreign, some File.foreign] fd := by
  obtain ⟨m, hm, hsource⟩ : ∃ m, detectMechanism family17h = some m ∧
      (MsrSource.listed .raplFam23).name ∈ m.availSources := ⟨_, rfl, by decide⟩
  have hpopulated : twoCpuSockets.Populated := by
    simp [twoCpuSockets, Populated, preorder, preorderAll]
  obtain ⟨x, hx⟩ := testSource_leaves_table hm hsource hpopulated bothCpus (by decide)
    (show fileAt [some .foreign, some .foreign, some .foreign] 0 ≠ none by decide) true
    fun _ _ => (allSucceed, [some 0x10, some 0x20])
  exact ⟨m, x, hm, hx⟩

end Loops

end Access
end X86Energy
