import X86Energy.Access.DoRead
import X86Energy.Architecture.Mechanism
import X86Energy.Library.Descriptors

/-!
# The msr sources

`msr-rapl` and `msr-rapl-fam23` read the registers of a CPU through its device file.
They keep one descriptor for each CPU, in `fds`, which all counters of the CPU share:
`setup` opens it when the slot is not positive, and `do_close` and the error paths of
`setup` close it and write 0 into the slot.

A call carries what its device operations deliver.  The state has the descriptors of
the whole process: 0 is usually its standard input.
-/

namespace X86Energy
namespace Access

open Architecture ArchNode Descriptors

/-- What a descriptor of the process refers to: the msr device of a CPU that the source
opened, or something that other code opened. -/
inductive File
  | msr (cpu : Nat)
  | foreign
deriving DecidableEq, Repr

/-- `struct reader_def` of these sources. -/
structure MsrCounter extends Reader where
  cpuId : Nat
  reg : Nat

/-- The static variables of a source, the counters that are set up and not closed, and
the descriptors of the process.  `foreignClosed` records that the source closed a
descriptor that it did not open. -/
structure MsrState where
  fds : List Int
  defaultUnit : EnergyUnit
  dramUnit : EnergyUnit
  counters : List MsrCounter
  table : List (Option File)
  foreignClosed : Bool

/-- What the device operations of one `setup` deliver, should it come to them. -/
structure SetupOutcome where
  opensMsr : Bool
  opensMsrSafe : Bool
  unitOpensMsr : Bool
  unitOpensMsrSafe : Bool
  unitRegister : Option UInt64
  register : Option UInt64
  allocates : Bool
  startsThread : Bool

/-- Undefined behaviour: the children of a node that has none, or an entry past the end
of `fds`. -/
inductive MsrFault
  | missingChild
  | outOfBounds
deriving DecidableEq, Repr

namespace MsrState

/-- `fds[cpu]`. -/
def slot (s : MsrState) (cpu : Nat) : Int := (s.fds[cpu]?).getD 0

/-- `open` of `msr`, or else of `msr_safe`, into the slot. -/
def openDevice (s : MsrState) (cpu : Nat) (msr msrSafe : Bool) : MsrState × Bool :=
  if msr || msrSafe then
    ({ s with
        fds := s.fds.set cpu (lowestFree s.table)
        table := openFile s.table (.msr cpu) }, true)
  else ({ s with fds := s.fds.set cpu (-1) }, false)

/-- `pread` of 8 bytes from the slot, if the descriptor is open and delivers them. -/
def pread (s : MsrState) (cpu : Nat) (delivered : Option UInt64) : Option UInt64 :=
  match fileAt s.table (s.slot cpu) with
  | none => none
  | some _ => delivered

/-- `close(fds[cpu])`, then the slot is written. -/
def closeSlot (s : MsrState) (cpu : Nat) (value : Int) : MsrState :=
  { s with
    fds := s.fds.set cpu value
    table := closeFile s.table (s.slot cpu)
    foreignClosed := s.foreignClosed || fileAt s.table (s.slot cpu) = some .foreign }

/-- `get_default_unit`. -/
def getDefaultUnit (s : MsrState) (cpu : Nat) (o : SetupOutcome) : MsrState × EnergyUnit :=
  if s.defaultUnit.positive then (s, s.defaultUnit)
  else
    let alreadyOpened := s.slot cpu
    let opened :=
      if alreadyOpened ≤ 0 then s.openDevice cpu o.unitOpensMsr o.unitOpensMsrSafe else (s, true)
    if !opened.2 then (opened.1, .invalid)
    else
      let result := opened.1.pread cpu o.unitRegister
      let closed := if alreadyOpened ≤ 0 then opened.1.closeSlot cpu (-1) else opened.1
      match result with
      | none => (closed, .invalid)
      | some modifier =>
          let unit := EnergyUnit.power ((modifier &&& 0x1F00) >>> 8).toNat
          ({ closed with defaultUnit := unit }, unit)

/-- `get_dram_unit`. -/
def getDramUnit (host : Host) (s : MsrState) (cpu : Nat) (o : SetupOutcome) :
    MsrState × EnergyUnit :=
  if s.dramUnit.positive then (s, s.dramUnit)
  else if host.baseFamily ≠ 6 then (s, .zero)
  else if host.extModel <<< 4 + host.baseModel ∈ [0x3f, 0x4e, 0x55] then
    ({ s with dramUnit := .power 16 }, .power 16)
  else
    let default := s.getDefaultUnit cpu o
    ({ default.1 with dramUnit := default.2 }, default.2)

/-- The end of `setup`: the first reading, the counter and its overflow thread. -/
def addCounter (s : MsrState) (cpu reg : Nat) (unit : EnergyUnit) (o : SetupOutcome) :
    MsrState :=
  match s.pread cpu o.register with
  | none => s.closeSlot cpu 0
  | some reading =>
      if !o.allocates then s.closeSlot cpu 0
      else if !o.startsThread then s.closeSlot cpu 0
      else
        { s with counters := s.counters ++ [⟨⟨reading, unit.toFloat⟩, cpu, reg⟩] }

/-- The part of `setup` that opens the device if the slot is not positive. -/
def ensureOpen (s : MsrState) (cpu : Nat) (o : SetupOutcome) : MsrState × Bool :=
  if s.slot cpu ≤ 0 then s.openDevice cpu o.opensMsr o.opensMsrSafe else (s, true)

/-- `setup` from the point where the CPU is known: `unitOf` is the function for the unit,
and `reg` is `none` for a counter type that is refused after the device was opened. -/
def setupOn (s : MsrState) (cpu : Nat) (reg : Option Nat)
    (unitOf : MsrState → MsrState × EnergyUnit) (o : SetupOutcome) : MsrState :=
  let opened := s.ensureOpen cpu o
  if !opened.2 then opened.1
  else
    match reg with
    | none => opened.1
    | some reg =>
        let unit := unitOf opened.1
        unit.1.addCounter cpu reg unit.2 o

end MsrState

/-- The registers of `msr-rapl`. -/
def Msr.register : Counter → Option Nat
  | .pckg => some 0x611
  | .cores => some 0x639
  | .dram => some 0x619
  | .gpu => some 0x641
  | .platform => some 0x64D
  | .singleCore => none

/-- `setup` of `msr-rapl`, which looks at the counter type after it opened the device. -/
def Msr.setup (host : Host) (arch : ArchNode) (s : MsrState) (counterType : Counter)
    (index : Nat) (o : SetupOutcome) : Except MsrFault MsrState :=
  match getTestCpu arch .socket index with
  | none => .error .missingChild
  | some cpu =>
      if cpu < 0 then .ok s
      else if s.fds.length ≤ cpu.toNat then .error .outOfBounds
      else
        let unitOf := fun s : MsrState =>
          if counterType = .dram then s.getDramUnit host cpu.toNat o
          else s.getDefaultUnit cpu.toNat o
        .ok (s.setupOn cpu.toNat (Msr.register counterType) unitOf o)

/-- The levels and registers of `msr-rapl-fam23`. -/
def MsrFam23.register : Counter → Option (Granularity × Nat)
  | .pckg => some (.socket, 0xC001029B)
  | .singleCore => some (.core, 0xC001029A)
  | _ => none

/-- `setup` of `msr-rapl-fam23`, which looks at the counter type first. -/
def MsrFam23.setup (arch : ArchNode) (s : MsrState) (counterType : Counter) (index : Nat)
    (o : SetupOutcome) : Except MsrFault MsrState :=
  match MsrFam23.register counterType with
  | none => .ok s
  | some (granularity, reg) =>
      match getTestCpu arch granularity index with
      | none => .error .missingChild
      | some cpu =>
          if cpu < 0 then .ok s
          else if s.fds.length ≤ cpu.toNat then .error .outOfBounds
          else
            let unitOf := fun s : MsrState => s.getDefaultUnit cpu.toNat o
            .ok (s.setupOn cpu.toNat (some reg) unitOf o)

/-- `do_close`: the counter at a position of the list of counters. -/
def MsrState.doClose (s : MsrState) (position : Nat) : Except MsrFault MsrState :=
  match s.counters[position]? with
  | none => .ok s
  | some counter =>
      if s.fds.length ≤ counter.cpuId then .error .outOfBounds
      else .ok { s.closeSlot counter.cpuId 0 with counters := s.counters.eraseIdx position }

/-- `do_read` on the counter at a position, with the function of the source. -/
def MsrState.doRead (read : Option UInt64 → Reader → Float × Reader) (s : MsrState)
    (position : Nat) (delivered : Option UInt64) : Except MsrFault MsrState :=
  match s.counters[position]? with
  | none => .ok s
  | some counter =>
      if s.fds.length ≤ counter.cpuId then .error .outOfBounds
      else
        let reader := (read (s.pread counter.cpuId delivered) counter.toReader).2
        .ok { s with counters := s.counters.set position { counter with toReader := reader } }

/-- `init`: `maxEntries` is what `freq_gen_msr_get_max_entries` returns; `none` is a
failure. -/
def MsrState.init (s : MsrState) (maxEntries : Int) (allocates : Bool) : Option MsrState :=
  if maxEntries < 0 then none
  else if !allocates then none
  else some { s with fds := List.replicate maxEntries.toNat 0 }

/-- The two sources. -/
inductive MsrSource
  | rapl
  | raplFam23

/-- A call of a client. -/
inductive MsrCall
  | setup (counterType : Counter) (index : Nat) (outcome : SetupOutcome)
  | read (position : Nat) (delivered : Option UInt64)
  | close (position : Nat)

/-- One call. -/
def MsrSource.step (host : Host) (arch : ArchNode) :
    MsrSource → MsrState → MsrCall → Except MsrFault MsrState
  | rapl, s, .setup counterType index outcome => Msr.setup host arch s counterType index outcome
  | rapl, s, .read position delivered => s.doRead Msr.doRead position delivered
  | rapl, s, .close position => s.doClose position
  | raplFam23, s, .setup counterType index outcome =>
      MsrFam23.setup arch s counterType index outcome
  | raplFam23, s, .read position delivered => s.doRead MsrFam23.doRead position delivered
  | raplFam23, s, .close position => s.doClose position

end Access
end X86Energy
