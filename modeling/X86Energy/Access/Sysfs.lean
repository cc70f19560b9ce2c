import X86Energy.Architecture.Mechanism
import X86Energy.Library.Search
import X86Energy.ParseArchitecture.ReadFile

/-!
# The sysfs source

`setup` of `sysfs-powercap-rapl` scans `/sys/class/powercap` from its last entry to its
first for the zone of a package and a counter.  A zone is a directory
`intel-rapl:<N>`, with a file `name` that names a package, or `intel-rapl:<N>:<M>`.

The parent of an entry is looked up by the number in its name.
-/

namespace X86Energy
namespace Access

open CInt CText Architecture ArchNode
open ParseArchitecture (nul)
open Search (Verdict)

/-- What `fopen` and `fscanf` deliver for a file `max_energy_range_uj`. -/
inductive MaxFile
  | cannotOpen
  | noNumber
  | empty
  | value (max : Int)

/-- The directory `/sys/class/powercap`: the list of `scandir`, and the files `name`,
`energy_uj` and `max_energy_range_uj` of each directory in it. -/
structure Powercap where
  namelist : List (List Char)
  nameFile : List Char → Option (List Char)
  energyOpens : List Char → Bool
  maxFile : List Char → MaxFile

/-- Undefined behaviour: the children of a node that has none, the newline of an empty
line, or a number that was not read. -/
inductive SysfsFault
  | missingChild
  | emptyLine
  | uninitialized
deriving DecidableEq, Repr

/-- The part of `struct reader_def` that `setup` fills in; `zone` is the directory of the
file `fp`. -/
structure SysfsCounter where
  zone : List Char
  package : Int
  cpu : Int
  lastReading : Int
  overflow : Int
  max : Int

/-- What the operations of `setup` before and after the scan deliver. -/
structure SysfsOutcome where
  opensDir : Bool
  reading : Option Int
  seeks : Bool
  flushes : Bool
  startsThread : Bool

namespace Sysfs

/-- `sysfs_names`. -/
def sysfsNames : Counter → List Char
  | .pckg => "package".toList
  | .cores => "core".toList
  | .dram => "dram".toList
  | .gpu => "uncore".toList
  | .platform => "psys".toList
  | .singleCore => "core".toList

def zonePrefix : List Char := "intel-rapl:".toList

/-- The number that `sscanf` with `"intel-rapl:%d:%d"` reads first, if it reads any. -/
def scanZone (dName : List Char) : Option Int :=
  if zonePrefix <+: dName then
    match strtol (dName.drop zonePrefix.length ++ [nul]) with
    | none => none
    | some package => if package.converted then some (toInt32 package.value) else none
  else none

/-- `getline`: the first line with its newline. -/
def getline (content : List Char) : List Char :=
  content.takeWhile (· ≠ '\n') ++ if '\n' ∈ content then ['\n'] else []

/-- A file `name` after `fopen`, `getline` and the removal of the newline; `none` is a
file that ends the scan. -/
def readName : Option (List Char) → Except SysfsFault (Option (List Char))
  | none => .ok none
  | some content =>
      if content = [] then .ok none
      else
        let buffer := (getline content).takeWhile (· ≠ nul)
        if buffer = [] then .error .emptyLine else .ok (some buffer.dropLast)

def packageText : List Char := "package".toList

/-- `strtol(&buffer[8], NULL, 10)`: the newline was overwritten by a NUL, and another one
follows. -/
def scanPackage (buffer : List Char) : Option Strtol := strtol ((buffer ++ [nul, nul]).drop 8)

/-- The end of a round for a zone of the wanted package, with the text of its own name. -/
def judgeZone (dir : Powercap) (name dName buffer : List Char) :
    Except SysfsFault (Verdict Int) :=
  let buffer := if packageText <+: buffer then packageText else buffer
  if name ≠ buffer then .ok .next
  else if !dir.energyOpens dName then .ok .stop
  else
    match dir.maxFile dName with
    | .cannotOpen => .ok (.found (-1))
    | .noNumber => .ok (.found (-1))
    | .empty => .error .uninitialized
    | .value max => .ok (.found max)

/-- One round of the scan: `found` ends it with the file `energy_uj` open and with
`final_max`, `stop` ends it with a `break`. -/
def judgeEntry (dir : Powercap) (name : List Char) (givenPackage : Int) (dName : List Char) :
    Except SysfsFault (Verdict Int) :=
  match scanZone dName with
  | none => .ok .next
  | some package =>
      match readName (dir.nameFile (zonePrefix ++ decimal package)) with
      | .error e => .error e
      | .ok none => .ok .stop
      | .ok (some buffer) =>
          if ¬ packageText <+: buffer then .ok .stop
          else
            match scanPackage buffer with
            | none => .ok .stop
            | some number =>
                if toInt32 number.value = 0 ∧ number.erange then .ok .stop
                else if toInt32 number.value ≠ givenPackage then .ok .next
                else
                  match readName (dir.nameFile dName) with
                  | .error e => .error e
                  | .ok none => .ok .stop
                  | .ok (some own) => judgeZone dir name dName own

/-- The scan of `setup`: the directory of `final_fp`, and `final_max`. -/
def scan (dir : Powercap) (counterType : Counter) (index : Nat) :
    Except SysfsFault (Option (List Char × Int)) :=
  Search.search (judgeEntry dir (sysfsNames counterType) (toInt32 index)) dir.namelist.reverse

/-- `setup`; `none` is the return of `NULL`. -/
def setup (arch : ArchNode) (dir : Powercap) (counterType : Counter) (index : Nat)
    (o : SysfsOutcome) : Except SysfsFault (Option SysfsCounter) :=
  let granularity := if counterType ≠ .singleCore then Granularity.socket else .core
  match getTestCpu arch granularity index with
  | none => .error .missingChild
  | some cpu =>
      if cpu < 0 then .ok none
      else if !o.opensDir then .ok none
      else
        match scan dir counterType index with
        | .error e => .error e
        | .ok none => .ok none
        | .ok (some (zone, finalMax)) =>
            if finalMax = -1 then .ok none
            else
              match o.reading with
              | none => .ok none
              | some lastReading =>
                  if !o.seeks || !o.flushes || !o.startsThread then .ok none
                  else .ok (some ⟨zone, toInt32 index, cpu, lastReading, 0, finalMax⟩)

/-- A counter belongs to a CPU of the index and to the zone that the scan ends with. -/
theorem setup_some {arch : ArchNode} {dir : Powercap} {counterType : Counter} {index : Nat}
    {o : SysfsOutcome} {counter : SysfsCounter}
    (h : setup arch dir counterType index o = .ok (some counter)) :
    getTestCpu arch (if counterType ≠ .singleCore then .socket else .core) index =
        some counter.cpu ∧ ¬ counter.cpu < 0 ∧
      ∃ max, scan dir counterType index = .ok (some (counter.zone, max)) := by
  unfold setup at h
  simp only at h
  split at h
  · cases h
  · rename_i cpu hcpu
    split at h
    · cases h
    · rename_i hneg
      split at h
      · cases h
      · split at h
        · cases h
        · cases h
        · rename_i zone max hscan
          split at h
          · cases h
          · split at h
            · cases h
            · split at h
              · cases h
              · cases h
                exact ⟨hcpu, hneg, max, hscan⟩

end Sysfs

end Access
end X86Energy
