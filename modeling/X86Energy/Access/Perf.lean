import X86Energy.Architecture.Mechanism
import X86Energy.Library.CDouble
import X86Energy.Library.CText

/-!
# The perf source

`perf-rapl` opens an event of the PMU `power`.  The number of the event and the unit of its
counts are in two files of sysfs: `energy-<suffix>` holds a line such as `event=0x02`, and
`energy-<suffix>.scale` a floating point number.

`getEventId` returns an `int`, which is negative if a file cannot be read; but 1, which is
the number of an event, if the line has another form.
-/

namespace X86Energy
namespace Access

open CInt CText CDouble Architecture ArchNode

/-- What `fopen` and `getline` deliver. -/
inductive LineRead
  | cannotOpen
  | noLine
  | line (text : List Char)

/-- What `fopen` and `fscanf` with `%le` deliver. -/
inductive ScaleRead
  | cannotOpen
  | noNumber
  | number (scale : Double)

/-- What one `setup` finds: the files by suffix, the result of `perf_event_open`, and
whether memory is granted and the first 8 bytes are delivered. -/
structure PerfOutcome where
  event : String → LineRead
  scale : String → ScaleRead
  fd : Int
  allocates : Bool
  delivers : Bool

/-- `struct reader_def` of this source. -/
structure PerfCounter where
  fd : Int
  cpuId : Int
  unit : Double

/-- Undefined behaviour: the children of a node that has none. -/
inductive PerfFault
  | missingChild
deriving DecidableEq, Repr

/-- What `do_read` returns for a unit: -1.0, or the product with the reading. -/
def energyRead (unit : Double) : Option Nat → Double
  | none => .finite (-1)
  | some reading => unit.times reading

namespace Perf

section Scanf

def isHexDigit (c : Char) : Bool :=
  c.isDigit || ('a' ≤ c && c ≤ 'f') || ('A' ≤ c && c ≤ 'F')

def hexDigit (c : Char) : Nat :=
  if c.isDigit then c.toNat - 48 else if 'a' ≤ c then c.toNat - 87 else c.toNat - 55

/-- The `0x` that `%x` allows in front of the digits. -/
def skipHexMark : List Char → List Char
  | '0' :: 'x' :: text => text
  | '0' :: 'X' :: text => text
  | text => text

/-- The number that `%x` reads: white space, a sign and digits. -/
def scanHex (text : List Char) : Option Int :=
  let sign := scanSign (text.dropWhile isSpace)
  let digits := (skipHexMark sign.2).takeWhile isHexDigit
  if digits = [] then none
  else some (signed sign.1 (digits.foldl (fun n c => 16 * n + hexDigit c) 0))

/-- The number in a line of the form `event=0x%x`. -/
def scanEvent (text : List Char) : Option Int :=
  if text.take 8 = ['e', 'v', 'e', 'n', 't', '=', '0', 'x'] then scanHex (text.drop 8) else none

/-- The `unsigned long` that `sscanf` makes of a number, before it stores the low 32 bits. -/
def toUnsignedLong (n : Int) : Nat :=
  if 18446744073709551616 ≤ n.natAbs then 18446744073709551615 else toSize n

end Scanf

/-- `strings_for_events`, for the counter types that `setup` accepts. -/
def stringsForEvents : Counter → Option String
  | .pckg => some "pkg"
  | .cores => some "cores"
  | .dram => some "ram"
  | .gpu => some "gpu"
  | .platform => some "psys"
  | .singleCore => none

/-- `get_event_id`. -/
def getEventId : LineRead → Int
  | .cannotOpen => -1
  | .noLine => -1
  | .line text =>
      match scanEvent text with
      | none => 1
      | some n => toInt32 (toUnsignedLong n)

/-- `get_event_unit`. -/
def getEventUnit : ScaleRead → Double
  | .cannotOpen => .finite (-1)
  | .noNumber => .finite (-1)
  | .number scale => scale

/-- `setup`: the `config` of the event that it opened, and the counter; `none` is the return
of `NULL`. -/
def setup (arch : ArchNode) (counterType : Counter) (index : Nat) (o : PerfOutcome) :
    Except PerfFault (Option (Int × PerfCounter)) :=
  match getTestCpu arch .socket index with
  | none => .error .missingChild
  | some cpu =>
      match stringsForEvents counterType with
      | none => .ok none
      | some suffix =>
          let eventId := getEventId (o.event suffix)
          let unit := getEventUnit (o.scale suffix)
          if eventId < 0 then .ok none
          else if unit.IsNegative then .ok none
          else if o.fd ≤ 0 then .ok none
          else if !o.allocates then .ok none
          else if !o.delivers then .ok none
          else .ok (some (eventId, ⟨o.fd, cpu, unit⟩))

/-- `do_read`, on the result of `read`. -/
def doRead (counter : PerfCounter) : Option Nat → Double := energyRead counter.unit

end Perf

end Access
end X86Energy
