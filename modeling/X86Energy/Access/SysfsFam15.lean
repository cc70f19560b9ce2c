import Mathlib.Data.List.TakeWhile
import X86Energy.Access.Perf
import X86Energy.Library.OpenFiles
import X86Energy.Library.Transition
import X86Energy.ParseArchitecture.FindArch

/-!
# The sysfs source of family 15h

The driver `fam15h_power` has a directory for each PCI device that measures a package.
`setup` scans them from the last to the first for the package `index`, and opens the
file `power1_input` of each that matches: a device that matches later takes the place of
the one before, whose file stays open.

The file holds the power in uW.  `do_read` adds its product with the time since the last
reading to the energy.

**Results.**
* `SysfsFam15.files_owned`: in every run each counter has a file of its own, and every file
  that is open belongs to one counter or was lost;
* `SysfsFam15.loses_no_file_iff`: which runs lose no file;
* `SysfsFam15.energy_accounts`: the readings of a counter account for all its time once.
-/

namespace X86Energy
namespace Access

open CInt CText Architecture ArchNode Ownership OpenFiles

/-- `struct timeval`. -/
structure Timeval where
  tvSec : Int
  tvUsec : Int

/-- What `fopen` and `fscanf` deliver for a file `local_cpulist`. -/
inductive CpulistFile
  | cannotOpen
  | noNumber
  | number (cpu : Int)

/-- The directory of the driver: the list of `scandir`, the files `local_cpulist` of the
devices, and which files `/hwmon/hwmon<package>/power1_input` can be opened. -/
structure Fam15Dir where
  namelist : List (List Char)
  localCpulist : List Char → CpulistFile
  powerOpens : List Char → Int → Bool

/-- Undefined behaviour: the children of a node that has none, or a `struct reader_def` for
which there is no memory. -/
inductive Fam15Fault
  | missingChild
  | nullDef
deriving DecidableEq, Repr

/-- `struct reader_def` of this source, and the device that it was set up for. -/
structure Fam15Counter where
  fp : Nat
  package : Int
  lastReadingTv : Timeval
  energy : Float
  cpu : Int
  device : List Char

/-- The counters in use, the open files `power1_input` by device, and those that a `setup` left
open. -/
structure Fam15State where
  counters : List Fam15Counter
  files : Files (List Char)
  lost : List Nat

/-- What one `setup` finds: whether the directory can be opened, its content, whether the
first reading is a number, the other operations, and the time. -/
structure Fam15Outcome where
  opensDir : Bool
  dir : Fam15Dir
  scans : Bool
  seeks : Bool
  flushes : Bool
  allocates : Bool
  time : Timeval
  startsThread : Bool

/-- What one `do_read` finds: the time, the number that `%llu` reads, and the operations after
that. -/
structure Fam15Read where
  time : Timeval
  reading : Option Nat
  seeks : Bool
  flushes : Bool

/-- The calls of a client. -/
inductive Fam15Call
  | setup (counterType : Counter) (index : Nat) (o : Fam15Outcome)
  | read (position : Nat) (r : Fam15Read)
  | close (position : Nat)

/-- The value of a `long long` that `%llu` fills. -/
def toLongLong (n : Nat) : Int := Int.bmod n 18446744073709551616

/-- The time and the power of a reading that is not refused. -/
def Fam15Read.taken (r : Fam15Read) : Option (Timeval × Int) :=
  if !r.seeks then none
  else if !r.flushes then none
  else r.reading.map fun n => (r.time, toLongLong n)

namespace SysfsFam15

section Scan

def deviceText : List Char := "0000:00:".toList

/-- The items that `sscanf` with `"0000:00:%x.%d"` reads. -/
def readItems (dName : List Char) : Nat :=
  if deviceText <+: dName then
    let sign := scanSign ((dName.drop deviceText.length).dropWhile isSpace)
    let text := Perf.skipHexMark sign.2
    if text.takeWhile Perf.isHexDigit = [] then 0
    else
      match text.dropWhile Perf.isHexDigit with
      | '.' :: line => if (scanSign (line.dropWhile isSpace)).2.head?.any Char.isDigit then 2 else 1
      | _ => 1
  else 0

/-- The variables of the scan: `cpu` and `final_fp`, here with its device; `lost` are the
former values of `final_fp`. -/
structure Scan where
  files : Files (List Char)
  cpu : Int
  finalFp : Option (Nat × List Char)
  lost : List Nat

/-- A device of the package was found. -/
def Scan.found (s : Scan) (device : List Char) : Scan :=
  { s with
    files := s.files.fopen device
    finalFp := some (s.files.next, device)
    lost := (s.finalFp.map Prod.fst).toList ++ s.lost }

/-- The loop of `setup` on what is left of the list, and whether it ends without a `return`. -/
def scanDevices (archInfo : ArchNode) (dir : Fam15Dir) (givenPackage : Int) :
    List (List Char) → Scan → Scan × Bool
  | [], s => (s, true)
  | dName :: names, s =>
      if readItems dName ≤ 1 then scanDevices archInfo dir givenPackage names s
      else
        match dir.localCpulist dName with
        | .cannotOpen => (s, true)
        | .noNumber => (s, true)
        | .number cpu =>
            let s := { s with cpu := cpu }
            match findArchForCpu .socket cpu archInfo with
            | none => scanDevices archInfo dir givenPackage names s
            | some packageNode =>
                if packageNode.id ≠ givenPackage then scanDevices archInfo dir givenPackage names s
                else if !dir.powerOpens dName givenPackage then (s, false)
                else scanDevices archInfo dir givenPackage names (s.found dName)

end Scan

/-- `setup` behind the scan, with `final_fp`. -/
def finishSetup (s : Fam15State) (fp : Nat) (device : List Char) (cpu package : Int)
    (o : Fam15Outcome) : Except Fam15Fault Fam15State :=
  let closed := { s with files := s.files.fclose fp }
  if !o.scans then .ok closed
  else if !o.seeks then .ok closed
  else if !o.flushes then .ok closed
  else if !o.allocates then .error .nullDef
  else if !o.startsThread then .ok closed
  else .ok { s with counters := s.counters ++ [⟨fp, package, o.time, 0, cpu, device⟩] }

/-- `setup`, on the trees of `get_test_cpu` and of this source. -/
def setup (arch archInfo : ArchNode) (s : Fam15State) (counterType : Counter) (index : Nat)
    (o : Fam15Outcome) : Except Fam15Fault Fam15State :=
  match getTestCpu arch .socket index with
  | none => .error .missingChild
  | some cpu =>
      if cpu < 0 then .ok s
      else if counterType ≠ .pckg then .ok s
      else if !o.opensDir then .ok s
      else
        let givenPackage := toInt32 index
        match scanDevices archInfo o.dir givenPackage o.dir.namelist.reverse
            ⟨s.files, cpu, none, s.lost⟩ with
        | (scan, false) =>
            .ok { s with
              files := scan.files
              lost := (scan.finalFp.map Prod.fst).toList ++ scan.lost }
        | (scan, true) =>
            let s := { s with files := scan.files, lost := scan.lost }
            match scan.finalFp with
            | none => .ok s
            | some (fp, device) => finishSetup s fp device scan.cpu givenPackage o

/-- The microseconds between two times. -/
def micros (first last : Timeval) : Int :=
  1000000 * last.tvSec + last.tvUsec - first.tvUsec - 1000000 * first.tvSec

/-- `energy += time * power`, for a time in us and a power in uW. -/
def addEnergy (energy : Float) (time power : Int) : Float :=
  energy + 1e-6 * Float.ofInt time * (1e-6 * Float.ofInt power)

/-- `do_read`. -/
def doRead (r : Fam15Read) (counter : Fam15Counter) : Float × Fam15Counter :=
  match r.taken with
  | none => (-1.0, counter)
  | some (tv, power) =>
      let energy := addEnergy counter.energy (micros counter.lastReadingTv tv) power
      (energy, { counter with energy := energy, lastReadingTv := tv })

/-- `do_close`. -/
def doClose (s : Fam15State) (position : Nat) : Fam15State :=
  match s.counters[position]? with
  | none => s
  | some counter =>
      { s with
        counters := s.counters.eraseIdx position
        files := s.files.fclose counter.fp }

/-- One call. -/
def step (arch archInfo : ArchNode) (s : Fam15State) : Fam15Call → Except Fam15Fault Fam15State
  | .setup counterType index o => setup arch archInfo s counterType index o
  | .read position r =>
      .ok { s with counters := s.counters.modify position fun counter => (doRead r counter).2 }
  | .close position => .ok (doClose s position)

section Hits

variable {archInfo : ArchNode} {dir : Fam15Dir} {givenPackage : Int}

/-- The devices of the scan with the number in their `local_cpulist`, up to the first in which
there is none. -/
def readDevices (dir : Fam15Dir) : List (List Char) → List (List Char × Int)
  | [] => []
  | dName :: names =>
      if readItems dName ≤ 1 then readDevices dir names
      else
        match dir.localCpulist dName with
        | .number cpu => (dName, cpu) :: readDevices dir names
        | _ => []

/-- The CPU belongs to the package. -/
def inPackage (archInfo : ArchNode) (givenPackage cpu : Int) : Bool :=
  (findArchForCpu .socket cpu archInfo).any fun packageNode => packageNode.id = givenPackage

/-- The loop of the scan on the devices with their numbers. -/
def openDevices (archInfo : ArchNode) (dir : Fam15Dir) (givenPackage : Int) :
    List (List Char × Int) → Scan → Scan × Bool
  | [], s => (s, true)
  | (dName, cpu) :: devices, s =>
      if !inPackage archInfo givenPackage cpu then
        openDevices archInfo dir givenPackage devices { s with cpu := cpu }
      else if !dir.powerOpens dName givenPackage then ({ s with cpu := cpu }, false)
      else
        openDevices archInfo dir givenPackage devices (({ s with cpu := cpu } : Scan).found dName)

theorem scanDevices_eq_openDevices (names : List (List Char)) (s : Scan) :
    scanDevices archInfo dir givenPackage names s =
      openDevices archInfo dir givenPackage (readDevices dir names) s := by
  induction names generalizing s with
  | nil => rfl
  | cons dName names ih =>
      unfold scanDevices readDevices
      by_cases hitems : readItems dName ≤ 1
      · rw [if_pos hitems, if_pos hitems]
        exact ih s
      · rw [if_neg hitems, if_neg hitems]
        cases dir.localCpulist dName with
        | cannotOpen => rfl
        | noNumber => rfl
        | number cpu =>
            simp only [openDevices, ← ih]
            cases hnode : findArchForCpu .socket cpu archInfo with
            | none => simp [inPackage, hnode]
            | some packageNode =>
                by_cases hid : packageNode.id = givenPackage
                · simp [inPackage, hnode, hid]
                · simp [inPackage, hnode, hid]

/-- The devices of the package, in the order of the scan. -/
def hits (archInfo : ArchNode) (givenPackage : Int) (devices : List (List Char × Int)) :
    List (List Char) :=
  (devices.filter fun device => inPackage archInfo givenPackage device.2).map Prod.fst

theorem hits_cons (dName : List Char) (cpu : Int) (devices : List (List Char × Int)) :
    hits archInfo givenPackage ((dName, cpu) :: devices) =
      if inPackage archInfo givenPackage cpu then dName :: hits archInfo givenPackage devices
      else hits archInfo givenPackage devices := by
  unfold hits
  rw [List.filter_cons]
  split <;> rfl

theorem foldl_found_cpu (devices : List (List Char)) (s : Scan) (cpu : Int) :
    devices.foldl Scan.found { s with cpu := cpu } =
      { devices.foldl Scan.found s with cpu := cpu } := by
  induction devices generalizing s with
  | nil => rfl
  | cons device devices ih => exact ih (s.found device)

/-- **The scan** opens the files of the hits up to the first that cannot be opened. -/
theorem openDevices_eq (archInfo : ArchNode) (dir : Fam15Dir) (givenPackage : Int)
    (devices : List (List Char × Int)) (s : Scan) :
    ∃ cpu, openDevices archInfo dir givenPackage devices s =
        ({ ((hits archInfo givenPackage devices).takeWhile
            (dir.powerOpens · givenPackage)).foldl Scan.found s with cpu := cpu },
          (hits archInfo givenPackage devices).all (dir.powerOpens · givenPackage)) ∧
      ((hits archInfo givenPackage devices).all (dir.powerOpens · givenPackage) = true →
        cpu = (devices.getLast?.map Prod.snd).getD s.cpu) := by
  induction devices generalizing s with
  | nil => exact ⟨s.cpu, rfl, fun _ => rfl⟩
  | cons device devices ih =>
      obtain ⟨dName, cpu⟩ := device
      have hlast : (((dName, cpu) :: devices).getLast?.map Prod.snd).getD s.cpu =
          (devices.getLast?.map Prod.snd).getD cpu := by
        rw [List.getLast?_cons]
        cases devices.getLast? <;> rfl
      rw [hlast, hits_cons]
      unfold openDevices
      by_cases hin : inPackage archInfo givenPackage cpu = true
      · rw [if_pos hin]
        cases hopens : dir.powerOpens dName givenPackage with
        | false => exact ⟨cpu, by simp [hin, hopens], by simp [hopens]⟩
        | true =>
            obtain ⟨last, heq, hall⟩ := ih (({ s with cpu := cpu } : Scan).found dName)
            refine ⟨last, ?_, ?_⟩
            · simp only [hin, Bool.not_true, Bool.false_eq_true, if_false, List.takeWhile_cons,
                hopens, if_true, List.all_cons, Bool.true_and, List.foldl_cons]
              have hfound : ({ s with cpu := cpu } : Scan).found dName =
                  { s.found dName with cpu := cpu } := rfl
              rw [heq, hfound, foldl_found_cpu]
            · rw [List.all_cons, hopens, Bool.true_and]
              exact hall
      · rw [if_neg hin]
        obtain ⟨last, heq, hall⟩ := ih { s with cpu := cpu }
        rw [foldl_found_cpu] at heq
        refine ⟨last, ?_, hall⟩
        simp only [hin, Bool.not_false, if_true]
        exact heq

end Hits

section Owned

variable {counters : List Fam15Counter}

/-- Each counter has the file of its device, and the files that are open are those of the
counters and the others. -/
abbrev Answers (files : Files (List Char)) (counters : List Fam15Counter) (others : List Nat) :
    Prop :=
  OwnedBy (fun counter : Fam15Counter => counter.fp) (fun counter => counter.device) files counters
    others

/-- The files that a scan has to answer for. -/
def Scan.fps (s : Scan) : List Nat := (s.finalFp.map Prod.fst).toList ++ s.lost

/-- What holds of the files during a scan. -/
structure Scan.Fine (counters : List Fam15Counter) (s : Scan) : Prop where
  owned : Answers s.files counters s.fps
  final : ∀ fp device, s.finalFp = some (fp, device) → s.files.opened fp = some device

theorem Scan.Fine.found {s : Scan} (h : s.Fine counters) (device : List Char) :
    (s.found device).Fine counters := by
  refine ⟨h.owned.fopen device, fun fp device' heq => ?_⟩
  cases heq
  exact opened_fopen s.files device

theorem Scan.Fine.foldl {s : Scan} (h : s.Fine counters) (devices : List (List Char)) :
    (devices.foldl Scan.found s).Fine counters := by
  induction devices generalizing s with
  | nil => exact h
  | cons device devices ih => exact ih (h.found device)

/-- Each device that is found adds a file. -/
theorem length_fps_foldl (devices : List (List Char)) (s : Scan) :
    (devices.foldl Scan.found s).fps.length = devices.length + s.fps.length := by
  induction devices generalizing s with
  | nil => exact (Nat.zero_add _).symm
  | cons device devices ih =>
      rw [List.foldl_cons, ih, List.length_cons]
      have hfound : (s.found device).fps = s.files.next :: s.fps := rfl
      rw [hfound, List.length_cons]
      omega

/-- The last device that is found is that of `final_fp`. -/
theorem finalFp_foldl (devices : List (List Char)) (s : Scan) :
    (devices.foldl Scan.found s).finalFp.map Prod.snd =
      (devices.getLast?).or (s.finalFp.map Prod.snd) := by
  induction devices generalizing s with
  | nil => rfl
  | cons device devices ih =>
      rw [List.foldl_cons, ih, List.getLast?_cons]
      cases devices.getLast? <;> rfl

end Owned

section Setup

variable {arch archInfo : ArchNode} {s s' : Fam15State} {counterType : Counter} {index : Nat}
  {o : Fam15Outcome}

/-- The devices with their numbers that a `setup` looks at. -/
def devicesOf (o : Fam15Outcome) : List (List Char × Int) :=
  readDevices o.dir o.dir.namelist.reverse

/-- The devices of the package `index` among them. -/
def hitsOf (archInfo : ArchNode) (index : Nat) (o : Fam15Outcome) : List (List Char) :=
  hits archInfo (toInt32 index) (devicesOf o)

/-- The file of the device can be opened. -/
def opens (index : Nat) (o : Fam15Outcome) (device : List Char) : Bool :=
  o.dir.powerOpens device (toInt32 index)

/-- `setup` comes to the scan, with the CPU of `get_test_cpu`. -/
def ScansFrom (arch : ArchNode) (counterType : Counter) (index : Nat) (o : Fam15Outcome)
    (cpu : Int) : Prop :=
  getTestCpu arch .socket index = some cpu ∧ 0 ≤ cpu ∧ counterType = .pckg ∧ o.opensDir = true

/-- What a scan does that starts in this state. -/
structure ScanEnds (archInfo : ArchNode) (s : Fam15State) (index : Nat) (o : Fam15Outcome)
    (cpu : Int) (scan : Scan) (ends : Bool) : Prop where
  fine : Answers s.files s.counters s.lost → scan.Fine s.counters
  length_fps : scan.fps.length =
    ((hitsOf archInfo index o).takeWhile (opens index o)).length + s.lost.length
  device : scan.finalFp.map Prod.snd =
    ((hitsOf archInfo index o).takeWhile (opens index o)).getLast?
  ends_eq : ends = (hitsOf archInfo index o).all (opens index o)
  cpu_eq : ends = true → scan.cpu = ((devicesOf o).getLast?.map Prod.snd).getD cpu

theorem scanDevices_ends (archInfo : ArchNode) (s : Fam15State) (index : Nat) (o : Fam15Outcome)
    (cpu : Int) :
    ∃ scan ends, scanDevices archInfo o.dir (toInt32 index) o.dir.namelist.reverse
        ⟨s.files, cpu, none, s.lost⟩ = (scan, ends) ∧
      ScanEnds archInfo s index o cpu scan ends := by
  obtain ⟨last, heq, hlast⟩ :=
    openDevices_eq archInfo o.dir (toInt32 index) (devicesOf o) ⟨s.files, cpu, none, s.lost⟩
  refine ⟨_, _, (scanDevices_eq_openDevices _ _).trans heq, ?_, ?_, ?_, rfl, hlast⟩
  · intro howned
    have hstart : Scan.Fine s.counters ⟨s.files, cpu, none, s.lost⟩ :=
      ⟨howned, fun _ _ h => by cases h⟩
    obtain ⟨hfiles, hfinal⟩ := hstart.foldl ((hitsOf archInfo index o).takeWhile (opens index o))
    exact ⟨hfiles, hfinal⟩
  · exact length_fps_foldl _ _
  · exact (finalFp_foldl _ _).trans (Option.or_none)

/-- What `setup` can do: nothing, give up inside the scan, find no device, close the file of the
device, or add a counter. -/
inductive SetupCases (arch archInfo : ArchNode) (s : Fam15State) (counterType : Counter)
    (index : Nat) (o : Fam15Outcome) : Fam15State → Prop
  | same (hscan : ∀ cpu, ¬ ScansFrom arch counterType index o cpu) :
      SetupCases arch archInfo s counterType index o s
  | gaveUp {cpu : Int} {scan : Scan} (hfrom : ScansFrom arch counterType index o cpu)
      (hends : ScanEnds archInfo s index o cpu scan false) :
      SetupCases arch archInfo s counterType index o
        { s with files := scan.files, lost := scan.fps }
  | noDevice {cpu : Int} {scan : Scan} (hfrom : ScansFrom arch counterType index o cpu)
      (hends : ScanEnds archInfo s index o cpu scan true) (hfinal : scan.finalFp = none) :
      SetupCases arch archInfo s counterType index o
        { s with files := scan.files, lost := scan.lost }
  | closed {cpu : Int} {scan : Scan} {fp : Nat} {device : List Char}
      (hfrom : ScansFrom arch counterType index o cpu)
      (hends : ScanEnds archInfo s index o cpu scan true)
      (hfinal : scan.finalFp = some (fp, device)) :
      SetupCases arch archInfo s counterType index o
        { s with files := scan.files.fclose fp, lost := scan.lost }
  | added {cpu : Int} {scan : Scan} {fp : Nat} {device : List Char}
      (hfrom : ScansFrom arch counterType index o cpu)
      (hends : ScanEnds archInfo s index o cpu scan true)
      (hfinal : scan.finalFp = some (fp, device)) :
      SetupCases arch archInfo s counterType index o
        { s with
          files := scan.files
          lost := scan.lost
          counters := s.counters ++ [⟨fp, toInt32 index, o.time, 0, scan.cpu, device⟩] }

theorem setup_cases (h : setup arch archInfo s counterType index o = .ok s') :
    SetupCases arch archInfo s counterType index o s' := by
  unfold setup at h
  cases hcpu : getTestCpu arch .socket index with
  | none =>
      rw [hcpu] at h
      cases h
  | some cpu =>
      simp only [hcpu] at h
      by_cases hneg : cpu < 0
      · rw [if_pos hneg] at h
        cases h
        refine .same fun cpu' hfrom => ?_
        obtain rfl := Option.some.inj (hcpu.symm.trans hfrom.1)
        exact absurd hfrom.2.1 (by omega)
      · rw [if_neg hneg] at h
        by_cases htype : counterType ≠ .pckg
        · rw [if_pos htype] at h
          cases h
          exact .same fun _ hfrom => htype hfrom.2.2.1
        · rw [if_neg htype] at h
          cases hdir : o.opensDir with
          | false =>
              rw [hdir] at h
              cases h
              refine .same fun _ hfrom => ?_
              rw [hfrom.2.2.2] at hdir
              cases hdir
          | true =>
              have hfrom : ScansFrom arch counterType index o cpu :=
                ⟨hcpu, by omega, not_not.mp htype, hdir⟩
              obtain ⟨scan, ends, heq, hends⟩ := scanDevices_ends archInfo s index o cpu
              simp only [hdir, Bool.not_true, Bool.false_eq_true, if_false, heq] at h
              cases ends with
              | false =>
                  cases h
                  exact .gaveUp hfrom hends
              | true =>
                  cases hfinal : scan.finalFp with
                  | none =>
                      simp only [hfinal] at h
                      cases h
                      exact .noDevice hfrom hends hfinal
                  | some final =>
                      obtain ⟨fp, device⟩ := final
                      simp only [hfinal] at h
                      unfold finishSetup at h
                      have hclosed := SetupCases.closed hfrom hends hfinal
                      split at h
                      · cases h
                        exact hclosed
                      · split at h
                        · cases h
                          exact hclosed
                        · split at h
                          · cases h
                            exact hclosed
                          · split at h
                            · cases h
                            · split at h
                              · cases h
                                exact hclosed
                              · cases h
                                exact .added hfrom hends hfinal

end Setup

section Devices

variable {arch archInfo : ArchNode} {s s' : Fam15State} {counterType : Counter} {index : Nat}
  {o : Fam15Outcome}

theorem readDevices_sublist (dir : Fam15Dir) (names : List (List Char)) :
    ((readDevices dir names).map Prod.fst).Sublist names := by
  induction names with
  | nil => exact List.Sublist.slnil
  | cons dName names ih =>
      unfold readDevices
      split
      · exact ih.cons _
      · cases dir.localCpulist dName with
        | number cpu => exact ih.cons_cons _
        | _ => exact List.nil_sublist _

/-- The last hit is the last device exactly if that is in the package. -/
theorem inPackage_last_iff {givenPackage : Int} {devices : List (List Char × Int)}
    {last : List Char × Int} {device : List Char} (hnodup : (devices.map Prod.fst).Nodup)
    (hlast : devices.getLast? = some last)
    (hhit : (hits archInfo givenPackage devices).getLast? = some device) :
    inPackage archInfo givenPackage last.2 = true ↔ last.1 = device := by
  obtain ⟨before, rfl⟩ := List.getLast?_eq_some_iff.mp hlast
  constructor
  · intro hin
    have hhits : hits archInfo givenPackage (before ++ [last]) =
        hits archInfo givenPackage before ++ [last.1] := by
      simp [hits, List.filter_append, hin]
    rw [hhits, List.getLast?_concat] at hhit
    exact Option.some.inj hhit
  · rintro rfl
    obtain ⟨found, hfound, heq⟩ := List.mem_map.mp (List.mem_of_getLast? hhit)
    obtain ⟨hmem, hin⟩ := List.mem_filter.mp hfound
    have hsame := List.inj_on_of_nodup_map hnodup hmem (by simp) heq
    rw [← hsame]
    exact hin

/-- Two packages of one CPU each. -/
def twoNodes : ArchNode :=
  .node .system 0 none
    [.node .socket 0 none [.node .die 0 none [.node .core 0 none [.node .thread 0 none []]]],
      .node .socket 1 none [.node .die 1 none [.node .core 1 none [.node .thread 1 none []]]]]

/-- A `setup` on a machine with a device for each package. -/
def twoDevices : Fam15Outcome where
  opensDir := true
  dir :=
    { namelist := [['.'], "0000:00:18.4".toList, "0000:00:19.4".toList, "module".toList]
      localCpulist := fun device => if device = "0000:00:18.4".toList then .number 0 else .number 1
      powerOpens := fun _ _ => true }
  scans := true
  seeks := true
  flushes := true
  allocates := true
  time := ⟨1, 0⟩
  startsThread := true

/-- A process without files. -/
def noFiles : Fam15State := ⟨[], ⟨empty, 0⟩, []⟩

end Devices

section Runs

variable {arch archInfo : ArchNode} {s s' : Fam15State} {calls : List Fam15Call}

/-- **Every counter has a file of its own**, and every file that is open belongs to one counter
or was lost. -/
def FilesOwned (s : Fam15State) : Prop := Answers s.files s.counters s.lost

/-- A process before the first `setup`. -/
def Fresh (s : Fam15State) : Prop :=
  s.counters = [] ∧ s.lost = [] ∧ s.files.opened = empty

theorem Fresh.filesOwned (h : Fresh s) : FilesOwned s := by
  obtain ⟨hcounters, hlost, hopened⟩ := h
  unfold FilesOwned
  rw [hcounters, hlost]
  refine ⟨nofun, ?_, fun fp _ => by rw [hopened, empty]⟩
  rw [hopened]
  exact owns_empty

theorem FilesOwned.setup {counterType : Counter} {index : Nat} {o : Fam15Outcome}
    (h : FilesOwned s) (hsetup : setup arch archInfo s counterType index o = .ok s') :
    FilesOwned s' := by
  cases setup_cases hsetup with
  | same => exact h
  | gaveUp _ hends => exact (hends.fine h).owned
  | noDevice _ hends hfinal =>
      have howned := (hends.fine h).owned
      rw [Scan.fps, hfinal] at howned
      exact howned
  | closed _ hends hfinal =>
      have howned := (hends.fine h).owned
      rw [Scan.fps, hfinal] at howned
      exact howned.fclose
  | added _ hends hfinal =>
      have hfine := hends.fine h
      have howned := hfine.owned
      rw [Scan.fps, hfinal] at howned
      exact howned.add (hfine.final _ _ hfinal)

theorem FilesOwned.doClose (h : FilesOwned s) (position : Nat) :
    FilesOwned (doClose s position) := by
  unfold SysfsFam15.doClose
  cases hget : s.counters[position]? with
  | none => exact h
  | some counter =>
      obtain ⟨hlt, rfl⟩ := List.getElem?_eq_some_iff.mp hget
      exact (OwnedBy.remove h hlt).fclose

/-- `do_read` leaves the file of its counter. -/
theorem doRead_file (r : Fam15Read) (counter : Fam15Counter) :
    (doRead r counter).2.fp = counter.fp ∧ (doRead r counter).2.device = counter.device := by
  unfold doRead
  split <;> exact ⟨rfl, rfl⟩

theorem FilesOwned.read (h : FilesOwned s) (position : Nat) (r : Fam15Read) :
    FilesOwned { s with
      counters := s.counters.modify position fun counter => (doRead r counter).2 } := by
  refine OwnedBy.congr h (map_modify_of_keeps (fun counter => ?_) _ _)
  obtain ⟨hfp, hdevice⟩ := doRead_file r counter
  rw [hfp, hdevice]

/-- **Every call keeps the files.** -/
theorem FilesOwned.step {call : Fam15Call} (h : FilesOwned s)
    (hstep : step arch archInfo s call = .ok s') : FilesOwned s' := by
  cases call with
  | setup counterType index o => exact h.setup hstep
  | read position r =>
      cases hstep
      exact h.read position r
  | close position =>
      cases hstep
      exact h.doClose position

theorem files_owned (hfresh : Fresh s)
    (hrun : Transition.run (step arch archInfo) s calls = .ok s') : FilesOwned s' :=
  Transition.run_invariant (fun _ _ _ _ howned hstep => howned.step hstep)
    hfresh.filesOwned hrun

/-- A `setup` that scans finds at most one device of its package, or cannot open the file of
the first. -/
def KeepsFiles (arch archInfo : ArchNode) : Fam15Call → Prop
  | .setup counterType index o =>
      (∃ cpu, ScansFrom arch counterType index o cpu) →
        (hitsOf archInfo index o).length ≤ 1 ∨
          ∃ device ∈ (hitsOf archInfo index o).head?, opens index o device = false
  | _ => True

/-- Counters of both packages, of which one is closed and set up again. -/
def fam15Calls : List Fam15Call :=
  [.setup .pckg 0 twoDevices, .setup .pckg 1 twoDevices,
    .read 1 ⟨⟨2, 0⟩, some 40000000, true, true⟩, .close 0, .setup .pckg 0 twoDevices]

theorem noFiles_fresh : Fresh noFiles := ⟨rfl, rfl, rfl⟩

theorem run_fam15Calls :
    ∃ s', Transition.run (step twoNodes twoNodes) noFiles fam15Calls = .ok s' ∧
      s'.counters.map (fun counter => counter.fp) = [1, 2] :=
  ⟨_, rfl, rfl⟩

theorem files_owned_fam15Calls :
    ∃ s', Transition.run (step twoNodes twoNodes) noFiles fam15Calls = .ok s' ∧
      s'.counters.map (fun counter => counter.fp) = [1, 2] ∧ FilesOwned s' := by
  obtain ⟨s', hrun, hfps⟩ := run_fam15Calls
  exact ⟨s', hrun, hfps, files_owned noFiles_fresh hrun⟩

/-- What a `setup` that scans loses. -/
theorem ScanEnds.lost_eq_nil {index : Nat} {o : Fam15Outcome} {cpu : Int} {scan : Scan}
    {ends : Bool} (h : ScanEnds archInfo s index o cpu scan ends) :
    (if ends then scan.lost else scan.fps) = [] ↔
      s.lost = [] ∧ ((hitsOf archInfo index o).length ≤ 1 ∨
        ∃ device ∈ (hitsOf archInfo index o).head?, opens index o device = false) := by
  have hlength := h.length_fps
  have hdevice := h.device
  have hends := h.ends_eq
  rw [← List.length_eq_zero_iff, ← List.length_eq_zero_iff]
  cases ends with
  | true =>
      have hall := List.all_eq_true.mp hends.symm
      rw [List.takeWhile_eq_self_iff.mpr hall] at hlength hdevice
      rw [if_pos rfl]
      cases hhits : hitsOf archInfo index o with
      | nil =>
          rw [hhits] at hlength hdevice
          rw [Scan.fps, Option.map_eq_none_iff.mp hdevice] at hlength
          simpa using congrArg (· = 0) hlength
      | cons first rest =>
          rw [hhits] at hlength hdevice hall
          obtain ⟨final, hfinal, -⟩ := Option.map_eq_some_iff.mp (hdevice.trans List.getLast?_cons)
          rw [Scan.fps, hfinal] at hlength
          have hcount : 1 + scan.lost.length = rest.length + 1 + s.lost.length := by
            simpa [Nat.add_comm] using hlength
          have hopens := hall first (by simp)
          simp only [List.length_cons, List.head?_cons, Option.mem_some_iff, exists_eq_left',
            hopens, Bool.true_eq_false, or_false]
          omega
  | false =>
      rw [if_neg (by simp), hlength]
      clear hlength hdevice
      cases hhits : hitsOf archInfo index o with
      | nil =>
          rw [hhits] at hends
          cases hends
      | cons first rest =>
          rw [hhits] at hends
          cases hopens : opens index o first with
          | true =>
              have hrest : rest ≠ [] := by
                rintro rfl
                simp [hopens] at hends
              have hpos := List.length_pos_of_ne_nil hrest
              simp only [List.takeWhile_cons, hopens, if_true, List.length_cons, List.head?_cons,
                Option.mem_some_iff, exists_eq_left', Bool.true_eq_false, or_false]
              omega
          | false => simp [hopens]

theorem lost_step {call : Fam15Call} (hstep : step arch archInfo s call = .ok s') :
    s'.lost = [] ↔ s.lost = [] ∧ KeepsFiles arch archInfo call := by
  cases call with
  | setup counterType index o =>
      cases setup_cases hstep with
      | same hscan => exact (and_iff_left fun ⟨cpu, hfrom⟩ => absurd hfrom (hscan cpu)).symm
      | gaveUp hfrom hends =>
          rw [KeepsFiles, imp_iff_right ⟨_, hfrom⟩, ← hends.lost_eq_nil]
          rfl
      | noDevice hfrom hends _ =>
          rw [KeepsFiles, imp_iff_right ⟨_, hfrom⟩, ← hends.lost_eq_nil]
          rfl
      | closed hfrom hends _ =>
          rw [KeepsFiles, imp_iff_right ⟨_, hfrom⟩, ← hends.lost_eq_nil]
          rfl
      | added hfrom hends _ =>
          rw [KeepsFiles, imp_iff_right ⟨_, hfrom⟩, ← hends.lost_eq_nil]
          rfl
  | read position r =>
      cases hstep
      exact (and_iff_left trivial).symm
  | close position =>
      cases hstep
      have hsame : (doClose s position).lost = s.lost := by
        unfold doClose
        split <;> rfl
      rw [hsame]
      exact (and_iff_left trivial).symm

/-- **A run loses no file exactly if** every `setup` that scans finds at most one device of its
package, or cannot open the file of the first. -/
theorem loses_no_file_iff (hfresh : Fresh s)
    (hrun : Transition.run (step arch archInfo) s calls = .ok s') :
    s'.lost = [] ↔ ∀ call ∈ calls, KeepsFiles arch archInfo call := by
  rw [Transition.run_iff_meets (fun _ _ _ hstep => lost_step hstep) hrun,
    Transition.meets_iff_forall hrun]
  exact and_iff_right hfresh.2.1

theorem loses_no_file_fam15Calls :
    ∃ s', Transition.run (step twoNodes twoNodes) noFiles fam15Calls = .ok s' ∧
      (s'.lost = [] ↔ ∀ call ∈ fam15Calls, KeepsFiles twoNodes twoNodes call) := by
  obtain ⟨s', hrun, -⟩ := run_fam15Calls
  exact ⟨s', hrun, loses_no_file_iff noFiles_fresh hrun⟩

end Runs

section Energy

/-- All readings of a counter, by the client and by its overflow thread, which exclude each
other. -/
def readAll (counter : Fam15Counter) (reads : List Fam15Read) : Fam15Counter :=
  reads.foldl (fun counter r => (doRead r counter).2) counter

/-- The readings that are not refused, each with the time since the one before. -/
def intervals : Timeval → List (Timeval × Int) → List (Int × Int)
  | _, [] => []
  | last, (tv, power) :: rest => (micros last tv, power) :: intervals tv rest

/-- What the readings after those of a counter add to its energy. -/
def stepsOf (counter : Fam15Counter) (reads : List Fam15Read) : List (Int × Int) :=
  intervals counter.lastReadingTv (reads.filterMap Fam15Read.taken)

theorem micros_self (tv : Timeval) : micros tv tv = 0 := by
  unfold micros
  omega

theorem micros_add (first tv last : Timeval) :
    micros first tv + micros tv last = micros first last := by
  unfold micros
  omega

theorem doRead_refused {r : Fam15Read} (h : r.taken = none) (counter : Fam15Counter) :
    doRead r counter = (-1.0, counter) := by
  rw [doRead, h]

theorem doRead_taken {r : Fam15Read} {tv : Timeval} {power : Int} (h : r.taken = some (tv, power))
    (counter : Fam15Counter) :
    (doRead r counter).2 =
      { counter with
        energy := addEnergy counter.energy (micros counter.lastReadingTv tv) power
        lastReadingTv := tv } := by
  rw [doRead, h]

theorem stepsOf_refused {r : Fam15Read} (h : r.taken = none) (counter : Fam15Counter)
    (reads : List Fam15Read) : stepsOf counter (r :: reads) = stepsOf counter reads := by
  rw [stepsOf, List.filterMap_cons_none h, stepsOf]

theorem stepsOf_taken {r : Fam15Read} {tv : Timeval} {power : Int} (h : r.taken = some (tv, power))
    (counter : Fam15Counter) (reads : List Fam15Read) :
    stepsOf counter (r :: reads) =
      (micros counter.lastReadingTv tv, power) :: stepsOf (doRead r counter).2 reads := by
  rw [stepsOf, List.filterMap_cons_some h, intervals, doRead_taken h, stepsOf]

/-- The energy is the sum over the intervals. -/
theorem energy_readAll (reads : List Fam15Read) (counter : Fam15Counter) :
    (readAll counter reads).energy =
      (stepsOf counter reads).foldl (fun energy step => addEnergy energy step.1 step.2)
        counter.energy := by
  induction reads generalizing counter with
  | nil => rfl
  | cons r reads ih =>
      have hcons : readAll counter (r :: reads) = readAll (doRead r counter).2 reads := rfl
      rw [hcons, ih]
      cases htaken : r.taken with
      | none => rw [doRead_refused htaken, stepsOf_refused htaken]
      | some taken =>
          obtain ⟨tv, power⟩ := taken
          rw [stepsOf_taken htaken, doRead_taken htaken]
          rfl

/-- The intervals make up the time from the first reading to the last. -/
theorem sum_stepsOf (reads : List Fam15Read) (counter : Fam15Counter) :
    ((stepsOf counter reads).map Prod.fst).sum =
      micros counter.lastReadingTv (readAll counter reads).lastReadingTv := by
  induction reads generalizing counter with
  | nil => exact (micros_self _).symm
  | cons r reads ih =>
      have hcons : readAll counter (r :: reads) = readAll (doRead r counter).2 reads := rfl
      have hrest := ih (doRead r counter).2
      rw [hcons]
      cases htaken : r.taken with
      | none =>
          rw [doRead_refused htaken] at hrest ⊢
          rw [stepsOf_refused htaken]
          exact hrest
      | some taken =>
          obtain ⟨tv, power⟩ := taken
          have htv : (doRead r counter).2.lastReadingTv = tv := by rw [doRead_taken htaken]
          rw [stepsOf_taken htaken, List.map_cons, List.sum_cons, hrest, htv, micros_add]

/-- The powers of the steps are those of the readings. -/
theorem exists_taken_of_mem_intervals {taken : List (Timeval × Int)} {last : Timeval}
    {step : Int × Int} (h : step ∈ intervals last taken) : ∃ r ∈ taken, r.2 = step.2 := by
  induction taken generalizing last with
  | nil => cases h
  | cons first rest ih =>
      obtain ⟨tv, power⟩ := first
      rcases List.mem_cons.mp h with rfl | h
      · exact ⟨(tv, power), by simp, rfl⟩
      · obtain ⟨r, hr, heq⟩ := ih h
        exact ⟨r, List.mem_cons_of_mem _ hr, heq⟩

/-- A sum of products lies between those with the least and with the greatest factor. -/
theorem sum_mul_bounds {steps : List (Int × Int)} {low high : Int}
    (htime : ∀ step ∈ steps, 0 ≤ step.1) (hpower : ∀ step ∈ steps, low ≤ step.2 ∧ step.2 ≤ high) :
    low * (steps.map Prod.fst).sum ≤ (steps.map fun step => step.1 * step.2).sum ∧
      (steps.map fun step => step.1 * step.2).sum ≤ high * (steps.map Prod.fst).sum := by
  induction steps with
  | nil => simp
  | cons step steps ih =>
      obtain ⟨hlow, hhigh⟩ := ih (fun s hs => htime s (List.mem_cons_of_mem _ hs))
        fun s hs => hpower s (List.mem_cons_of_mem _ hs)
      have hfirst := htime step (by simp)
      obtain ⟨hl, hh⟩ := hpower step (by simp)
      have h₁ := mul_le_mul_of_nonneg_left hl hfirst
      have h₂ := mul_le_mul_of_nonneg_left hh hfirst
      simp only [List.map_cons, List.sum_cons, mul_add]
      constructor <;> nlinarith

/-- **The readings of a counter account for all its time once**: the energy adds up, in `double`s,
time times power over intervals that make up the time between the first and the last reading; a
reading that is refused loses nothing.  So if the clock does not go back and the power
stays within bounds, the exact sum of the products, in pJ, stays within those of the time. -/
theorem energy_accounts (counter : Fam15Counter) (reads : List Fam15Read) :
    (readAll counter reads).energy =
        (stepsOf counter reads).foldl
          (fun e step => e + 1e-6 * Float.ofInt step.1 * (1e-6 * Float.ofInt step.2))
          counter.energy ∧
      ((stepsOf counter reads).map Prod.fst).sum =
        micros counter.lastReadingTv (readAll counter reads).lastReadingTv ∧
      ∀ low high : Int, (∀ step ∈ stepsOf counter reads, 0 ≤ step.1) →
        (∀ taken ∈ reads.filterMap Fam15Read.taken, low ≤ taken.2 ∧ taken.2 ≤ high) →
        low * micros counter.lastReadingTv (readAll counter reads).lastReadingTv ≤
            ((stepsOf counter reads).map fun step => step.1 * step.2).sum ∧
          ((stepsOf counter reads).map fun step => step.1 * step.2).sum ≤
            high * micros counter.lastReadingTv (readAll counter reads).lastReadingTv := by
  have hsum := sum_stepsOf reads counter
  refine ⟨energy_readAll reads counter, hsum, fun low high htime hpower => ?_⟩
  rw [← hsum]
  refine sum_mul_bounds htime fun step hstep => ?_
  obtain ⟨taken, htaken, heq⟩ := exists_taken_of_mem_intervals hstep
  rw [← heq]
  exact hpower taken htaken

end Energy

end SysfsFam15

end Access
end X86Energy
