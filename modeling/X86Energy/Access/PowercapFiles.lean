import X86Energy.Access.PowercapZones
import X86Energy.Access.SysfsReads
import X86Energy.Library.OpenFiles
import X86Energy.Library.Transition
import X86Energy.ParseArchitecture.FindArch

/-!
# The files of the sysfs source

`setup` of `sysfs-powercap-rapl` opens the files `name` of an entry and of its parent, then
the file `energy_uj` of the zone that it was looking for, which stays open for the counter.
Each line is read with `getline` into a buffer that nothing frees.

**Results.**
* `Sysfs.files_held`: in every run, the files that are open between two calls are those of the
  counters, each once;
* `Sysfs.frees_buffers_iff`: which runs leave no buffer behind;
* `Sysfs.refused_of_init`: where `init` fails, no `setup` looks at a file.
-/

namespace X86Energy
namespace Access

open CInt CText Architecture ArchNode OpenFiles
open ParseArchitecture (oneCpuTree)
open PowercapTree (plainDir)
open Search (Verdict)

namespace Sysfs

/-- `struct reader_def` with the file `fp`. -/
structure SysfsHandle extends SysfsCounter where
  fp : Nat

/-- The files that are open, by path, and the number of buffers that `getline` has allocated. -/
structure SysfsMemory where
  files : Files (List Char)
  buffers : Nat

/-- The counters in use, and the memory of the source. -/
structure SysfsState where
  counters : List SysfsHandle
  memory : SysfsMemory

/-- The calls of a client; the directory may change between them. -/
inductive SysfsCall
  | init (opensDir : Bool) (dir : Powercap)
  | setup (counterType : Counter) (index : Nat) (dir : Powercap) (o : SysfsOutcome)
  | read (position : Nat) (read : FileRead)
  | close (position : Nat)
  | fini

/-- `init`: the result. -/
def init (opensDir : Bool) (dir : Powercap) : Int :=
  if opensDir then
    let totalFiles := dir.namelist.length
    let foundIndex :=
      if totalFiles > 0 then
        let i := dir.namelist.findIdx fun dName => (scanZone dName).isSome
        if i < totalFiles then i else totalFiles
      else 0
    if foundIndex < totalFiles then 0 else 1
  else 1

section Scan

variable (dir : Powercap)

def namePath (dName : List Char) : List Char := dName ++ "/name".toList

def energyPath (dName : List Char) : List Char := dName ++ "/energy_uj".toList

def maxPath (dName : List Char) : List Char := dName ++ "/max_energy_range_uj".toList

/-- A file is opened and closed again. -/
def SysfsMemory.visit (m : SysfsMemory) (path : List Char) : SysfsMemory :=
  { m with files := (m.files.fopen path).fclose m.files.next }

/-- `fopen`, `getline` and `fclose` of the file `name` of a directory. -/
def SysfsMemory.readLine (m : SysfsMemory) (dName : List Char) : SysfsMemory :=
  if (dir.nameFile dName).isSome then
    { m.visit (namePath dName) with buffers := m.buffers + 1 }
  else m

/-- The end of a round for a zone of the wanted package, with the text of its own name. -/
def openZone (name dName buffer : List Char) (m : SysfsMemory) :
    Except SysfsFault (SysfsMemory × Verdict (Nat × Int)) :=
  let buffer := if packageText <+: buffer then packageText else buffer
  if name ≠ buffer then .ok (m, .next)
  else if !dir.energyOpens dName then .ok (m, .stop)
  else
    let finalFp := m.files.next
    let m := { m with files := m.files.fopen (energyPath dName) }
    match dir.maxFile dName with
    | .cannotOpen => .ok (m, .found (finalFp, -1))
    | .noNumber => .ok (m.visit (maxPath dName), .found (finalFp, -1))
    | .empty => .error .uninitialized
    | .value max => .ok (m.visit (maxPath dName), .found (finalFp, max))

/-- One round of the scan: `found` has `final_fp` and `final_max`. -/
def openEntry (name : List Char) (givenPackage : Int) (dName : List Char) (m : SysfsMemory) :
    Except SysfsFault (SysfsMemory × Verdict (Nat × Int)) :=
  match scanZone dName with
  | none => .ok (m, .next)
  | some package =>
      let m := m.readLine dir (zonePrefix ++ decimal package)
      match readName (dir.nameFile (zonePrefix ++ decimal package)) with
      | .error e => .error e
      | .ok none => .ok (m, .stop)
      | .ok (some buffer) =>
          if ¬ packageText <+: buffer then .ok (m, .stop)
          else
            match scanPackage buffer with
            | none => .ok (m, .stop)
            | some number =>
                if toInt32 number.value = 0 ∧ number.erange then .ok (m, .stop)
                else if toInt32 number.value ≠ givenPackage then .ok (m, .next)
                else
                  let m := m.readLine dir dName
                  match readName (dir.nameFile dName) with
                  | .error e => .error e
                  | .ok none => .ok (m, .stop)
                  | .ok (some own) => openZone dir name dName own m

/-- The loop of `setup` on what is left of the list: the memory, and the directory, `final_fp`
and `final_max`. -/
def openZones (name : List Char) (givenPackage : Int) :
    List (List Char) → SysfsMemory →
      Except SysfsFault (SysfsMemory × Option (List Char × Nat × Int))
  | [], m => .ok (m, none)
  | dName :: names, m =>
      match openEntry dir name givenPackage dName m with
      | .error e => .error e
      | .ok (m, .next) => openZones name givenPackage names m
      | .ok (m, .stop) => .ok (m, none)
      | .ok (m, .found result) => .ok (m, some (dName, result))

/-- The scan of `setup`. -/
def openFor (counterType : Counter) (index : Nat) (m : SysfsMemory) :
    Except SysfsFault (SysfsMemory × Option (List Char × Nat × Int)) :=
  openZones dir (sysfsNames counterType) (toInt32 index) dir.namelist.reverse m

end Scan

/-- `setup` behind the scan, with `final_fp`. -/
def finishSetup (s : SysfsState) (zone : List Char) (finalFp : Nat) (finalMax package cpu : Int)
    (o : SysfsOutcome) : SysfsState :=
  let closed := { s with memory := { s.memory with files := s.memory.files.fclose finalFp } }
  if finalMax = -1 then closed
  else
    match o.reading with
    | none => closed
    | some lastReading =>
        if !o.seeks then closed
        else if !o.flushes then closed
        else if !o.startsThread then closed
        else
          let counter : SysfsCounter := ⟨zone, package, cpu, lastReading, 0, finalMax⟩
          { s with counters := s.counters ++ [⟨counter, finalFp⟩] }

/-- `setup` with the files that it opens. -/
def setupHandle (arch : ArchNode) (s : SysfsState) (counterType : Counter) (index : Nat)
    (dir : Powercap) (o : SysfsOutcome) : Except SysfsFault SysfsState :=
  let granularity := if counterType ≠ .singleCore then Granularity.socket else .core
  match getTestCpu arch granularity index with
  | none => .error .missingChild
  | some cpu =>
      if cpu < 0 then .ok s
      else if !o.opensDir then .ok s
      else
        match openFor dir counterType index s.memory with
        | .error e => .error e
        | .ok (m, none) => .ok { s with memory := m }
        | .ok (m, some (zone, finalFp, finalMax)) =>
            .ok (finishSetup { s with memory := m } zone finalFp finalMax (toInt32 index) cpu o)

/-- `do_close`. -/
def doClose (s : SysfsState) (position : Nat) : SysfsState :=
  match s.counters[position]? with
  | none => s
  | some counter =>
      { s with
        counters := s.counters.eraseIdx position
        memory := { s.memory with files := s.memory.files.fclose counter.fp } }

/-- `do_read` on a counter with its file. -/
def readHandle (read : FileRead) (counter : SysfsHandle) : SysfsHandle :=
  { counter with toSysfsCounter := (doRead read counter.toSysfsCounter).2 }

/-- One call. -/
def step (arch : ArchNode) (s : SysfsState) : SysfsCall → Except SysfsFault SysfsState
  | .init _ _ => .ok s
  | .setup counterType index dir o => setupHandle arch s counterType index dir o
  | .read position read =>
      .ok { s with counters := s.counters.modify position (readHandle read) }
  | .close position => .ok (doClose s position)
  | .fini => .ok s

section Rounds

variable {dir : Powercap} {name : List Char} {givenPackage : Int} {counters : List SysfsHandle}
variable {m m' : SysfsMemory}

/-- Each counter has the file of its zone, and the files that are open are those of the counters
and the others. -/
abbrev Answers (files : Files (List Char)) (counters : List SysfsHandle) (others : List Nat) :
    Prop :=
  OwnedBy (fun counter : SysfsHandle => counter.fp) (fun counter => energyPath counter.zone) files
    counters others

/-- What the scan knows of a round without the files. -/
def withoutFp : Verdict (Nat × Int) → Verdict Int
  | .next => .next
  | .stop => .stop
  | .found result => .found result.2

/-- An entry is a zone whose parent has a file `name` that can be opened. -/
def parentNamed (dir : Powercap) (dName : List Char) : Bool :=
  (scanZone dName).any fun package => (dir.nameFile (zonePrefix ++ decimal package)).isSome

/-- What a round leaves open, and how many buffers it takes at least. -/
def Leaves (dir : Powercap) (counters : List SysfsHandle) (dName : List Char)
    (m m' : SysfsMemory) : Verdict (Nat × Int) → Prop
  | .found (fp, _) => Answers m'.files counters [fp] ∧
      m'.files.opened fp = some (energyPath dName) ∧ m.buffers + 2 ≤ m'.buffers
  | _ => Answers m'.files counters [] ∧ m.buffers + (parentNamed dir dName).toNat ≤ m'.buffers

theorem Answers.readLine {others : List Nat} (h : Answers m.files counters others)
    (dir : Powercap) (dName : List Char) : Answers (m.readLine dir dName).files counters others := by
  unfold SysfsMemory.readLine
  split
  · exact (h.fopen _).fclose
  · exact h

theorem buffers_readLine (dir : Powercap) (m : SysfsMemory) (dName : List Char) :
    (m.readLine dir dName).buffers = m.buffers + (dir.nameFile dName).isSome.toNat := by
  unfold SysfsMemory.readLine
  cases (dir.nameFile dName).isSome <;> rfl

theorem isSome_of_readName {content : Option (List Char)} {buffer : List Char}
    (h : readName content = .ok (some buffer)) : content.isSome = true := by
  cases content with
  | none => cases h
  | some content => rfl

theorem openZone_judge (dName own : List Char) :
    (openZone dir name dName own m).map (fun r => withoutFp r.2) =
      judgeZone dir name dName own := by
  unfold openZone judgeZone
  simp only
  generalize (if packageText <+: own then packageText else own) = buffer
  by_cases hname : name ≠ buffer
  · rw [if_pos hname, if_pos hname]
    rfl
  · rw [if_neg hname, if_neg hname]
    cases dir.energyOpens dName with
    | false => rfl
    | true => cases dir.maxFile dName <;> rfl

/-- **The rounds are those of the scan** without the files. -/
theorem openEntry_judge (dName : List Char) (m : SysfsMemory) :
    (openEntry dir name givenPackage dName m).map (fun r => withoutFp r.2) =
      judgeEntry dir name givenPackage dName := by
  unfold openEntry judgeEntry
  cases scanZone dName with
  | none => rfl
  | some package =>
      simp only
      cases readName (dir.nameFile (zonePrefix ++ decimal package)) with
      | error e => rfl
      | ok line =>
          cases line with
          | none => rfl
          | some buffer =>
              simp only
              by_cases hpackage : packageText <+: buffer
              · rw [if_neg (not_not_intro hpackage), if_neg (not_not_intro hpackage)]
                cases scanPackage buffer with
                | none => rfl
                | some number =>
                    simp only
                    by_cases hrange : toInt32 number.value = 0 ∧ number.erange
                    · rw [if_pos hrange, if_pos hrange]
                      rfl
                    · rw [if_neg hrange, if_neg hrange]
                      by_cases hother : toInt32 number.value ≠ givenPackage
                      · rw [if_pos hother, if_pos hother]
                        rfl
                      · rw [if_neg hother, if_neg hother]
                        cases readName (dir.nameFile dName) with
                        | error e => rfl
                        | ok line =>
                            cases line with
                            | none => rfl
                            | some own => exact openZone_judge dName own
              · rw [if_pos hpackage, if_pos hpackage]
                rfl

theorem openZone_leaves {dName own : List Char} {v : Verdict (Nat × Int)} {base : SysfsMemory}
    (h : Answers m.files counters []) (hbuffers : base.buffers + 2 ≤ m.buffers)
    (hopen : openZone dir name dName own m = .ok (m', v)) :
    Leaves dir counters dName base m' v := by
  have hle : base.buffers + (parentNamed dir dName).toNat ≤ m.buffers := by
    have := (parentNamed dir dName).toNat_le
    omega
  unfold openZone at hopen
  simp only at hopen
  generalize (if packageText <+: own then packageText else own) = buffer at hopen
  split at hopen
  · cases hopen
    exact ⟨h, hle⟩
  · split at hopen
    · cases hopen
      exact ⟨h, hle⟩
    · have hfp := h.fopen (energyPath dName)
      have hopened := opened_fopen m.files (energyPath dName)
      split at hopen
      · cases hopen
        exact ⟨hfp, hopened, hbuffers⟩
      · cases hopen
        exact ⟨(hfp.fopen _).fclose, (hfp.opened_visit _ _).trans hopened, hbuffers⟩
      · cases hopen
      · cases hopen
        exact ⟨(hfp.fopen _).fclose, (hfp.opened_visit _ _).trans hopened, hbuffers⟩

theorem openEntry_leaves {dName : List Char} {v : Verdict (Nat × Int)}
    (h : Answers m.files counters [])
    (hopen : openEntry dir name givenPackage dName m = .ok (m', v)) :
    Leaves dir counters dName m m' v := by
  unfold openEntry at hopen
  split at hopen
  · rename_i hzone
    cases hopen
    exact ⟨h, by simp [parentNamed, hzone]⟩
  · rename_i package hzone
    have hnamed : parentNamed dir dName =
        (dir.nameFile (zonePrefix ++ decimal package)).isSome := by
      simp [parentNamed, hzone]
    have hparent := h.readLine dir (zonePrefix ++ decimal package)
    have hcount := buffers_readLine dir m (zonePrefix ++ decimal package)
    have hle : m.buffers + (parentNamed dir dName).toNat ≤
        (m.readLine dir (zonePrefix ++ decimal package)).buffers := by
      rw [hnamed, hcount]
    simp only at hopen
    split at hopen
    · cases hopen
    · cases hopen
      exact ⟨hparent, hle⟩
    · rename_i buffer hread
      rw [isSome_of_readName hread, Bool.toNat_true] at hcount
      split at hopen
      · cases hopen
        exact ⟨hparent, hle⟩
      · split at hopen
        · cases hopen
          exact ⟨hparent, hle⟩
        · split at hopen
          · cases hopen
            exact ⟨hparent, hle⟩
          · split at hopen
            · cases hopen
              exact ⟨hparent, hle⟩
            · have hown := hparent.readLine dir dName
              have hcount' := buffers_readLine dir
                (m.readLine dir (zonePrefix ++ decimal package)) dName
              split at hopen
              · cases hopen
              · cases hopen
                exact ⟨hown, by omega⟩
              · rename_i own hread'
                rw [isSome_of_readName hread', Bool.toNat_true] at hcount'
                exact openZone_leaves hown (by omega) hopen

/-- What the loop leaves. -/
theorem openZones_leaves {names : List (List Char)} {found : Option (List Char × Nat × Int)}
    (h : Answers m.files counters [])
    (hopen : openZones dir name givenPackage names m = .ok (m', found)) :
    m.buffers ≤ m'.buffers ∧
      match found with
      | none => Answers m'.files counters []
      | some (zone, fp, _) => Answers m'.files counters [fp] ∧
          m'.files.opened fp = some (energyPath zone) ∧ m.buffers + 2 ≤ m'.buffers := by
  induction names generalizing m with
  | nil =>
      cases hopen
      exact ⟨Nat.le_refl _, h⟩
  | cons dName names ih =>
      unfold openZones at hopen
      split at hopen
      · cases hopen
      · rename_i m₁ hentry
        obtain ⟨howned, hle⟩ := openEntry_leaves h hentry
        obtain ⟨hle', hfound⟩ := ih howned hopen
        refine ⟨by omega, ?_⟩
        cases found with
        | none => exact hfound
        | some found => exact ⟨hfound.1, hfound.2.1, by have := hfound.2.2; omega⟩
      · rename_i m₁ hentry
        obtain ⟨howned, hle⟩ := openEntry_leaves h hentry
        cases hopen
        exact ⟨by omega, howned⟩
      · rename_i m₁ result hentry
        obtain ⟨howned, hopened, hle⟩ := openEntry_leaves h hentry
        cases hopen
        exact ⟨by omega, howned, hopened, hle⟩

/-- The last entry that is a zone has no parent with a file `name` that can be opened. -/
def ReadsNoName (dir : Powercap) (names : List (List Char)) : Prop :=
  ∀ dName ∈ names.find? fun dName => (scanZone dName).isSome, parentNamed dir dName = false

/-- The loop takes no buffer exactly if it reads no file `name`. -/
theorem openZones_buffers {names : List (List Char)} {found : Option (List Char × Nat × Int)}
    (h : Answers m.files counters [])
    (hopen : openZones dir name givenPackage names m = .ok (m', found)) :
    m'.buffers = m.buffers ↔ ReadsNoName dir names := by
  induction names generalizing m with
  | nil =>
      cases hopen
      exact iff_of_true rfl nofun
  | cons dName names ih =>
      unfold ReadsNoName
      cases hzone : scanZone dName with
      | none =>
          have hentry : openEntry dir name givenPackage dName m = .ok (m, .next) := by
            rw [openEntry, hzone]
          unfold openZones at hopen
          rw [hentry] at hopen
          rw [List.find?_cons_of_neg (by simp [hzone])]
          exact ih h hopen
      | some package =>
          rw [List.find?_cons_of_pos (by simp [hzone])]
          simp only [Option.mem_some_iff, forall_eq']
          cases hparent : dir.nameFile (zonePrefix ++ decimal package) with
          | none =>
              have hentry : openEntry dir name givenPackage dName m = .ok (m, .stop) := by
                simp [openEntry, hzone, hparent, readName, SysfsMemory.readLine]
              unfold openZones at hopen
              rw [hentry] at hopen
              cases hopen
              exact iff_of_true rfl (by simp [parentNamed, hzone, hparent])
          | some content =>
              have hnamed : parentNamed dir dName = true := by
                simp [parentNamed, hzone, hparent]
              refine iff_of_false (fun heq => ?_) (by simp [hnamed])
              unfold openZones at hopen
              split at hopen
              · cases hopen
              · rename_i m₁ hentry
                obtain ⟨howned, hle⟩ := openEntry_leaves h hentry
                have hrest := (openZones_leaves howned hopen).1
                rw [hnamed, Bool.toNat_true] at hle
                omega
              · rename_i m₁ hentry
                have hle := (openEntry_leaves h hentry).2
                rw [hnamed, Bool.toNat_true] at hle
                cases hopen
                omega
              · rename_i m₁ result hentry
                have hle := (openEntry_leaves h hentry).2.2
                cases hopen
                omega

/-- **The loop is the scan** with the files that it opens. -/
theorem openZones_scan (dir : Powercap) (name : List Char) (givenPackage : Int)
    (names : List (List Char)) (m : SysfsMemory) :
    (openZones dir name givenPackage names m).map
        (fun r => r.2.map fun found => (found.1, found.2.2)) =
      Search.search (judgeEntry dir name givenPackage) names := by
  induction names generalizing m with
  | nil => rfl
  | cons dName names ih =>
      unfold openZones Search.search
      rw [← openEntry_judge dName m]
      cases openEntry dir name givenPackage dName m with
      | error e => rfl
      | ok round =>
          obtain ⟨m₁, verdict⟩ := round
          cases verdict with
          | next => exact ih m₁
          | stop => rfl
          | found result => rfl

end Rounds

section Runs

variable {arch : ArchNode} {dir : Powercap} {s s' : SysfsState}

/-- The files that are open are those of the counters, each once. -/
def FilesHeld (s : SysfsState) : Prop := Answers s.memory.files s.counters []

/-- A process before the first `init`. -/
def Fresh (s : SysfsState) : Prop :=
  s.counters = [] ∧ s.memory.files.opened = Ownership.empty ∧ s.memory.buffers = 0

theorem Fresh.filesHeld (h : Fresh s) : FilesHeld s := by
  unfold FilesHeld
  rw [h.1]
  exact ownedBy_empty h.2.1

/-- A `setup` gets to its scan. -/
def Scans (arch : ArchNode) (counterType : Counter) (index : Nat) (o : SysfsOutcome) (cpu : Int) :
    Prop :=
  getTestCpu arch (if counterType ≠ .singleCore then .socket else .core) index = some cpu ∧
    ¬ cpu < 0 ∧ o.opensDir = true

/-- What a `setup` can do. -/
inductive SetupCases (arch : ArchNode) (s : SysfsState) (counterType : Counter) (index : Nat)
    (dir : Powercap) (o : SysfsOutcome) : SysfsState → Prop
  | same (h : ∀ cpu, ¬ Scans arch counterType index o cpu) :
      SetupCases arch s counterType index dir o s
  | nothing {cpu : Int} {m : SysfsMemory} (hscans : Scans arch counterType index o cpu)
      (hopen : openFor dir counterType index s.memory = .ok (m, none)) :
      SetupCases arch s counterType index dir o { s with memory := m }
  | closed {cpu : Int} {m : SysfsMemory} {zone : List Char} {fp : Nat} {max : Int}
      (hscans : Scans arch counterType index o cpu)
      (hopen : openFor dir counterType index s.memory = .ok (m, some (zone, fp, max))) :
      SetupCases arch s counterType index dir o
        { s with memory := { m with files := m.files.fclose fp } }
  | added {cpu : Int} {m : SysfsMemory} {zone : List Char} {fp : Nat} {max : Int}
      (hscans : Scans arch counterType index o cpu)
      (hopen : openFor dir counterType index s.memory = .ok (m, some (zone, fp, max))) (lastReading : Int) :
      SetupCases arch s counterType index dir o
        { s with
          counters := s.counters ++ [⟨⟨zone, toInt32 index, cpu, lastReading, 0, max⟩, fp⟩]
          memory := m }

variable {counterType : Counter} {index : Nat} {o : SysfsOutcome}

theorem setupHandle_cases (h : setupHandle arch s counterType index dir o = .ok s') :
    SetupCases arch s counterType index dir o s' := by
  unfold setupHandle at h
  simp only at h
  split at h
  · cases h
  · rename_i cpu hcpu
    split at h
    · rename_i hneg
      cases h
      refine .same fun cpu' hscans => ?_
      rw [hscans.1] at hcpu
      cases hcpu
      exact hscans.2.1 hneg
    · rename_i hneg
      split at h
      · rename_i hdir
        cases h
        refine .same fun cpu' hscans => ?_
        rw [hscans.2.2] at hdir
        cases hdir
      · rename_i hdir
        have hscans : Scans arch counterType index o cpu := ⟨hcpu, hneg, by simpa using hdir⟩
        split at h
        · cases h
        · rename_i m hopen
          cases h
          exact .nothing hscans hopen
        · rename_i m zone fp max hopen
          have hend : finishSetup { s with memory := m } zone fp max (toInt32 index) cpu o = s' :=
            Except.ok.inj h
          rw [← hend]
          unfold finishSetup
          simp only
          split
          · exact .closed hscans hopen
          · split
            · exact .closed hscans hopen
            · rename_i lastReading hlast
              split
              · exact .closed hscans hopen
              · split
                · exact .closed hscans hopen
                · split
                  · exact .closed hscans hopen
                  · exact .added hscans hopen lastReading

/-- The end of `setup` without the files. -/
theorem finishSetup_counters (zone : List Char) (fp : Nat) (max package cpu : Int)
    (o : SysfsOutcome) :
    (finishSetup s zone fp max package cpu o).counters.map SysfsHandle.toSysfsCounter =
      s.counters.map SysfsHandle.toSysfsCounter ++
        (if max = -1 then none
          else
            match o.reading with
            | none => none
            | some lastReading =>
                if !o.seeks || !o.flushes || !o.startsThread then none
                else some ⟨zone, package, cpu, lastReading, 0, max⟩ :
          Option SysfsCounter).toList := by
  unfold finishSetup
  by_cases hmax : max = -1
  · simp [hmax]
  · cases o.reading with
    | none => simp [hmax]
    | some lastReading =>
        simp only [if_neg hmax]
        cases o.seeks <;> cases o.flushes <;> cases o.startsThread <;> simp

/-- **The `setup` with files is the `setup` of the source**: it adds the counter that this one
returns. -/
theorem setupHandle_setup :
    (setupHandle arch s counterType index dir o).map
        (fun s' => s'.counters.map SysfsHandle.toSysfsCounter) =
      (setup arch dir counterType index o).map
        fun counter => s.counters.map SysfsHandle.toSysfsCounter ++ counter.toList := by
  have hscan := openZones_scan dir (sysfsNames counterType) (toInt32 index)
    dir.namelist.reverse s.memory
  unfold setupHandle openFor setup scan
  simp only
  cases getTestCpu arch (if counterType ≠ .singleCore then .socket else .core) index with
  | none => rfl
  | some cpu =>
      simp only
      by_cases hneg : cpu < 0
      · simp [hneg, Except.map]
      · rw [if_neg hneg, if_neg hneg]
        cases o.opensDir with
        | false => simp [Except.map]
        | true =>
            rw [← hscan]
            cases openZones dir (sysfsNames counterType) (toInt32 index) dir.namelist.reverse
                s.memory with
            | error e => rfl
            | ok result =>
                obtain ⟨m, found⟩ := result
                cases found with
                | none => simp [Except.map]
                | some found =>
                    obtain ⟨zone, fp, max⟩ := found
                    refine (congrArg Except.ok (finishSetup_counters zone fp max _ cpu o)).trans ?_
                    by_cases hmax : max = -1
                    · simp [hmax, Except.map]
                    · cases o.reading with
                      | none => simp [hmax, Except.map]
                      | some lastReading =>
                          simp only [if_neg hmax, Except.map, Option.map]
                          split <;> simp_all

theorem FilesHeld.setup (hheld : FilesHeld s)
    (h : setupHandle arch s counterType index dir o = .ok s') : FilesHeld s' := by
  cases setupHandle_cases h with
  | same => exact hheld
  | nothing _ hopen => exact (openZones_leaves hheld hopen).2
  | closed _ hopen => exact (openZones_leaves hheld hopen).2.1.fclose
  | added _ hopen =>
      obtain ⟨howned, hopened, -⟩ := (openZones_leaves hheld hopen).2
      exact howned.add hopened

theorem FilesHeld.doClose (h : FilesHeld s) (position : Nat) : FilesHeld (doClose s position) := by
  unfold Sysfs.doClose
  cases hget : s.counters[position]? with
  | none => exact h
  | some counter =>
      obtain ⟨hlt, rfl⟩ := List.getElem?_eq_some_iff.mp hget
      exact (OwnedBy.remove h hlt).fclose

/-- `do_read` leaves the zone of its counter. -/
theorem doRead_zone (read : FileRead) (counter : SysfsCounter) :
    (doRead read counter).2.zone = counter.zone := by
  unfold doRead
  split <;> rfl

/-- **Every call keeps the files.** -/
theorem FilesHeld.step {call : SysfsCall} (h : FilesHeld s) (hstep : step arch s call = .ok s') :
    FilesHeld s' := by
  cases call with
  | setup counterType index dir o => exact h.setup hstep
  | read position read =>
      cases hstep
      refine OwnedBy.congr h (Ownership.map_modify_of_keeps (fun counter => ?_) _ _)
      exact congrArg (fun zone => (counter.fp, energyPath zone)) (doRead_zone read _)
  | close position =>
      cases hstep
      exact h.doClose position
  | init | fini =>
      cases hstep
      exact h

variable {calls : List SysfsCall}

/-- **No file is lost**: in every run, the files that are open between two calls are those of the
counters in use, each once. -/
theorem files_held (hfresh : Fresh s) (hrun : Transition.run (step arch) s calls = .ok s') :
    FilesHeld s' :=
  Transition.run_invariant (fun _ _ _ _ hheld hstep => hheld.step hstep) hfresh.filesHeld hrun

/-- What a `setup` finds if no operation fails. -/
def allFine : SysfsOutcome := ⟨true, some 5, true, true, true⟩

/-- Counters for the package and for its cores, of which the first is read and closed. -/
def sysfsCalls : List SysfsCall :=
  [.init true plainDir, .setup .pckg 0 plainDir allFine, .setup .cores 0 plainDir allFine,
    .read 0 ⟨some 7, true, true⟩, .close 0]

def noCounters : SysfsState := ⟨[], ⟨⟨Ownership.empty, 0⟩, 0⟩⟩

theorem noCounters_fresh : Fresh noCounters := ⟨rfl, rfl, rfl⟩

theorem run_sysfsCalls :
    ∃ s', Transition.run (step oneCpuTree) noCounters sysfsCalls = .ok s' ∧
      s'.counters.map (fun counter => counter.zone) = ["intel-rapl:0:0".toList] ∧
      s'.memory.buffers = 6 :=
  ⟨_, rfl, rfl, rfl⟩

theorem files_held_sysfsCalls :
    ∃ s', Transition.run (step oneCpuTree) noCounters sysfsCalls = .ok s' ∧
      s'.counters.map (fun counter => counter.zone) = ["intel-rapl:0:0".toList] ∧ FilesHeld s' := by
  obtain ⟨s', hrun, hzones, -⟩ := run_sysfsCalls
  exact ⟨s', hrun, hzones, files_held noCounters_fresh hrun⟩

/-- A `setup` that scans reads no file `name`. -/
def KeepsBuffers (arch : ArchNode) : SysfsCall → Prop
  | .setup counterType index dir o =>
      (∃ cpu, Scans arch counterType index o cpu) → ReadsNoName dir dir.namelist.reverse
  | _ => True

theorem buffers_setup (hheld : FilesHeld s)
    (h : setupHandle arch s counterType index dir o = .ok s') :
    s'.memory.buffers = s.memory.buffers ↔ KeepsBuffers arch (.setup counterType index dir o) := by
  cases setupHandle_cases h with
  | same hscans => exact iff_of_true rfl fun ⟨cpu, hcpu⟩ => absurd hcpu (hscans cpu)
  | nothing hscans hopen =>
      rw [KeepsBuffers, imp_iff_right ⟨_, hscans⟩]
      exact openZones_buffers hheld hopen
  | closed hscans hopen =>
      have hiff := openZones_buffers hheld hopen
      rw [KeepsBuffers, imp_iff_right ⟨_, hscans⟩]
      exact hiff
  | added hscans hopen =>
      rw [KeepsBuffers, imp_iff_right ⟨_, hscans⟩]
      exact openZones_buffers hheld hopen

/-- A `setup` takes two buffers for each counter that it adds. -/
theorem buffers_le_setup (hheld : FilesHeld s)
    (h : setupHandle arch s counterType index dir o = .ok s') :
    s.memory.buffers + 2 * (s'.counters.length - s.counters.length) ≤ s'.memory.buffers ∧
      s.counters.length ≤ s'.counters.length := by
  cases setupHandle_cases h with
  | same => simp
  | nothing _ hopen =>
      have hle := (openZones_leaves hheld hopen).1
      simpa using hle
  | closed _ hopen =>
      have hle := (openZones_leaves hheld hopen).1
      simpa using hle
  | added _ hopen =>
      obtain ⟨-, -, hle⟩ := (openZones_leaves hheld hopen).2
      simpa using hle

theorem buffers_step {call : SysfsCall} (hheld : FilesHeld s)
    (hstep : step arch s call = .ok s') :
    (s'.memory.buffers = 0 ↔ s.memory.buffers = 0 ∧ KeepsBuffers arch call) ∧
      (2 * s.counters.length ≤ s.memory.buffers → 2 * s'.counters.length ≤ s'.memory.buffers) := by
  cases call with
  | setup counterType index dir o =>
      have hiff := buffers_setup hheld hstep
      obtain ⟨hle, hmore⟩ := buffers_le_setup hheld hstep
      refine ⟨?_, fun _ => by omega⟩
      rw [← hiff]
      omega
  | read position read =>
      cases hstep
      exact ⟨(and_iff_left trivial).symm, fun hle => by simpa using hle⟩
  | close position =>
      cases hstep
      have hsame : (doClose s position).memory.buffers = s.memory.buffers ∧
          (doClose s position).counters.length ≤ s.counters.length := by
        unfold doClose
        split
        · exact ⟨rfl, Nat.le_refl _⟩
        · exact ⟨rfl, List.length_eraseIdx_le _ _⟩
      rw [hsame.1]
      exact ⟨(and_iff_left trivial).symm, fun hle => by have := hsame.2; omega⟩
  | init | fini =>
      cases hstep
      exact ⟨(and_iff_left trivial).symm, id⟩

/-- **A run leaves no buffer behind exactly if** no `setup` that scans reads a file `name`.  So
each counter costs two buffers at least. -/
theorem frees_buffers_iff (hfresh : Fresh s)
    (hrun : Transition.run (step arch) s calls = .ok s') :
    (s'.memory.buffers = 0 ↔ ∀ call ∈ calls, KeepsBuffers arch call) ∧
      2 * s'.counters.length ≤ s'.memory.buffers := by
  have hzero : 2 * s.counters.length ≤ s.memory.buffers := by simp [hfresh.1]
  constructor
  · rw [Transition.run_iff_meets_of_invariant (I := FilesHeld)
        (fun _ _ _ hheld hstep => ⟨hheld.step hstep, (buffers_step hheld hstep).1⟩)
        hfresh.filesHeld hrun, Transition.meets_iff_forall hrun]
    exact and_iff_right hfresh.2.2
  · exact (Transition.run_invariant
      (I := fun s => FilesHeld s ∧ 2 * s.counters.length ≤ s.memory.buffers)
      (fun _ _ _ _ hs hstep => ⟨hs.1.step hstep, (buffers_step hs.1 hstep).2 hs.2⟩)
      ⟨hfresh.filesHeld, hzero⟩ hrun).2

theorem frees_buffers_sysfsCalls :
    ∃ s', Transition.run (step oneCpuTree) noCounters sysfsCalls = .ok s' ∧
      ¬ (∀ call ∈ sysfsCalls, KeepsBuffers oneCpuTree call) ∧
      2 * s'.counters.length ≤ s'.memory.buffers := by
  obtain ⟨s', hrun, -, hbuffers⟩ := run_sysfsCalls
  obtain ⟨hiff, hle⟩ := frees_buffers_iff noCounters_fresh hrun
  refine ⟨s', hrun, fun hkeeps => ?_, hle⟩
  rw [hiff.mpr hkeeps] at hbuffers
  cases hbuffers

end Runs

section Init

variable {arch : ArchNode} {dir : Powercap} {s s' : SysfsState}

/-- `init` succeeds exactly if an entry of the directory is a zone. -/
theorem init_eq_zero_iff {opensDir : Bool} :
    init opensDir dir = 0 ↔
      opensDir = true ∧ ∃ dName ∈ dir.namelist, (scanZone dName).isSome := by
  unfold init
  cases opensDir with
  | false => simp
  | true =>
      simp only [if_true, true_and, ← List.findIdx_lt_length (p := fun d => (scanZone d).isSome)]
      by_cases hfound : dir.namelist.findIdx (fun d => (scanZone d).isSome) < dir.namelist.length
      · have hpos : 0 < dir.namelist.length := by omega
        simp [hfound, hpos]
      · refine iff_of_false ?_ hfound
        rw [if_neg hfound]
        split
        · simp
        · simp

theorem openZones_of_no_zone {name : List Char} {givenPackage : Int} {names : List (List Char)}
    (h : ∀ dName ∈ names, scanZone dName = none) (m : SysfsMemory) :
    openZones dir name givenPackage names m = .ok (m, none) := by
  induction names with
  | nil => rfl
  | cons dName names ih =>
      obtain ⟨hzone, hnames⟩ := List.forall_mem_cons.mp h
      unfold openZones openEntry
      rw [hzone]
      exact ih hnames

/-- **Where `init` fails, no `setup` looks at a file.** -/
theorem refused_of_init {counterType : Counter} {index : Nat} {o : SysfsOutcome}
    (hinit : init o.opensDir dir ≠ 0)
    (h : setupHandle arch s counterType index dir o = .ok s') : s' = s := by
  rw [Ne, init_eq_zero_iff, not_and] at hinit
  have hnothing : ∀ {cpu}, Scans arch counterType index o cpu →
      openFor dir counterType index s.memory = .ok (s.memory, none) := by
    intro cpu hscans
    refine openZones_of_no_zone (fun dName hmem => ?_) _
    by_contra hsome
    exact hinit hscans.2.2
      ⟨dName, List.mem_reverse.mp hmem, Option.isSome_iff_ne_none.mpr hsome⟩
  cases setupHandle_cases h with
  | same => rfl
  | nothing hscans hopen =>
      rw [hnothing hscans] at hopen
      cases hopen
      rfl
  | closed hscans hopen =>
      rw [hnothing hscans] at hopen
      cases hopen
  | added hscans hopen =>
      rw [hnothing hscans] at hopen
      cases hopen

/-- A directory without entries. -/
def noZones : Powercap := { plainDir with namelist := [] }

theorem refused_of_init_noZones :
    init true noZones ≠ 0 ∧ ∃ s',
      setupHandle oneCpuTree noCounters .pckg 0 noZones allFine = .ok s' ∧ s' = noCounters := by
  have hinit : init allFine.opensDir noZones ≠ 0 := by decide
  obtain ⟨s', hsetup⟩ :
      ∃ s', setupHandle oneCpuTree noCounters .pckg 0 noZones allFine = .ok s' := ⟨_, rfl⟩
  exact ⟨hinit, s', hsetup, refused_of_init hinit hsetup⟩

end Init

end Sysfs

end Access
end X86Energy
