import X86Energy.Library.Block
import X86Energy.Library.Search

/-!
# The registry of overflow threads

An `ov_struct` has a `thread_info` for each CPU with a counter.  Its thread calls the
reads of the CPU from time to time; they are the pairs in the parallel arrays
`functions` and `t`.

The reads `ρ` and the counters `τ` are pointers that are only compared.  A `pthread_t`
is the number of the thread, from 1, as 0 means that there is none yet.  It can be any
number after a `pthread_create` that failed.

The last section says once for each operation what it can do (`create_cases`,
`removeCall_cases`); invariants of the registry are case analyses on that.
-/

namespace X86Energy
namespace OverflowThread

open Block
open Search (Verdict)

/-- Undefined behaviour: a slot that was not written, one that does not exist, the
`thread_info` of a CPU that has none, or a `pthread_t` that is not that of a thread. -/
inductive OvFault
  | uninitialized
  | outOfBounds
  | noThreadInfo
  | noThread
deriving DecidableEq, Repr

/-- A `pthread_mutex_t`. -/
inductive Mutex
  | zeroed
  | initialized
deriving DecidableEq, Repr

/-- `struct thread_info`. -/
structure ThreadInfo (ρ τ : Type) where
  cpu : Int
  thread : Nat
  mutex : Mutex
  usleepTime : Int
  nrFunctions : Nat
  functions : List (Option ρ)
  t : List (Option τ)

/-- `struct ov_struct`. -/
structure OvStruct (ρ τ : Type) where
  nrThreadInfos : Nat
  threadInfos : Option (List (Option (ThreadInfo ρ τ)))

/-- An `ov_struct` with the threads that were started, by CPU, and the rate of
`x86_energy_set_internal_update_thread_rate`. -/
structure Registry (ρ τ : Type) where
  ov : OvStruct ρ τ
  threads : List Int
  overrideUpdateRate : Option Int

/-- Which allocations of one `x86_energy_overflow_thread_create` succeed, and whether its
thread starts.  `leftover` is what `pthread_create` leaves in its argument when it fails. -/
structure CreateOutcome where
  infos : Bool
  info : Bool
  functions : Bool
  t : Bool
  thread : Bool
  leftover : Nat

/-- Everything succeeds. -/
def allCreated : CreateOutcome := ⟨true, true, true, true, true, 0⟩

/-- The return value, and what is written to `*thread` and `*mutex`. -/
structure CreateResult where
  code : Int
  outs : Option (Nat × Mutex)

variable {ρ τ : Type}

/-- The content of a slot. -/
def loadSlot {α : Type} (block : List (Option α)) (i : Nat) : Except OvFault α :=
  match block[i]? with
  | none => .error .outOfBounds
  | some none => .error .uninitialized
  | some (some x) => .ok x

namespace ThreadInfo

/-- `add_call`. -/
def addCall (info : ThreadInfo ρ τ) (read : ρ) (t : τ) (o : CreateOutcome) :
    ThreadInfo ρ τ × Int :=
  if !o.functions then (info, 1)
  else
    let newFunctions := resize info.functions (info.nrFunctions + 1)
    if !o.t then ({ info with functions := newFunctions }, 1)
    else
      let newT := resize info.t (info.nrFunctions + 1)
      ({ info with
          functions := newFunctions.set info.nrFunctions (some read)
          t := newT.set info.nrFunctions (some t)
          nrFunctions := info.nrFunctions + 1 }, 0)

variable [DecidableEq ρ] [DecidableEq τ]

/-- One round of the loop of `x86_energy_overflow_thread_remove_call`. -/
def judgeCall (info : ThreadInfo ρ τ) (read : ρ) (t : τ) (i : Nat) :
    Except OvFault (Verdict Unit) :=
  match loadSlot info.functions i with
  | .error e => .error e
  | .ok f =>
      if f ≠ read then .ok .next
      else
        match loadSlot info.t i with
        | .error e => .error e
        | .ok counter => .ok (if counter = t then .found () else .next)

/-- The position of the first equal pair. -/
def findCall (info : ThreadInfo ρ τ) (read : ρ) (t : τ) : Except OvFault (Option (Nat × Unit)) :=
  Search.search (info.judgeCall read t) (List.range info.nrFunctions)

/-- The part of `x86_energy_overflow_thread_remove_call` under the mutex. -/
def removeCall (M : Memcpy) (info : ThreadInfo ρ τ) (read : ρ) (t : τ) :
    Except OvFault (ThreadInfo ρ τ) :=
  match info.findCall read t with
  | .error e => .error e
  | .ok none => .ok info
  | .ok (some (i, _)) =>
      .ok { info with
        functions := M.copy info.functions i (i + 1) (info.nrFunctions - i - 1)
        t := M.copy info.t i (i + 1) (info.nrFunctions - i - 1)
        nrFunctions := info.nrFunctions - 1 }

end ThreadInfo

namespace OvStruct

def judgeInfo (infos : List (Option (ThreadInfo ρ τ))) (cpu : Int) (i : Nat) :
    Except OvFault (Verdict Unit) :=
  match loadSlot infos i with
  | .error e => .error e
  | .ok info => .ok (if info.cpu = cpu then .found () else .next)

/-- `get_thread_info`: the position of the `thread_info`. -/
def getThreadInfo (ov : OvStruct ρ τ) (cpu : Int) : Except OvFault (Option (Nat × Unit)) :=
  match ov.threadInfos with
  | none => .ok none
  | some infos => Search.search (judgeInfo infos cpu) (List.range ov.nrThreadInfos)

/-- `*info`, for a pointer that `get_thread_info` returned. -/
def loadInfo (ov : OvStruct ρ τ) (i : Nat) : Except OvFault (ThreadInfo ρ τ) :=
  loadSlot (ov.threadInfos.getD []) i

/-- An update of `*info`. -/
def storeInfo (ov : OvStruct ρ τ) (i : Nat) (info : ThreadInfo ρ τ) : OvStruct ρ τ :=
  { ov with threadInfos := ov.threadInfos.map fun infos => infos.set i (some info) }

/-- `add_thread_info`, and whether it does not return `NULL`. -/
def addThreadInfo (ov : OvStruct ρ τ) (cpu usleepTime : Int) (o : CreateOutcome) :
    OvStruct ρ τ × Bool :=
  if !o.infos then (ov, false)
  else
    let grown : OvStruct ρ τ :=
      { nrThreadInfos := ov.nrThreadInfos + 1
        threadInfos := some (resize (ov.threadInfos.getD []) (ov.nrThreadInfos + 1)) }
    if !o.info then (grown, false)
    else
      (grown.storeInfo (grown.nrThreadInfos - 1)
        ⟨cpu, 0, .initialized, usleepTime, 0, [], []⟩, true)

/-- The first part of `x86_energy_overflow_thread_create`: there is a `thread_info` for the
CPU afterwards, unless the result is `false`. -/
def ensureThreadInfo (ov : OvStruct ρ τ) (cpu usleepTime : Int) (o : CreateOutcome) :
    Except OvFault (OvStruct ρ τ × Bool) :=
  match ov.getThreadInfo cpu with
  | .error e => .error e
  | .ok none => .ok (ov.addThreadInfo cpu usleepTime o)
  | .ok (some (i, _)) =>
      match ov.loadInfo i with
      | .error e => .error e
      | .ok info =>
          if info.usleepTime > usleepTime then
            .ok (ov.storeInfo i { info with usleepTime := usleepTime }, true)
          else .ok (ov, true)

end OvStruct

namespace Registry

/-- After `memset`. -/
def empty : Registry ρ τ := ⟨⟨0, none⟩, [], none⟩

/-- The sleep time of a new call; `none` if the override forbids threads.  Otherwise the
override puts the flag `override_update_rate`, which is 1, in the place of the rate. -/
def sleepTime (r : Registry ρ τ) (usleepTime : Int) : Option Int :=
  match r.overrideUpdateRate with
  | none => some usleepTime
  | some rate => if rate = 0 then none else some 1

/-- The second part of `x86_energy_overflow_thread_create`, which drops the result of
`add_call`. -/
def register (r : Registry ρ τ) (cpu : Int) (read : ρ) (t : τ) (o : CreateOutcome) :
    Except OvFault (Registry ρ τ × CreateResult) :=
  match r.ov.getThreadInfo cpu with
  | .error e => .error e
  | .ok none => .error .noThreadInfo
  | .ok (some (i, _)) =>
      match r.ov.loadInfo i with
      | .error e => .error e
      | .ok info =>
          let info := (info.addCall read t o).1
          if info.thread ≠ 0 then
            .ok ({ r with ov := r.ov.storeInfo i info }, ⟨0, some (info.thread, info.mutex)⟩)
          else if !o.thread then
            .ok ({ r with ov := r.ov.storeInfo i { info with thread := o.leftover } }, ⟨1, none⟩)
          else
            let info := { info with thread := r.threads.length + 1 }
            .ok ({ r with ov := r.ov.storeInfo i info, threads := r.threads ++ [cpu] },
              ⟨0, some (info.thread, info.mutex)⟩)

/-- `x86_energy_overflow_thread_create`. -/
def create (r : Registry ρ τ) (cpu : Int) (read : ρ) (t : τ) (usleepTime : Int)
    (o : CreateOutcome) : Except OvFault (Registry ρ τ × CreateResult) :=
  match r.sleepTime usleepTime with
  | none => .ok (r, ⟨0, none⟩)
  | some usleepTime =>
      match r.ov.ensureThreadInfo cpu usleepTime o with
      | .error e => .error e
      | .ok (ov, false) => .ok ({ r with ov := ov }, ⟨1, none⟩)
      | .ok (ov, true) => { r with ov := ov }.register cpu read t o

variable [DecidableEq ρ] [DecidableEq τ]

/-- `x86_energy_overflow_thread_remove_call`. -/
def removeCall (M : Memcpy) (r : Registry ρ τ) (cpu : Int) (read : ρ) (t : τ) :
    Except OvFault (Registry ρ τ) :=
  match r.ov.getThreadInfo cpu with
  | .error e => .error e
  | .ok none => .ok r
  | .ok (some (i, _)) =>
      match r.ov.loadInfo i with
      | .error e => .error e
      | .ok info =>
          match info.removeCall M read t with
          | .error e => .error e
          | .ok info => .ok { r with ov := r.ov.storeInfo i info }

end Registry

namespace Registry

/-- What the argument of the thread of a CPU points to. -/
def infoOf (r : Registry ρ τ) (cpu : Int) : Except OvFault (ThreadInfo ρ τ) :=
  match r.ov.getThreadInfo cpu with
  | .error e => .error e
  | .ok none => .error .noThreadInfo
  | .ok (some (i, _)) => r.ov.loadInfo i

/-- `pthread_cancel`: the CPU of the thread. -/
def cancel (r : Registry ρ τ) (thread : Nat) : Except OvFault Int :=
  if thread = 0 then .error .noThread
  else
    match r.threads[thread - 1]? with
    | none => .error .noThread
    | some cpu => .ok cpu

/-- One round of the loop of `x86_energy_overflow_thread_killall`. -/
def cancelInfo (r : Registry ρ τ) (infos : List (Option (ThreadInfo ρ τ))) (i : Nat) :
    Except OvFault Int :=
  match loadSlot infos i with
  | .error e => .error e
  | .ok info => r.cancel info.thread

/-- `x86_energy_overflow_thread_killall`: the CPUs of the threads that are cancelled. -/
def killall (r : Registry ρ τ) : Except OvFault (List Int) :=
  match r.ov.threadInfos with
  | none => .ok []
  | some infos => (List.range r.ov.nrThreadInfos).mapM (r.cancelInfo infos)

/-- `x86_energy_overflow_freeall`, which leaves `nr_thread_infos` as it is. -/
def freeall (r : Registry ρ τ) : Except OvFault (Registry ρ τ) :=
  match r.ov.threadInfos with
  | none => .ok r
  | some infos =>
      ((List.range r.ov.nrThreadInfos).mapM (loadSlot infos)).map fun _ =>
        { r with ov := { r.ov with threadInfos := none } }

end Registry

/-- A call on the registry. -/
inductive OvCall (ρ τ : Type)
  | create (cpu : Int) (read : ρ) (t : τ) (usleepTime : Int) (outcome : CreateOutcome)
  | removeCall (cpu : Int) (read : ρ) (t : τ)

/-- One call. -/
def Registry.step [DecidableEq ρ] [DecidableEq τ] (M : Memcpy) (r : Registry ρ τ) :
    OvCall ρ τ → Except OvFault (Registry ρ τ)
  | .create cpu read t usleepTime o => (r.create cpu read t usleepTime o).map Prod.fst
  | .removeCall cpu read t => r.removeCall M cpu read t

section Cases

variable {ov : OvStruct ρ τ} {r r' : Registry ρ τ} {cpu usleepTime : Int} {read : ρ} {t : τ}
  {o : CreateOutcome}

/-- What `ensureThreadInfo` can do: there is no `thread_info`, it gets the shorter time, or it
has it already. -/
inductive EnsureCases (ov : OvStruct ρ τ) (cpu usleepTime : Int) (o : CreateOutcome) :
    OvStruct ρ τ × Bool → Prop
  | absent {result : OvStruct ρ τ × Bool} (hfind : ov.getThreadInfo cpu = .ok none)
      (hadd : ov.addThreadInfo cpu usleepTime o = result) : EnsureCases ov cpu usleepTime o result
  | slower {i : Nat} {info : ThreadInfo ρ τ} (hfind : ov.getThreadInfo cpu = .ok (some (i, ())))
      (hload : ov.loadInfo i = .ok info) : EnsureCases ov cpu usleepTime o
        (ov.storeInfo i { info with usleepTime := usleepTime }, true)
  | present {i : Nat} {info : ThreadInfo ρ τ} (hfind : ov.getThreadInfo cpu = .ok (some (i, ())))
      (hload : ov.loadInfo i = .ok info) : EnsureCases ov cpu usleepTime o (ov, true)

theorem ensureThreadInfo_cases {result : OvStruct ρ τ × Bool}
    (h : ov.ensureThreadInfo cpu usleepTime o = .ok result) :
    EnsureCases ov cpu usleepTime o result := by
  unfold OvStruct.ensureThreadInfo at h
  split at h
  · cases h
  · rename_i hfind
    exact .absent hfind (Except.ok.inj h)
  · rename_i hfind
    split at h
    · cases h
    · rename_i hload
      split at h <;> cases h
      · exact .slower hfind hload
      · exact .present hfind hload

/-- What `register` can do with the `thread_info`, on which it tries `add_call`: its thread runs,
does not start, or starts. -/
inductive RegisterCases (r : Registry ρ τ) (cpu : Int) (read : ρ) (t : τ) (o : CreateOutcome) :
    Registry ρ τ × CreateResult → Prop
  | running {i : Nat} {info : ThreadInfo ρ τ} (hfind : r.ov.getThreadInfo cpu = .ok (some (i, ())))
      (hload : r.ov.loadInfo i = .ok info) (hthread : (info.addCall read t o).1.thread ≠ 0) :
      RegisterCases r cpu read t o ({ r with ov := r.ov.storeInfo i (info.addCall read t o).1 },
        ⟨0, some ((info.addCall read t o).1.thread, (info.addCall read t o).1.mutex)⟩)
  | refused {i : Nat} {info : ThreadInfo ρ τ} (hfind : r.ov.getThreadInfo cpu = .ok (some (i, ())))
      (hload : r.ov.loadInfo i = .ok info) (hzero : (info.addCall read t o).1.thread = 0) :
      RegisterCases r cpu read t o
        ({ r with ov := r.ov.storeInfo i { (info.addCall read t o).1 with thread := o.leftover } },
          ⟨1, none⟩)
  | started {i : Nat} {info : ThreadInfo ρ τ} (hfind : r.ov.getThreadInfo cpu = .ok (some (i, ())))
      (hload : r.ov.loadInfo i = .ok info) (hzero : (info.addCall read t o).1.thread = 0) :
      RegisterCases r cpu read t o
        ({ r with
            ov := r.ov.storeInfo i
              { (info.addCall read t o).1 with thread := r.threads.length + 1 }
            threads := r.threads ++ [cpu] },
          ⟨0, some (r.threads.length + 1, (info.addCall read t o).1.mutex)⟩)

theorem register_cases {result : Registry ρ τ × CreateResult}
    (h : r.register cpu read t o = .ok result) : RegisterCases r cpu read t o result := by
  unfold Registry.register at h
  split at h
  · cases h
  · cases h
  · rename_i hfind
    split at h
    · cases h
    · rename_i hload
      dsimp only at h
      split at h
      · rename_i hthread
        cases h
        exact .running hfind hload hthread
      · rename_i hzero
        split at h <;> cases h
        · exact .refused hfind hload (not_not.mp hzero)
        · exact .started hfind hload (not_not.mp hzero)

/-- What `create` can do: nothing, fail without a `thread_info`, or go on to `register`. -/
inductive CreateCases (r : Registry ρ τ) (cpu : Int) (read : ρ) (t : τ) (usleepTime : Int)
    (o : CreateOutcome) : Registry ρ τ × CreateResult → Prop
  | forbidden (hsleep : r.sleepTime usleepTime = none) :
      CreateCases r cpu read t usleepTime o (r, ⟨0, none⟩)
  | failed {time : Int} {ov : OvStruct ρ τ} (hsleep : r.sleepTime usleepTime = some time)
      (hensure : r.ov.ensureThreadInfo cpu time o = .ok (ov, false)) :
      CreateCases r cpu read t usleepTime o ({ r with ov := ov }, ⟨1, none⟩)
  | ensured {time : Int} {ov : OvStruct ρ τ} {result : Registry ρ τ × CreateResult}
      (hsleep : r.sleepTime usleepTime = some time)
      (hensure : r.ov.ensureThreadInfo cpu time o = .ok (ov, true))
      (hregister : ({ r with ov := ov } : Registry ρ τ).register cpu read t o = .ok result) :
      CreateCases r cpu read t usleepTime o result

theorem create_cases {result : Registry ρ τ × CreateResult}
    (h : r.create cpu read t usleepTime o = .ok result) :
    CreateCases r cpu read t usleepTime o result := by
  unfold Registry.create at h
  split at h
  · rename_i hsleep
    cases h
    exact .forbidden hsleep
  · rename_i hsleep
    split at h
    · cases h
    · rename_i hensure
      cases h
      exact .failed hsleep hensure
    · rename_i hensure
      exact .ensured hsleep hensure h

variable [DecidableEq ρ] [DecidableEq τ] {M : Memcpy}

/-- What `removeCall` can do. -/
inductive RemoveCases (M : Memcpy) (r : Registry ρ τ) (cpu : Int) (read : ρ) (t : τ) :
    Registry ρ τ → Prop
  | absent (hfind : r.ov.getThreadInfo cpu = .ok none) : RemoveCases M r cpu read t r
  | present {i : Nat} {info info' : ThreadInfo ρ τ}
      (hfind : r.ov.getThreadInfo cpu = .ok (some (i, ()))) (hload : r.ov.loadInfo i = .ok info)
      (hremove : info.removeCall M read t = .ok info') :
      RemoveCases M r cpu read t { r with ov := r.ov.storeInfo i info' }

theorem removeCall_cases (h : r.removeCall M cpu read t = .ok r') :
    RemoveCases M r cpu read t r' := by
  unfold Registry.removeCall at h
  split at h
  · cases h
  · rename_i hfind
    cases h
    exact .absent hfind
  · rename_i hfind
    split at h
    · cases h
    · rename_i hload
      split at h
      · cases h
      · rename_i hremove
        cases h
        exact .present hfind hload hremove

end Cases

end OverflowThread
end X86Energy
