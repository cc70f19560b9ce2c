import X86Energy.Access.MsrHandles
import X86Energy.Access.Perf
import X86Energy.Library.Descriptors
import X86Energy.Library.Ownership
import X86Energy.Library.Transition

/-!
# The descriptors of the perf source

Every counter of `perf-rapl` has a descriptor of its own.  So, unlike in the msr sources, no
call disturbs the handle of another counter, whatever the system calls deliver and whatever
other code opens and closes in between.

A `setup` that fails after `perf_event_open` always loses something: the descriptor if it is
0 or if no memory is granted, the memory if the first read fails.

**Results.**
* `Perf.events_owned`: in every run each counter in use reads the event that was opened for
  it, and every event that is open belongs to one counter or was lost;
* `Perf.loses_nothing_iff`: which runs lose nothing.
-/

namespace X86Energy
namespace Access

open Architecture ArchNode CDouble Descriptors Ownership

/-- What a descriptor of the process refers to: an event that the source opened, or something
that other code opened. -/
inductive PerfFile
  | event (config : Int) (cpu : Int)
  | foreign
deriving DecidableEq, Repr

/-- A counter in use, with the `config` of the event that was opened for it. -/
structure PerfHandle extends PerfCounter where
  config : Int

/-- The counters in use and the descriptors of the process.  `lost` records the descriptors that
a `setup` left open without a counter, `leaked` counts the `struct reader_def`s that it did not
free. -/
structure PerfState where
  handles : List PerfHandle
  table : List (Option PerfFile)
  lost : List Int
  leaked : Nat

/-- What one `setup` finds: the files by suffix, and whether `perf_event_open` succeeds, memory
is granted and the first 8 bytes are delivered. -/
structure PerfAttempt where
  event : String → LineRead
  scale : String → ScaleRead
  opens : Bool
  allocates : Bool
  delivers : Bool

/-- The calls of a client, and what other code of the process does with descriptors. -/
inductive PerfCall
  | setup (counterType : Counter) (index : Nat) (o : PerfAttempt)
  | read (position : Nat) (delivered : Option Nat)
  | close (position : Nat)
  | otherOpens
  | otherCloses (fd : Int)

namespace Perf

/-- The event that a `setup` asks for, with the unit, before it opens anything; `none` is the
return of `NULL`. -/
def askEvent (counterType : Counter) (o : PerfAttempt) : Option (Int × Double) :=
  match stringsForEvents counterType with
  | none => none
  | some suffix =>
      let eventId := getEventId (o.event suffix)
      let unit := getEventUnit (o.scale suffix)
      if eventId < 0 then none
      else if unit.IsNegative then none
      else some (eventId, unit)

/-- `setup` from `perf_event_open` on. -/
def openEvent (s : PerfState) (cpu config : Int) (unit : Double) (o : PerfAttempt) : PerfState :=
  if !o.opens then s
  else
    let fd : Int := lowestFree s.table
    let opened := { s with table := openFile s.table (.event config cpu) }
    if fd ≤ 0 then { opened with lost := fd :: s.lost }
    else if !o.allocates then { opened with lost := fd :: s.lost }
    else if !o.delivers then
      { opened with table := closeFile opened.table fd, leaked := s.leaked + 1 }
    else { opened with handles := s.handles ++ [⟨⟨fd, cpu, unit⟩, config⟩] }

/-- `setup`, with the descriptors. -/
def setupHandle (arch : ArchNode) (s : PerfState) (counterType : Counter) (index : Nat)
    (o : PerfAttempt) : Except PerfFault PerfState :=
  match getTestCpu arch .socket index with
  | none => .error .missingChild
  | some cpu =>
      match askEvent counterType o with
      | none => .ok s
      | some (config, unit) => .ok (openEvent s cpu config unit o)

/-- `do_close`. -/
def doClose (s : PerfState) (position : Nat) : PerfState :=
  match s.handles[position]? with
  | none => s
  | some handle =>
      { s with
        handles := s.handles.eraseIdx position
        table := closeFile s.table handle.fd }

/-- One call.  Other code closes only what it opened. -/
def step (arch : ArchNode) (s : PerfState) : PerfCall → Except PerfFault PerfState
  | .setup counterType index o => setupHandle arch s counterType index o
  | .read _ _ => .ok s
  | .close position => .ok (doClose s position)
  | .otherOpens => .ok { s with table := openFile s.table .foreign }
  | .otherCloses fd =>
      .ok <|
        if fileAt s.table fd = some .foreign then { s with table := closeFile s.table fd } else s

/-- A process before the first `setup`; it may have any descriptors open. -/
def Fresh (s : PerfState) : Prop :=
  s.handles = [] ∧ s.lost = [] ∧ s.leaked = 0 ∧
    ∀ fd file, fileAt s.table fd = some file → file = .foreign

/-- A `setup` adds a counter exactly if `setup` without the descriptors returns one, with
the number that the process has free. -/
theorem handles_setupHandle {arch : ArchNode} {s s' : PerfState} {counterType : Counter}
    {index : Nat} {o : PerfAttempt} (h : setupHandle arch s counterType index o = .ok s') :
    s'.handles = s.handles ++
      (match setup arch counterType index ⟨o.event, o.scale,
          if o.opens then lowestFree s.table else -1, o.allocates, o.delivers⟩ with
        | .ok (some (config, counter)) => [⟨counter, config⟩]
        | _ => []) := by
  unfold setupHandle at h
  unfold setup
  cases hcpu : getTestCpu arch .socket index with
  | none =>
      rw [hcpu] at h
      cases h
  | some cpu =>
      rw [hcpu] at h
      unfold askEvent at h
      cases hname : stringsForEvents counterType with
      | none =>
          simp only [hname] at h
          cases h
          simp
      | some suffix =>
          simp only [hname] at h ⊢
          by_cases hid : getEventId (o.event suffix) < 0
          · simp only [if_pos hid] at h ⊢
            cases h
            simp
          · by_cases hunit : (getEventUnit (o.scale suffix)).IsNegative
            · simp only [if_neg hid, if_pos hunit] at h ⊢
              cases h
              simp
            · simp only [if_neg hid, if_neg hunit] at h ⊢
              cases h
              unfold openEvent
              by_cases hfd : lowestFree s.table = 0 <;>
                cases o.opens <;> cases o.allocates <;> cases o.delivers <;> simp [hfd]

section Steps

/-- The events that the source has open, by descriptor. -/
def events (table : List (Option PerfFile)) (fd : Int) : Option PerfFile :=
  (fileAt table fd).filter fun file => file ≠ .foreign

/-- The descriptors that the source has to answer for. -/
def answersFor (s : PerfState) : List Int := s.handles.map (fun h => h.fd) ++ s.lost

/-- Every counter in use reads its own event, and all events that are open belong to a counter
or were lost. -/
structure HandlesValid (s : PerfState) : Prop where
  reads : ∀ handle ∈ s.handles, fileAt s.table handle.fd = some (.event handle.config handle.cpuId)
  owns : Owns (events s.table) (answersFor s)

variable {s : PerfState}

theorem events_openFile (table : List (Option PerfFile)) (file : PerfFile) (fd : Int) :
    events (openFile table file) fd =
      if fd = lowestFree table then (some file).filter (fun file => file ≠ .foreign)
      else events table fd := by
  unfold events
  rw [fileAt_openFile]
  split <;> rfl

theorem events_closeFile (table : List (Option PerfFile)) (closed fd : Int) :
    events (closeFile table closed) fd = if fd = closed then none else events table fd := by
  unfold events
  rw [fileAt_closeFile]
  split <;> rfl

theorem events_lowestFree (table : List (Option PerfFile)) :
    events table (lowestFree table) = none := by
  rw [events, fileAt_lowestFree]
  rfl

/-- Opening an event allocates its descriptor. -/
theorem events_openEvent (table : List (Option PerfFile)) (config cpu : Int) :
    events (openFile table (.event config cpu)) =
      alloc (events table) (lowestFree table) (.event config cpu) := by
  funext fd
  rw [events_openFile, alloc_apply]
  rfl

/-- What other code does is not seen in the events. -/
theorem events_otherOpens (table : List (Option PerfFile)) :
    events (openFile table .foreign) = events table := by
  funext fd
  rw [events_openFile]
  split
  · rename_i hfd
    rw [hfd, events_lowestFree]
    rfl
  · rfl

theorem events_otherCloses {table : List (Option PerfFile)} {closed : Int}
    (h : fileAt table closed = some .foreign) : events (closeFile table closed) = events table := by
  funext fd
  rw [events_closeFile]
  split
  · rename_i hfd
    rw [hfd, events, h]
    rfl
  · rfl

/-- A handle stays where it is while other descriptors are opened. -/
theorem reads_openFile {table : List (Option PerfFile)} {fd : Int} {file : PerfFile}
    (h : fileAt table fd = some file) (new : PerfFile) :
    fileAt (openFile table new) fd = some file := by
  rw [fileAt_openFile, if_neg, h]
  rintro rfl
  rw [fileAt_lowestFree] at h
  cases h

theorem reads_closeFile {table : List (Option PerfFile)} {fd closed : Int} {file : PerfFile}
    (h : fileAt table fd = some file) (hne : fd ≠ closed) :
    fileAt (closeFile table closed) fd = some file := by
  rw [fileAt_closeFile, if_neg hne, h]

/-- `setup` gets a counter for the event that it opens. -/
def GetsCounter (s : PerfState) (o : PerfAttempt) : Prop :=
  0 < lowestFree s.table ∧ o.allocates = true ∧ o.delivers = true

instance (s : PerfState) (o : PerfAttempt) : Decidable (GetsCounter s o) :=
  inferInstanceAs (Decidable (_ ∧ _ ∧ _))

/-- What `setup` can do once it knows its event: nothing, lose the descriptor, lose the memory
or add a counter. -/
theorem openEvent_cases (s : PerfState) (cpu config : Int) (unit : Double) (o : PerfAttempt) :
    (o.opens = false ∧ openEvent s cpu config unit o = s) ∨
    (o.opens = true ∧ ¬ GetsCounter s o ∧
      openEvent s cpu config unit o =
        { s with
          table := openFile s.table (.event config cpu)
          lost := lowestFree s.table :: s.lost }) ∨
    (o.opens = true ∧ ¬ GetsCounter s o ∧
      openEvent s cpu config unit o =
        { s with
          table := closeFile (openFile s.table (.event config cpu)) (lowestFree s.table)
          leaked := s.leaked + 1 }) ∨
    (o.opens = true ∧ GetsCounter s o ∧
      openEvent s cpu config unit o =
        { s with
          table := openFile s.table (.event config cpu)
          handles := s.handles ++ [⟨⟨lowestFree s.table, cpu, unit⟩, config⟩] }) := by
  unfold openEvent GetsCounter
  cases o.opens with
  | false => exact .inl ⟨rfl, rfl⟩
  | true =>
      right
      by_cases hfd : (lowestFree s.table : Int) ≤ 0
      · have hzero : ¬ 0 < lowestFree s.table := by omega
        exact .inl ⟨rfl, fun h => hzero h.1, if_pos hfd⟩
      · have hpos : 0 < lowestFree s.table := by omega
        cases o.allocates with
        | false => exact .inl ⟨rfl, by simp, if_neg hfd⟩
        | true =>
            cases o.delivers with
            | false => exact .inr (.inl ⟨rfl, by simp, if_neg hfd⟩)
            | true => exact .inr (.inr ⟨rfl, ⟨hpos, rfl, rfl⟩, if_neg hfd⟩)

/-- Closing the descriptor that was just opened leaves the table as it was. -/
theorem fileAt_closeFile_openFile (table : List (Option PerfFile)) (file : PerfFile) (fd : Int) :
    fileAt (closeFile (openFile table file) (lowestFree table)) fd = fileAt table fd := by
  rw [fileAt_closeFile, fileAt_openFile]
  split
  · rename_i hsame
    rw [hsame, fileAt_lowestFree]
  · rfl

theorem HandlesValid.openEvent (h : HandlesValid s) (cpu config : Int) (unit : Double)
    (o : PerfAttempt) : HandlesValid (openEvent s cpu config unit o) := by
  have hfresh := events_lowestFree s.table
  rcases openEvent_cases s cpu config unit o with
    ⟨-, heq⟩ | ⟨-, -, heq⟩ | ⟨-, -, heq⟩ | ⟨-, -, heq⟩
  · rw [heq]
    exact h
  · rw [heq]
    refine ⟨fun handle hhandle => reads_openFile (h.reads handle hhandle) _, ?_⟩
    rw [events_openEvent]
    exact (h.owns.alloc hfresh _).perm List.perm_middle.symm
  · rw [heq]
    have hsame := fileAt_closeFile_openFile s.table (.event config cpu)
    have hevents : events (closeFile (openFile s.table (.event config cpu)) (lowestFree s.table)) =
        events s.table := by
      funext fd
      rw [events, hsame fd, events]
    refine ⟨fun handle hhandle => (hsame _).trans (h.reads handle hhandle), ?_⟩
    rw [hevents]
    exact h.owns
  · rw [heq]
    constructor
    · intro handle hhandle
      rcases List.mem_append.mp hhandle with hhandle | hhandle
      · exact reads_openFile (h.reads handle hhandle) _
      · obtain rfl := List.mem_singleton.mp hhandle
        rw [fileAt_openFile, if_pos rfl]
    · rw [events_openEvent]
      refine (h.owns.alloc hfresh _).perm ?_
      unfold answersFor
      rw [List.map_append, List.map_singleton, List.append_assoc, List.singleton_append]
      exact List.perm_middle.symm

theorem HandlesValid.doClose (h : HandlesValid s) (position : Nat) :
    HandlesValid (doClose s position) := by
  unfold Perf.doClose
  cases hget : s.handles[position]? with
  | none => exact h
  | some handle =>
      obtain ⟨hlt, rfl⟩ := List.getElem?_eq_some_iff.mp hget
      have hsplit : (answersFor s).Perm (s.handles[position].fd ::
          answersFor { s with handles := s.handles.eraseIdx position }) := by
        unfold answersFor
        rw [← List.cons_append]
        refine List.Perm.append_right _ ?_
        exact ((List.getElem_cons_eraseIdx_perm hlt).map fun h : PerfHandle => h.fd).symm
      have howns := h.owns.perm hsplit
      obtain ⟨hnot, hnodup⟩ := List.nodup_cons.mp howns.nodup
      constructor
      · intro other hother
        have hne : other.fd ≠ s.handles[position].fd := by
          intro heq
          apply hnot
          rw [← heq]
          exact List.mem_append_left _ (List.mem_map_of_mem hother)
        exact reads_closeFile (h.reads other (List.mem_of_mem_eraseIdx hother)) hne
      · obtain ⟨heap, hfree, hkept⟩ := howns.free (List.mem_cons_self ..)
        rw [List.erase_cons_head] at hkept
        have hheap : events (closeFile s.table s.handles[position].fd) = heap := by
          rw [(free_eq_some.mp hfree).2]
          funext fd
          exact events_closeFile s.table _ fd
        rw [hheap]
        exact hkept

variable {arch : ArchNode}

/-- **Every call keeps the handles.** -/
theorem HandlesValid.step {s' : PerfState} {call : PerfCall} (h : HandlesValid s)
    (hstep : Perf.step arch s call = .ok s') : HandlesValid s' := by
  cases call with
  | setup counterType index o =>
      change setupHandle arch s counterType index o = .ok s' at hstep
      unfold setupHandle at hstep
      split at hstep
      · cases hstep
      · split at hstep
        · cases hstep
          exact h
        · cases hstep
          exact h.openEvent _ _ _ _
  | read =>
      cases hstep
      exact h
  | close position =>
      cases hstep
      exact h.doClose position
  | otherOpens =>
      cases hstep
      refine ⟨fun handle hhandle => reads_openFile (h.reads handle hhandle) _, ?_⟩
      rw [events_otherOpens]
      exact h.owns
  | otherCloses fd =>
      cases hstep
      split
      · rename_i hforeign
        refine ⟨fun handle hhandle => reads_closeFile (h.reads handle hhandle) ?_, ?_⟩
        · rintro rfl
          rw [h.reads handle hhandle] at hforeign
          cases hforeign
        · rw [events_otherCloses hforeign]
          exact h.owns
      · exact h

theorem Fresh.handlesValid (h : Fresh s) : HandlesValid s := by
  obtain ⟨hhandles, hlost, -, hforeign⟩ := h
  have hnone : events s.table = empty := by
    funext fd
    unfold events
    cases hfile : fileAt s.table fd with
    | none => rfl
    | some file =>
        rw [hforeign fd file hfile]
        rfl
  refine ⟨fun handle hhandle => ?_, ?_⟩
  · rw [hhandles] at hhandle
    cases hhandle
  · rw [hnone, answersFor, hhandles, hlost]
    exact owns_empty

end Steps

section Runs

variable {arch : ArchNode} {s s' : PerfState} {calls : List PerfCall}

/-- **Every counter reads its own event**, and every event that is open belongs to one counter
or was lost: in every run, whatever else the process opens and closes. -/
theorem events_owned (hfresh : Fresh s) (hrun : Transition.run (step arch) s calls = .ok s') :
    HandlesValid s' :=
  Transition.run_invariant (fun _ _ _ _ hvalid hstep => hvalid.step hstep)
    hfresh.handlesValid hrun

/-- A process with its three standard descriptors. -/
def perfProcess : PerfState where
  handles := []
  table := [some .foreign, some .foreign, some .foreign]
  lost := []
  leaked := 0

theorem perfProcess_fresh : Fresh perfProcess := by
  refine ⟨rfl, rfl, rfl, fun fd file hfile => ?_⟩
  simpa [perfProcess] using mem_of_fileAt hfile

/-- A `setup` that succeeds. -/
def perfGranted : PerfAttempt where
  event := fun _ => .line ['e', 'v', 'e', 'n', 't', '=', '0', 'x', '0', '2', '\n']
  scale := fun _ => .number (.finite (1 / 2))
  opens := true
  allocates := true
  delivers := true

/-- The calls on one counter and what other code does in between. -/
def perfCalls : List PerfCall :=
  [.setup .pckg 0 perfGranted, .otherOpens, .setup .dram 0 perfGranted, .otherCloses 4,
    .close 0, .setup .gpu 0 perfGranted]

theorem askEvent_perfGranted {counterType : Counter}
    (h : (stringsForEvents counterType).isSome) :
    askEvent counterType perfGranted = some (2, .finite (1 / 2)) := by
  obtain ⟨suffix, hsuffix⟩ := Option.isSome_iff_exists.mp h
  have hid : getEventId (.line ['e', 'v', 'e', 'n', 't', '=', '0', 'x', '0', '2', '\n']) = 2 := by
    decide +kernel
  have hunit : ¬ (getEventUnit (perfGranted.scale suffix)).IsNegative := by
    norm_num [perfGranted, getEventUnit, Double.IsNegative]
  unfold askEvent
  simp only [hsuffix, if_neg hunit]
  rw [show getEventId (perfGranted.event suffix) = 2 from hid]
  rfl

theorem run_perfCalls :
    ∃ s', Transition.run (step oneCpu) perfProcess perfCalls = .ok s' ∧
      s'.handles.map (fun h => h.fd) = [5, 3] := by
  have hcpu : getTestCpu oneCpu .socket 0 = some 0 := rfl
  simp only [perfCalls, Transition.run, step, setupHandle, hcpu,
    askEvent_perfGranted (show (stringsForEvents .pckg).isSome from rfl),
    askEvent_perfGranted (show (stringsForEvents .dram).isSome from rfl),
    askEvent_perfGranted (show (stringsForEvents .gpu).isSome from rfl)]
  exact ⟨_, rfl, rfl⟩

theorem events_owned_perfCalls :
    ∃ s', Transition.run (step oneCpu) perfProcess perfCalls = .ok s' ∧
      s'.handles.length = 2 ∧ HandlesValid s' := by
  obtain ⟨s', hrun, hfds⟩ := run_perfCalls
  refine ⟨s', hrun, ?_, events_owned perfProcess_fresh hrun⟩
  simpa using congrArg List.length hfds

/-- The call does not fail after it opened an event. -/
def FailsBeforeOpen (arch : ArchNode) (s : PerfState) : PerfCall → Prop
  | .setup counterType index o =>
      (getTestCpu arch .socket index).isSome → (askEvent counterType o).isSome →
        o.opens = true → GetsCounter s o
  | _ => True

/-- Nothing was lost. -/
def NothingLost (s : PerfState) : Prop := s.lost = [] ∧ s.leaked = 0

theorem nothingLost_openEvent (cpu config : Int) (unit : Double) (o : PerfAttempt) :
    NothingLost (openEvent s cpu config unit o) ↔
      NothingLost s ∧ (o.opens = true → GetsCounter s o) := by
  unfold NothingLost
  rcases openEvent_cases s cpu config unit o with
    ⟨hopens, heq⟩ | ⟨hopens, hgets, heq⟩ | ⟨hopens, hgets, heq⟩ | ⟨hopens, hgets, heq⟩
  all_goals rw [heq]; simp [hopens]
  all_goals simp [hgets]

/-- What a call does with what is lost. -/
theorem nothingLost_step {call : PerfCall} (hstep : step arch s call = .ok s') :
    NothingLost s' ↔ NothingLost s ∧ FailsBeforeOpen arch s call := by
  cases call with
  | setup counterType index o =>
      change setupHandle arch s counterType index o = .ok s' at hstep
      unfold setupHandle at hstep
      unfold FailsBeforeOpen
      cases hcpu : getTestCpu arch .socket index with
      | none =>
          rw [hcpu] at hstep
          cases hstep
      | some cpu =>
          rw [hcpu] at hstep
          cases hask : askEvent counterType o with
          | none =>
              simp only [hask] at hstep
              cases hstep
              simp [hask]
          | some event =>
              obtain ⟨config, unit⟩ := event
              simp only [hask] at hstep
              cases hstep
              rw [nothingLost_openEvent]
              simp [hcpu, hask]
  | read =>
      cases hstep
      exact (and_iff_left trivial).symm
  | close position =>
      cases hstep
      have hsame : (doClose s position).lost = s.lost ∧ (doClose s position).leaked = s.leaked := by
        unfold doClose
        split <;> exact ⟨rfl, rfl⟩
      rw [NothingLost, hsame.1, hsame.2]
      exact (and_iff_left trivial).symm
  | otherOpens =>
      cases hstep
      exact (and_iff_left trivial).symm
  | otherCloses fd =>
      cases hstep
      by_cases hforeign : fileAt s.table fd = some .foreign
      · rw [if_pos hforeign]
        exact (and_iff_left trivial).symm
      · rw [if_neg hforeign]
        exact (and_iff_left trivial).symm

/-- **A run loses nothing exactly if** no `setup` of it fails after it opened its event: every
failure from there on loses the descriptor or the memory, and no later call makes up for it. -/
theorem loses_nothing_iff (hfresh : Fresh s)
    (hrun : Transition.run (step arch) s calls = .ok s') :
    NothingLost s' ↔ Transition.Meets (step arch) (FailsBeforeOpen arch) s calls := by
  have hclean : NothingLost s := ⟨hfresh.2.1, hfresh.2.2.1⟩
  rw [Transition.run_iff_meets (fun _ _ _ hstep => nothingLost_step hstep) hrun]
  exact and_iff_right hclean

theorem loses_nothing_perfCalls :
    ∃ s', Transition.run (step oneCpu) perfProcess perfCalls = .ok s' ∧
      (NothingLost s' ↔
        Transition.Meets (step oneCpu) (FailsBeforeOpen oneCpu) perfProcess perfCalls) := by
  obtain ⟨s', hrun, -⟩ := run_perfCalls
  exact ⟨s', hrun, loses_nothing_iff perfProcess_fresh hrun⟩

end Runs

end Perf

end Access
end X86Energy
