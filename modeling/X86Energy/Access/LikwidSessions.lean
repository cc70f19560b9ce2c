import X86Energy.Access.DoRead
import X86Energy.Architecture.Mechanism
import X86Energy.Architecture.RoundTrip
import X86Energy.Library.Transition

/-!
# The sessions of the likwid source

The library reads a register of a CPU only if the CPU was announced to it in its session: by
`power_init` or by `HPMaddThread`.  `likwid-rapl` keeps a list of the CPUs that it has announced,
and asks it in every `setup`.

A client calls `init`, then `setup`, `read` and `close`, and `fini` when no counter is in
use; other orders are refused here.

**Results.**
* `Likwid.reads_announced`: in every such run each `power_read` is for a CPU that was announced in
  the session, and the list has each CPU once;
* `Likwid.announces_once`: no CPU is announced twice in a session unless the list could not grow.
-/

namespace X86Energy
namespace Access

open Architecture ArchNode

/-- `PowerType` of the library. -/
inductive PowerType
  | pkg
  | pp0
  | pp1
  | dram
  | platform
deriving DecidableEq, Repr

/-- `struct reader_def` of this source. -/
structure LikwidCounter extends Reader where
  cpuId : Int
  reg : Nat
  domain : PowerType

/-- `initialized_cpus`, and what the calls of the source did: the CPUs that were announced since
the last `HPMinit`, whether a session is open, and its counters. -/
structure LikwidState where
  initializedCpus : List Int
  announced : List Int
  session : Bool
  counters : List LikwidCounter

/-- A call that the order of calls does not allow, the children of a node that has none, or a
`power_read` for a CPU that was not announced. -/
inductive LikwidFault
  | refused
  | missingChild
  | notAnnounced
deriving DecidableEq, Repr

/-- Which calls of one `init` succeed, and whether the list of CPUs can grow. -/
structure LikwidInit where
  topologyInit : Bool
  hpmInit : Bool
  powerInit : Bool
  grows : Bool
  powerInfo : Bool
  hasRapl : Bool

/-- What one `setup` finds: whether `HPMaddThread` succeeds and the list of CPUs can grow, the
32 bits of `power_read`, whether memory is granted and the thread is created, and the unit. -/
structure LikwidSetup where
  addsThread : Bool
  grows : Bool
  reading : Option UInt32
  allocates : Bool
  startsThread : Bool
  unit : PowerType → Float

/-- The calls of a client; an overflow thread reads as well. -/
inductive LikwidCall
  | init (o : LikwidInit)
  | setup (counterType : Counter) (index : Nat) (o : LikwidSetup)
  | read (position : Nat) (reading : Option UInt32)
  | close (position : Nat)
  | fini

namespace Likwid

/-- The register and the domain of a counter. -/
def register : Counter → Option (Nat × PowerType)
  | .pckg => some (0x611, .pkg)
  | .cores => some (0x639, .pp0)
  | .dram => some (0x619, .dram)
  | .gpu => some (0x641, .pp1)
  | .platform => some (0x64D, .platform)
  | .singleCore => none

/-- `is_likwid_initialized`. -/
def isLikwidInitialized (s : LikwidState) (cpu : Int) : Bool := s.initializedCpus.any (· = cpu)

/-- `add_likwid_initialize`; `none` if the list cannot grow. -/
def addLikwidInitialize (s : LikwidState) (cpu : Int) (grows : Bool) : Option LikwidState :=
  if isLikwidInitialized s cpu then some s
  else if !grows then none
  else some { s with initializedCpus := s.initializedCpus ++ [cpu] }

/-- `init`; a session is open if it succeeds. -/
def init (s : LikwidState) (o : LikwidInit) : LikwidState :=
  if !o.topologyInit then s
  else if !o.hpmInit then s
  else if !o.powerInit then { s with announced := [] }
  else
    let s := { s with announced := [0] }
    match addLikwidInitialize s 0 o.grows with
    | none => s
    | some s =>
        if !o.powerInfo then s
        else if !o.hasRapl then s
        else { s with session := true }

/-- `power_read`. -/
def powerRead (s : LikwidState) (cpu : Int) (reading : Option UInt32) :
    Except LikwidFault (Option UInt32) :=
  if cpu ∈ s.announced then .ok reading else .error .notAnnounced

/-- `setup` once its CPU is in the list. -/
def readFirst (s : LikwidState) (cpu : Int) (reg : Nat) (domain : PowerType) (o : LikwidSetup) :
    Except LikwidFault LikwidState :=
  match powerRead s cpu o.reading with
  | .error e => .error e
  | .ok none => .ok s
  | .ok (some reading) =>
      if !o.allocates then .ok s
      else if !o.startsThread then .ok s
      else
        .ok { s with
          counters := s.counters ++ [⟨⟨reading.toUInt64, o.unit domain⟩, cpu, reg, domain⟩] }

/-- `setup`. -/
def setup (arch : ArchNode) (s : LikwidState) (counterType : Counter) (index : Nat)
    (o : LikwidSetup) : Except LikwidFault LikwidState :=
  match getTestCpu arch .socket index with
  | none => .error .missingChild
  | some cpu =>
      if cpu < 0 then .ok s
      else
        match register counterType with
        | none => .ok s
        | some (reg, domain) =>
            if isLikwidInitialized s cpu then readFirst s cpu reg domain o
            else if !o.addsThread then .ok s
            else
              let s := { s with announced := cpu :: s.announced }
              match addLikwidInitialize s cpu o.grows with
              | none => .ok s
              | some s => readFirst s cpu reg domain o

/-- `do_read` of the counter at a position. -/
def readCounter (s : LikwidState) (position : Nat) (reading : Option UInt32) :
    Except LikwidFault LikwidState :=
  match s.counters[position]? with
  | none => .error .refused
  | some counter =>
      match powerRead s counter.cpuId reading with
      | .error e => .error e
      | .ok reading =>
          .ok { s with
            counters := s.counters.set position
              { counter with toReader := (doRead reading counter.toReader).2 } }

/-- `fini`. -/
def fini (s : LikwidState) : LikwidState :=
  { s with initializedCpus := [], announced := [], session := false }

/-- One call, in the order that a client has to keep. -/
def step (arch : ArchNode) (s : LikwidState) : LikwidCall → Except LikwidFault LikwidState
  | .init o => if s.session then .error .refused else .ok (init s o)
  | .setup counterType index o =>
      if s.session then setup arch s counterType index o else .error .refused
  | .read position reading => readCounter s position reading
  | .close position => .ok { s with counters := s.counters.eraseIdx position }
  | .fini => if s.session ∧ s.counters.length = 0 then .ok (fini s) else .error .refused

/-- A process before the first `init`. -/
def start : LikwidState := ⟨[], [], false, []⟩

section Lists

variable {s s' : LikwidState} {cpu : Int} {grows : Bool}

theorem isLikwidInitialized_iff : isLikwidInitialized s cpu = true ↔ cpu ∈ s.initializedCpus := by
  simp [isLikwidInitialized]

/-- What `add_likwid_initialize` does if it succeeds. -/
structure Added (s s' : LikwidState) (cpu : Int) : Prop where
  mem : ∀ x, x ∈ s'.initializedCpus ↔ x = cpu ∨ x ∈ s.initializedCpus
  nodup : s.initializedCpus.Nodup → s'.initializedCpus.Nodup
  rest : s' = { s with initializedCpus := s'.initializedCpus }

theorem addLikwidInitialize_some (h : addLikwidInitialize s cpu grows = some s') :
    Added s s' cpu := by
  unfold addLikwidInitialize at h
  by_cases hmem : cpu ∈ s.initializedCpus
  · rw [if_pos (isLikwidInitialized_iff.mpr hmem)] at h
    cases h
    refine ⟨fun x => ⟨.inr, ?_⟩, fun hnodup => hnodup, rfl⟩
    rintro (rfl | hx)
    · exact hmem
    · exact hx
  · rw [if_neg (mt isLikwidInitialized_iff.mp hmem)] at h
    split at h
    · cases h
    · cases h
      refine ⟨fun x => ?_, fun hnodup => ?_, rfl⟩
      · rw [List.mem_append, List.mem_singleton, or_comm]
      · exact List.nodup_append.mpr ⟨hnodup, List.nodup_singleton _, fun x hx y hy => by
          obtain rfl := List.mem_singleton.mp hy
          exact fun heq => hmem (heq ▸ hx)⟩

theorem addLikwidInitialize_ne_none (h : grows = true) :
    addLikwidInitialize s cpu grows ≠ none := by
  unfold addLikwidInitialize
  split
  · simp
  · simp [h]

end Lists

section Steps

variable {arch : ArchNode} {s s' : LikwidState}

/-- The list has each CPU once; in a session its CPUs are announced and the counters read no others;
without one there is at most the CPU of a failed `init` in it, and no counter. -/
structure Valid (s : LikwidState) : Prop where
  nodup : s.initializedCpus.Nodup
  closed : s.session = false → (∀ cpu ∈ s.initializedCpus, cpu = 0) ∧ s.counters = []
  announced : s.session = true → ∀ cpu ∈ s.initializedCpus, cpu ∈ s.announced
  reads : ∀ counter ∈ s.counters, counter.cpuId ∈ s.initializedCpus

theorem start_valid : Valid start := ⟨List.nodup_nil, fun _ => ⟨nofun, rfl⟩, nofun, nofun⟩

/-- Without a session it does not matter what is announced. -/
theorem valid_of_closed (hnodup : s.initializedCpus.Nodup)
    (hzero : ∀ cpu ∈ s.initializedCpus, cpu = 0) (hcounters : s.counters = [])
    (hclosed : s.session = false) : Valid s where
  nodup := hnodup
  closed _ := ⟨hzero, hcounters⟩
  announced hopen := by
    rw [hclosed] at hopen
    cases hopen
  reads counter hcounter := by
    rw [hcounters] at hcounter
    cases hcounter

theorem Valid.init (h : Valid s) (hclosed : s.session = false) (o : LikwidInit) :
    Valid (init s o) := by
  obtain ⟨hzero, hcounters⟩ := h.closed hclosed
  unfold Likwid.init
  simp only
  split
  · exact h
  · split
    · exact h
    · split
      · exact valid_of_closed h.nodup hzero hcounters hclosed
      · split
        · exact valid_of_closed h.nodup hzero hcounters hclosed
        · rename_i s' hadd
          obtain ⟨hmem, hnodup, hrest⟩ := addLikwidInitialize_some hadd
          have hzero' : ∀ cpu ∈ s'.initializedCpus, cpu = 0 := by
            intro cpu hcpu
            rcases (hmem cpu).mp hcpu with rfl | hcpu
            · rfl
            · exact hzero cpu hcpu
          have hcounters' : s'.counters = [] := by rw [hrest, ← hcounters]
          have hclosed' : s'.session = false := by rw [hrest, ← hclosed]
          have hvalid := valid_of_closed (hnodup h.nodup) hzero' hcounters' hclosed'
          split
          · exact hvalid
          · split
            · exact hvalid
            · refine ⟨hvalid.nodup, nofun, fun _ cpu hcpu => ?_, hvalid.reads⟩
              rw [hzero' cpu hcpu, hrest]
              exact List.mem_singleton_self 0

/-- A register is read that may be read. -/
theorem Valid.readFirst (h : Valid s) (hopen : s.session = true) {cpu : Int}
    (hcpu : cpu ∈ s.initializedCpus) (reg : Nat) (domain : PowerType) (o : LikwidSetup) :
    ∃ s', readFirst s cpu reg domain o = .ok s' ∧ Valid s' ∧
      s'.initializedCpus = s.initializedCpus ∧ s'.announced = s.announced ∧
      s'.session = s.session := by
  unfold Likwid.readFirst powerRead
  rw [if_pos (h.announced hopen cpu hcpu)]
  cases o.reading with
  | none => exact ⟨s, rfl, h, rfl, rfl, rfl⟩
  | some reading =>
      cases o.allocates with
      | false => exact ⟨s, rfl, h, rfl, rfl, rfl⟩
      | true =>
          cases o.startsThread with
          | false => exact ⟨s, rfl, h, rfl, rfl, rfl⟩
          | true =>
              refine ⟨_, rfl, ⟨h.nodup, fun hclosed => ?_, h.announced, fun counter hcounter => ?_⟩,
                rfl, rfl, rfl⟩
              · rw [hopen] at hclosed
                cases hclosed
              · rcases List.mem_append.mp hcounter with hcounter | hcounter
                · exact h.reads counter hcounter
                · obtain rfl := List.mem_singleton.mp hcounter
                  exact hcpu

/-- A CPU is announced and added to the list. -/
theorem Valid.added (h : Valid s) (hopen : s.session = true) {cpu : Int} {grows : Bool}
    (hadd : addLikwidInitialize { s with announced := cpu :: s.announced } cpu grows = some s') :
    Valid s' ∧ s'.session = true ∧ cpu ∈ s'.initializedCpus := by
  obtain ⟨hmem, hnodup, hrest⟩ := addLikwidInitialize_some hadd
  have hopen' : s'.session = true := by rw [hrest, ← hopen]
  refine ⟨⟨hnodup h.nodup, fun hclosed => ?_, fun _ x hx => ?_, fun counter hcounter => ?_⟩, hopen',
    (hmem cpu).mpr (.inl rfl)⟩
  · rw [hopen'] at hclosed
    cases hclosed
  · rw [hrest]
    rcases (hmem x).mp hx with rfl | hx
    · exact List.mem_cons_self ..
    · exact List.mem_cons_of_mem _ (h.announced hopen x hx)
  · rw [hrest] at hcounter
    exact (hmem _).mpr (.inr (h.reads counter hcounter))

theorem Valid.setup (h : Valid s) (hopen : s.session = true) {counterType : Counter} {index : Nat}
    {o : LikwidSetup} :
    setup arch s counterType index o = .error .missingChild ∨
      ∃ s', setup arch s counterType index o = .ok s' ∧ Valid s' := by
  have hsame : ∃ s', (.ok s : Except LikwidFault LikwidState) = .ok s' ∧ Valid s' := ⟨s, rfl, h⟩
  unfold Likwid.setup
  cases getTestCpu arch .socket index with
  | none => exact .inl rfl
  | some cpu =>
      right
      simp only
      split
      · exact hsame
      · cases register counterType with
        | none => exact hsame
        | some found =>
            obtain ⟨reg, domain⟩ := found
            simp only
            by_cases hmem : cpu ∈ s.initializedCpus
            · rw [if_pos (isLikwidInitialized_iff.mpr hmem)]
              obtain ⟨s', hread, hvalid, -⟩ := h.readFirst hopen hmem reg domain o
              exact ⟨s', hread, hvalid⟩
            · rw [if_neg (mt isLikwidInitialized_iff.mp hmem)]
              split
              · exact hsame
              · have hannounced : Valid { s with announced := cpu :: s.announced } :=
                  ⟨h.nodup, h.closed,
                    fun _ x hx => List.mem_cons_of_mem _ (h.announced hopen x hx), h.reads⟩
                split
                · exact ⟨_, rfl, hannounced⟩
                · rename_i s₁ hadd
                  obtain ⟨hvalid, hopen', hlast⟩ := h.added hopen hadd
                  obtain ⟨s'', hread, hvalid', -⟩ := hvalid.readFirst hopen' hlast reg domain o
                  exact ⟨s'', hread, hvalid'⟩

/-- A counter is read that is in use. -/
theorem Valid.readCounter (h : Valid s) (position : Nat) (reading : Option UInt32) :
    readCounter s position reading = .error .refused ∨
      ∃ s', readCounter s position reading = .ok s' ∧ Valid s' := by
  unfold Likwid.readCounter
  cases hget : s.counters[position]? with
  | none => exact .inl rfl
  | some counter =>
      right
      have hmem := List.mem_of_getElem? hget
      have hopen : s.session = true := by
        by_contra hclosed
        rw [(h.closed (Bool.eq_false_iff.mpr hclosed)).2] at hmem
        cases hmem
      have hreads := h.reads counter hmem
      simp only [powerRead, if_pos (h.announced hopen _ hreads)]
      refine ⟨_, rfl, h.nodup, fun hclosed => ?_, h.announced, fun other hother => ?_⟩
      · rw [hopen] at hclosed
        cases hclosed
      · rcases List.mem_or_eq_of_mem_set hother with hother | rfl
        · exact h.reads other hother
        · exact hreads

/-- **Every call keeps what is announced**, and reads nothing else. -/
theorem Valid.step (h : Valid s) (call : LikwidCall) :
    step arch s call ≠ .error .notAnnounced ∧ ∀ s', step arch s call = .ok s' → Valid s' := by
  have hends : ∀ {result : Except LikwidFault LikwidState},
      (result = .error .refused ∨ result = .error .missingChild ∨
        ∃ s', result = .ok s' ∧ Valid s') →
      result ≠ .error .notAnnounced ∧ ∀ s', result = .ok s' → Valid s' := by
    rintro result (rfl | rfl | ⟨s', rfl, hvalid⟩)
    · exact ⟨by simp, nofun⟩
    · exact ⟨by simp, nofun⟩
    · exact ⟨by simp, fun _ heq => Except.ok.inj heq ▸ hvalid⟩
  apply hends
  unfold Likwid.step
  cases call with
  | init o =>
      simp only
      split
      · exact .inl rfl
      · rename_i hclosed
        exact .inr (.inr ⟨_, rfl, h.init (Bool.eq_false_iff.mpr hclosed) o⟩)
  | setup counterType index o =>
      simp only
      split
      · rename_i hopen
        exact .inr (h.setup hopen)
      · exact .inl rfl
  | read position reading =>
      rcases h.readCounter position reading with hrefused | hread
      · exact .inl hrefused
      · exact .inr (.inr hread)
  | close position =>
      refine .inr (.inr ⟨_, rfl, h.nodup, fun hclosed => ?_, h.announced,
        fun counter hcounter => ?_⟩)
      · obtain ⟨hzero, hcounters⟩ := h.closed hclosed
        exact ⟨hzero, by rw [hcounters]; rfl⟩
      · exact h.reads counter (List.mem_of_mem_eraseIdx hcounter)
  | fini =>
      simp only
      split
      · rename_i hfini
        exact .inr (.inr ⟨_, rfl, valid_of_closed List.nodup_nil nofun
          (List.eq_nil_of_length_eq_zero hfini.2) rfl⟩)
      · exact .inl rfl

/-- **Each register is read in a session that knows its CPU**: no run in which `init` is called only
outside a session, `setup` only in one, and `fini` only in one without a counter in use comes to
a `power_read` for a CPU that was not announced, and wherever one ends the list has each CPU
once and the counters read CPUs of the list. -/
theorem reads_announced (calls : List LikwidCall) :
    Transition.run (Likwid.step arch) start calls ≠ .error .notAnnounced ∧
      ∀ s, Transition.run (Likwid.step arch) start calls = .ok s → Valid s := by
  constructor
  · exact Transition.run_ne_error (I := Valid) (fun s call s' h hstep => (h.step call).2 s' hstep)
      (fun s call h => (h.step call).1) calls start_valid
  · intro s hrun
    exact Transition.run_invariant (fun s call _ s' h hstep => (Valid.step h call).2 s' hstep)
      start_valid hrun

/-- The list can grow if it has to. -/
def Grows : LikwidCall → Prop
  | .setup _ _ o => o.grows = true
  | _ => True

/-- In a session no CPU was announced twice, and all are in the list. -/
def Once (s : LikwidState) : Prop :=
  s.session = true → s.announced.Nodup ∧ ∀ cpu ∈ s.announced, cpu ∈ s.initializedCpus

theorem Once.init (o : LikwidInit) (hclosed : s.session = false) : Once (init s o) := by
  have hvacuous : ∀ {s' : LikwidState}, s'.session = false → Once s' := by
    intro s' hs' hopen
    rw [hs'] at hopen
    cases hopen
  unfold Likwid.init
  simp only
  split
  · exact hvacuous hclosed
  · split
    · exact hvacuous hclosed
    · split
      · exact hvacuous hclosed
      · split
        · exact hvacuous hclosed
        · rename_i s' hadd
          obtain ⟨hmem, -, hrest⟩ := addLikwidInitialize_some hadd
          have hclosed' : s'.session = false := by rw [hrest, ← hclosed]
          split
          · exact hvacuous hclosed'
          · split
            · exact hvacuous hclosed'
            · intro _
              have hannounced : s'.announced = [0] := by rw [hrest]
              rw [hannounced]
              refine ⟨List.nodup_singleton 0, fun cpu hcpu => ?_⟩
              exact (hmem cpu).mpr (.inl (List.mem_singleton.mp hcpu))

/-- Only the list and what is announced matter. -/
theorem Once.congr (h : Once s) (hlist : s'.initializedCpus = s.initializedCpus)
    (hannounced : s'.announced = s.announced) (hsession : s'.session = s.session) : Once s' := by
  unfold Once
  rw [hlist, hannounced, hsession]
  exact h

theorem Once.setup (honce : Once s) (h : Valid s) (hopen : s.session = true)
    {counterType : Counter} {index : Nat} {o : LikwidSetup} (hgrows : o.grows = true)
    (hsetup : setup arch s counterType index o = .ok s') : Once s' := by
  unfold Likwid.setup at hsetup
  cases hcpu : getTestCpu arch .socket index with
  | none =>
      rw [hcpu] at hsetup
      cases hsetup
  | some cpu =>
      simp only [hcpu] at hsetup
      split at hsetup
      · cases hsetup
        exact honce
      · cases hregister : register counterType with
        | none =>
            rw [hregister] at hsetup
            cases hsetup
            exact honce
        | some found =>
            obtain ⟨reg, domain⟩ := found
            simp only [hregister] at hsetup
            by_cases hmem : cpu ∈ s.initializedCpus
            · rw [if_pos (isLikwidInitialized_iff.mpr hmem)] at hsetup
              obtain ⟨s'', hread, -, hlist, hannounced, hsession⟩ :=
                h.readFirst hopen hmem reg domain o
              obtain rfl := Except.ok.inj (hread.symm.trans hsetup)
              exact honce.congr hlist hannounced hsession
            · rw [if_neg (mt isLikwidInitialized_iff.mp hmem)] at hsetup
              split at hsetup
              · cases hsetup
                exact honce
              · split at hsetup
                · rename_i hrefused
                  exact absurd hrefused (addLikwidInitialize_ne_none hgrows)
                · rename_i s₁ hadd
                  obtain ⟨hvalid, hopen', hlast⟩ := h.added hopen hadd
                  obtain ⟨hmem', -, hrest⟩ := addLikwidInitialize_some hadd
                  obtain ⟨hnodup, hall⟩ := honce hopen
                  obtain ⟨s'', hread, -, hlist, hannounced, hsession⟩ :=
                    hvalid.readFirst hopen' hlast reg domain o
                  obtain rfl := Except.ok.inj (hread.symm.trans hsetup)
                  have hnew : s₁.announced = cpu :: s.announced := by rw [hrest]
                  refine Once.congr (fun _ => ?_) hlist hannounced hsession
                  rw [hnew]
                  refine ⟨List.nodup_cons.mpr ⟨fun hcpu => hmem (hall cpu hcpu), hnodup⟩,
                    fun x hx => (hmem' x).mpr ?_⟩
                  rcases List.mem_cons.mp hx with rfl | hx
                  · exact .inl rfl
                  · exact .inr (hall x hx)

theorem Once.step {call : LikwidCall} (h : Valid s) (honce : Once s) (hgrows : Grows call)
    (hstep : step arch s call = .ok s') : Once s' := by
  unfold Likwid.step at hstep
  cases call with
  | init o =>
      simp only at hstep
      split at hstep
      · cases hstep
      · rename_i hclosed
        cases hstep
        exact .init o (Bool.eq_false_iff.mpr hclosed)
  | setup counterType index o =>
      simp only at hstep
      split at hstep
      · rename_i hopen
        exact honce.setup h hopen hgrows hstep
      · cases hstep
  | read position reading =>
      simp only [readCounter] at hstep
      split at hstep
      · cases hstep
      · split at hstep
        · cases hstep
        · cases hstep
          exact honce
  | close position =>
      cases hstep
      exact honce
  | fini =>
      simp only at hstep
      split at hstep
      · cases hstep
        exact nofun
      · cases hstep

/-- **A CPU is announced once in a session** if the list of CPUs can always grow and the calls come
in the order of `reads_announced`; the announced CPUs are then those of the list. -/
theorem announces_once {calls : List LikwidCall} (hgrows : ∀ call ∈ calls, Grows call)
    (hrun : Transition.run (Likwid.step arch) start calls = .ok s) (hopen : s.session = true) :
    s.announced.Nodup ∧ s.announced.Perm s.initializedCpus := by
  have hend : Valid s ∧ Once s :=
    Transition.run_invariant (I := fun s => Valid s ∧ Once s)
      (fun s call hcall s' h hstep =>
        ⟨(h.1.step call).2 s' hstep, h.2.step h.1 (hgrows call hcall) hstep⟩)
      ⟨start_valid, nofun⟩ hrun
  obtain ⟨hvalid, honce⟩ := hend
  obtain ⟨hnodup, hmem⟩ := honce hopen
  refine ⟨hnodup, (List.perm_ext_iff_of_nodup hnodup hvalid.nodup).mpr fun cpu => ?_⟩
  exact ⟨hmem cpu, hvalid.announced hopen cpu⟩

/-- An `init` and a `setup` in which everything succeeds. -/
def initSucceeds : LikwidInit := ⟨true, true, true, true, true, true⟩

def setupSucceeds : LikwidSetup := ⟨true, true, some 5, true, true, fun _ => 1⟩

/-- Two counters of one CPU, in the second session of a process. -/
def likwidCalls : List LikwidCall :=
  [.init initSucceeds, .fini, .init initSucceeds, .setup .pckg 0 setupSucceeds,
    .setup .dram 0 setupSucceeds, .read 0 (some 7)]

theorem announces_once_likwidCalls :
    ∃ s, Transition.run (Likwid.step twoSocketTree) start likwidCalls = .ok s ∧
      s.announced = [2, 0] ∧ s.announced.Nodup ∧ s.announced.Perm s.initializedCpus := by
  obtain ⟨s, hrun, hannounced, hopen⟩ :
      ∃ s, Transition.run (Likwid.step twoSocketTree) start likwidCalls = .ok s ∧
        s.announced = [2, 0] ∧ s.session = true := ⟨_, rfl, rfl, rfl⟩
  refine ⟨s, hrun, hannounced, announces_once ?_ hrun hopen⟩
  simp [likwidCalls, Grows, setupSucceeds]

end Steps

end Likwid

end Access
end X86Energy
