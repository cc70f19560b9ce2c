import X86Energy.Access.DoRead
import X86Energy.Library.Samples
import X86Energy.Library.Transition

/-!
# Calls of `do_read` that interleave

The thread that watches for overflows and a client call `do_read` on the same counter.
Between the read of the device and the store of `last_reading` the other one may run,
unless `do_read` holds the mutex of the counter in between.

A value that is stored after a later one looks like a wrap.  If none is, `last_reading`
moves as far as the energy; a source that locks the mutex sees to it.
-/

namespace X86Energy
namespace Access

/-- The threads that call `do_read`. -/
inductive Caller
  | overflowThread
  | client
deriving DecidableEq

/-- A step that the thread is not at, or a mutex that is taken. -/
inductive Refused
  | notThere
  | blocked

namespace WrapSource

/-- The sources whose `do_read` locks `def->mutex` before it reads the device and unlocks
it after it stored `last_reading`. -/
def locks : WrapSource → Bool
  | msr | msrFam23 | likwid => true
  | x86Adapt | x86AdaptFam23 => false

/-- What the device delivers, and the energy that it shows. -/
structure Sample (source : WrapSource) where
  raw : source.Raw
  energy : Nat
  shows : source.Shows raw energy

/-- Where a thread stands in `do_read`: outside, before the read of the device, before the
store, before the end of the critical section, and before the `return`. -/
inductive Call (source : WrapSource)
  | idle
  | entered
  | fetched (sample : Sample source)
  | done (succeeded : Bool)
  | left (succeeded : Bool)

/-- The energy of a sample that was not stored yet. -/
def Call.kept {source : WrapSource} : Call source → Option Nat
  | .fetched sample => some sample.energy
  | _ => none

/-- The places between `pthread_mutex_lock` and `pthread_mutex_unlock`. -/
def Call.inside {source : WrapSource} : Call source → Bool
  | .entered | .fetched _ | .done _ => true
  | .idle | .left _ => false

/-- The steps of `do_read`; `none` is a device that fails. -/
inductive Move (source : WrapSource)
  | enter
  | fetch (result : Option (Sample source))
  | store
  | leave
  | ret

/-- A counter with its mutex, the calls on it, and what they returned. -/
structure Shared (source : WrapSource) where
  reader : Reader
  mutex : Option Caller
  calls : Caller → Call source
  results : List (Caller × Float)

namespace Shared

variable {source : WrapSource}

/-- The state in which `setup` leaves the counter. -/
def start (source : WrapSource) (raw : source.Raw) (unit : Float) : Shared source :=
  ⟨⟨source.setupReading raw, unit⟩, none, fun _ => .idle, []⟩

def goto (s : Shared source) (caller : Caller) (call : Call source) : Shared source :=
  { s with calls := Function.update s.calls caller call }

/-- One step of one thread. -/
def advance (s : Shared source) (caller : Caller) (move : Move source) :
    Except Refused (Shared source) :=
  match s.calls caller, move with
  | .idle, .enter =>
      if source.locks then
        if s.mutex = none then .ok ({ s with mutex := some caller }.goto caller .entered)
        else .error .blocked
      else .ok (s.goto caller .entered)
  | .entered, .fetch none => .ok (s.goto caller (.done false))
  | .entered, .fetch (some sample) => .ok (s.goto caller (.fetched sample))
  | .fetched sample, .store =>
      .ok ({ s with reader := (source.doRead (some sample.raw) s.reader).2 }.goto caller
        (.done true))
  | .done succeeded, .leave =>
      if source.locks then .ok ({ s with mutex := none }.goto caller (.left succeeded))
      else .ok (s.goto caller (.left succeeded))
  | .left succeeded, .ret =>
      let result := if succeeded then s.reader.unit * s.reader.lastReading.toFloat else -1.0
      .ok ({ s with results := s.results ++ [(caller, result)] }.goto caller .idle)
  | _, _ => .error .notThere

def step (s : Shared source) (action : Caller × Move source) : Except Refused (Shared source) :=
  s.advance action.1 action.2

/-- No call is in progress. -/
def Quiet (s : Shared source) : Prop := ∀ caller, s.calls caller = .idle

end Shared

/-- The energies of the reads of the device, in the order of time. -/
def fetches {source : WrapSource} : List (Caller × Move source) → List (Option Nat)
  | [] => []
  | (_, .fetch result) :: moves => result.map Sample.energy :: fetches moves
  | _ :: moves => fetches moves

/-- **No wrap is lost or counted in vain**: when no call is in progress, `last_reading` moved
as far as the energy up to the latest read of the device. -/
def CountsRight {source : WrapSource} (raw : source.Raw) (energy₀ : Nat)
    (moves : List (Caller × Move source)) (s : Shared source) : Prop :=
  s.Quiet → s.reader.lastReading - source.setupReading raw =
    UInt64.ofNat (WrapCounter.latest energy₀ (fetches moves) - energy₀)

namespace Shared

variable {source : WrapSource} {s t : Shared source} {caller : Caller} {move : Move source}

/-- The steps, one by one. -/
inductive Advances (s : Shared source) (caller : Caller) : Move source → Shared source → Prop
  | enter (mutex : Option Caller) (hcall : s.calls caller = .idle)
      (hlocks : source.locks = true → s.mutex = none ∧ mutex = some caller) :
      Advances s caller .enter ({ s with mutex := mutex }.goto caller .entered)
  | fail (hcall : s.calls caller = .entered) :
      Advances s caller (.fetch none) (s.goto caller (.done false))
  | fetch (sample : Sample source) (hcall : s.calls caller = .entered) :
      Advances s caller (.fetch (some sample)) (s.goto caller (.fetched sample))
  | store (sample : Sample source) (hcall : s.calls caller = .fetched sample) :
      Advances s caller .store
        ({ s with reader := (source.doRead (some sample.raw) s.reader).2 }.goto caller
          (.done true))
  | leave (succeeded : Bool) (mutex : Option Caller) (hcall : s.calls caller = .done succeeded) :
      Advances s caller .leave ({ s with mutex := mutex }.goto caller (.left succeeded))
  | ret (succeeded : Bool) (results : List (Caller × Float))
      (hcall : s.calls caller = .left succeeded) :
      Advances s caller .ret ({ s with results := results }.goto caller .idle)

theorem advances_of_ok (h : s.advance caller move = .ok t) : Advances s caller move t := by
  unfold advance at h
  split at h
  · rename_i hcall
    split at h
    · split at h
      · rename_i hfree
        cases h
        exact .enter (some caller) hcall fun _ => ⟨hfree, rfl⟩
      · cases h
    · rename_i hlocks
      cases h
      exact .enter s.mutex hcall fun h => absurd h hlocks
  · rename_i hcall
    cases h
    exact .fail hcall
  · rename_i sample hcall
    cases h
    exact .fetch sample hcall
  · rename_i sample hcall
    cases h
    exact .store sample hcall
  · rename_i succeeded hcall
    split at h
    · cases h
      exact .leave succeeded none hcall
    · cases h
      exact .leave succeeded s.mutex hcall
  · rename_i succeeded hcall
    cases h
    exact .ret succeeded _ hcall
  · cases h

section Alone

/-- A call from its beginning to its end. -/
def wholeCall (caller : Caller) : Option (Sample source) → List (Caller × Move source)
  | none => [(caller, .enter), (caller, .fetch none), (caller, .leave), (caller, .ret)]
  | some sample =>
      [(caller, .enter), (caller, .fetch (some sample)), (caller, .store), (caller, .leave),
        (caller, .ret)]

theorem doRead_some_fst (raw : source.Raw) (reader : Reader) :
    (source.doRead (some raw) reader).1 =
      (source.doRead (some raw) reader).2.unit *
        (source.doRead (some raw) reader).2.lastReading.toFloat := by
  cases source <;> rfl

/-- **A call that is not interrupted** is the function `doRead`. -/
theorem run_wholeCall (hidle : s.calls caller = .idle) (hfree : s.mutex = none)
    (result : Option (Sample source)) :
    Transition.run step s (wholeCall caller result) =
      .ok { s with
        reader := (source.doRead (result.map Sample.raw) s.reader).2
        results := s.results ++ [(caller, (source.doRead (result.map Sample.raw) s.reader).1)] } := by
  have hback : Function.update s.calls caller .idle = s.calls := by
    rw [← hidle, Function.update_eq_self]
  cases hlocks : source.locks <;> cases result <;>
    simp [wholeCall, Transition.run, step, advance, goto, hidle, hfree, hlocks, hback,
      doRead_none, doRead_some_fst]

end Alone

section Order

def kept (s : Shared source) (caller : Caller) : Option Nat := (s.calls caller).kept

/-- A call stores its sample when no other call holds one with less energy. -/
def StoresInOrder (s : Shared source) : Caller × Move source → Prop
  | (caller, .store) => ∀ e, s.kept caller = some e → Samples.Lowest s.kept e
  | _ => True

@[simp] theorem calls_goto (s : Shared source) (caller : Caller) (call : Call source) :
    (s.goto caller call).calls = Function.update s.calls caller call := rfl

theorem kept_of_call {call : Call source} (h : s.calls caller = call) :
    s.kept caller = call.kept := by
  rw [kept, h]

theorem kept_goto (s : Shared source) (caller : Caller) (call : Call source) :
    (s.goto caller call).kept = Function.update s.kept caller call.kept := by
  funext c
  rw [kept, calls_goto]
  by_cases hc : c = caller
  · rw [hc, Function.update_self, Function.update_self]
  · rw [Function.update_of_ne hc, Function.update_of_ne hc, kept]

/-- **The invariant**: `last_reading` followed the energy up to some sample, and the later
ones are still to be stored. -/
def Follows (setup : UInt64) (energy₀ latest : Nat) (s : Shared source) : Prop :=
  ∃ stored, Samples.Delayed (2 ^ 32) latest stored s.kept ∧
    WrapCounter.Tracks (2 ^ 32) (2 ^ 64) setup.toNat energy₀ s.reader.lastReading.toNat stored

variable {setup : UInt64} {energy₀ latest : Nat}

theorem follows_start {raw : source.Raw} (h : source.Shows raw energy₀) (unit : Float) :
    Follows (source.setupReading raw) energy₀ energy₀ (start source raw unit) :=
  ⟨energy₀, .start fun _ => rfl, .start (toNat_setupReading h)⟩

/-- A step between two places at which a call holds no sample. -/
theorem Follows.keep (h : Follows setup energy₀ latest s) {call : Call source}
    (hcall : s.kept caller = none) (hnone : call.kept = none) (mutex : Option Caller)
    (results : List (Caller × Float)) :
    Follows setup energy₀ latest ({ s with mutex := mutex, results := results }.goto caller call) := by
  obtain ⟨stored, hdelayed, htracks⟩ := h
  have hkept : ({ s with mutex := mutex, results := results }.goto caller call).kept = s.kept := by
    rw [kept_goto, hnone, ← hcall]
    exact Function.update_eq_self caller s.kept
  exact ⟨stored, hkept ▸ hdelayed, htracks⟩

theorem Follows.fetch (h : Follows setup energy₀ latest s) (sample : Sample source)
    (hcall : s.calls caller = .entered) (hle : latest ≤ sample.energy)
    (hlt : sample.energy < latest + 2 ^ 32) :
    Follows setup energy₀ sample.energy (s.goto caller (.fetched sample)) := by
  obtain ⟨stored, hdelayed, htracks⟩ := h
  have hfree : s.kept caller = none := kept_of_call hcall
  refine ⟨stored, ?_, htracks⟩
  rw [kept_goto]
  exact hdelayed.sample hfree hle hlt

/-- **A store in order** moves `last_reading` as far as the energy. -/
theorem Follows.store (h : Follows setup energy₀ latest s) {sample : Sample source}
    (hcall : s.calls caller = .fetched sample) (horder : s.StoresInOrder (caller, .store)) :
    Follows setup energy₀ latest
      ({ s with reader := (source.doRead (some sample.raw) s.reader).2 }.goto caller
        (.done true)) := by
  obtain ⟨stored, hdelayed, htracks⟩ := h
  have hkept : s.kept caller = some sample.energy := kept_of_call hcall
  have hlowest := horder sample.energy hkept
  refine ⟨sample.energy, ?_, ?_⟩
  · rw [kept_goto]
    exact hdelayed.store hkept hlowest
  · have hstep := htracks.step (by decide) (hdelayed.floor caller _ hkept)
      (hdelayed.lowest_lt (by decide) hkept hlowest)
    rw [← toNat_doRead sample.shows] at hstep
    exact hstep

/-- **Runs in order.** -/
theorem Follows.run {moves : List (Caller × Move source)} :
    ∀ {s : Shared source} {latest : Nat}, Follows setup energy₀ latest s →
      WrapCounter.Rising (2 ^ 32) latest (fetches moves) →
      Transition.Meets step StoresInOrder s moves → Transition.run step s moves = .ok t →
      Follows setup energy₀ (WrapCounter.latest latest (fetches moves)) t := by
  induction moves with
  | nil =>
      intro s latest h _ _ hrun
      cases hrun
      exact h
  | cons action moves ih =>
      intro s latest h hrising horder hrun
      obtain ⟨caller, move⟩ := action
      obtain ⟨m, hstep, hrest⟩ := Transition.run_cons_success hrun
      have hnext := horder.2 m hstep
      cases advances_of_ok hstep with
      | enter mutex hcall =>
          exact ih (h.keep (kept_of_call hcall) rfl mutex s.results) hrising hnext hrest
      | fail hcall =>
          exact ih (h.keep (kept_of_call hcall) rfl s.mutex s.results) hrising hnext hrest
      | fetch sample hcall =>
          obtain ⟨hle, hlt, hrising⟩ := hrising
          exact ih (h.fetch sample hcall hle hlt) hrising hnext hrest
      | store sample hcall => exact ih (h.store hcall horder.1) hrising hnext hrest
      | leave succeeded mutex hcall =>
          exact ih (h.keep (kept_of_call hcall) rfl mutex s.results) hrising hnext hrest
      | ret succeeded results hcall =>
          exact ih (h.keep (kept_of_call hcall) rfl s.mutex results) hrising hnext hrest

/-- Without a call in progress nothing is missing. -/
theorem Follows.quiet (h : Follows setup energy₀ latest s) (hquiet : s.Quiet) :
    s.reader.lastReading - setup = UInt64.ofNat (latest - energy₀) := by
  obtain ⟨stored, hdelayed, htracks⟩ := h
  have hstored : stored = latest :=
    hdelayed.settled fun caller => kept_of_call (hquiet caller)
  have hmoved := htracks.moved
  have hlt := setup.toNat_lt
  have hlt' := s.reader.lastReading.toNat_lt
  rw [hstored] at hmoved
  apply UInt64.toNat_inj.mp
  rw [UInt64.toNat_sub, UInt64.toNat_ofNat']
  omega

end Order

section Mutex

/-- Who is in a critical section holds the mutex. -/
def Exclusive (s : Shared source) : Prop :=
  ∀ caller, (s.calls caller).inside = true → s.mutex = some caller

theorem inside_goto {call : Call source} {c : Caller}
    (h : ((s.goto caller call).calls c).inside = true) :
    (c = caller ∧ call.inside = true) ∨ (c ≠ caller ∧ (s.calls c).inside = true) := by
  rw [calls_goto] at h
  by_cases hc : c = caller
  · rw [hc, Function.update_self] at h
    exact .inl ⟨hc, h⟩
  · rw [Function.update_of_ne hc] at h
    exact .inr ⟨hc, h⟩

/-- A step inside the critical section. -/
theorem Exclusive.stay (h : Exclusive s) (hcall : (s.calls caller).inside = true)
    (reader : Reader) (call : Call source) :
    Exclusive ({ s with reader := reader }.goto caller call) := by
  intro c hc
  rcases inside_goto hc with ⟨rfl, _⟩ | ⟨_, hc⟩
  · exact h c hcall
  · exact h c hc

theorem Exclusive.step (hlocks : source.locks = true) (h : Exclusive s)
    (hstep : s.advance caller move = .ok t) : Exclusive t := by
  cases advances_of_ok hstep with
  | enter mutex hcall hmutex =>
      obtain ⟨hfree, hmutex⟩ := hmutex hlocks
      intro c hc
      rcases inside_goto hc with ⟨rfl, _⟩ | ⟨_, hc⟩
      · exact hmutex
      · have hheld := h c hc
        rw [hfree] at hheld
        cases hheld
  | fail hcall => exact h.stay (by rw [hcall, Call.inside]) s.reader _
  | fetch sample hcall => exact h.stay (by rw [hcall, Call.inside]) s.reader _
  | store sample hcall => exact h.stay (by rw [hcall, Call.inside]) _ _
  | leave succeeded mutex hcall =>
      have hmine := h caller (by rw [hcall, Call.inside])
      intro c hc
      rcases inside_goto hc with ⟨_, hout⟩ | ⟨hne, hc⟩
      · cases hout
      · have hheld := h c hc
        rw [hmine] at hheld
        exact absurd (Option.some.inj hheld).symm hne
  | ret succeeded results hcall =>
      intro c hc
      rcases inside_goto hc with ⟨_, hout⟩ | ⟨_, hc⟩
      · cases hout
      · exact h c hc

/-- One call at a time stores in order. -/
theorem Exclusive.storesInOrder (h : Exclusive s) (action : Caller × Move source) :
    s.StoresInOrder action := by
  obtain ⟨caller, move⟩ := action
  have hinside : ∀ c e, s.kept c = some e → s.mutex = some c := by
    intro c e he
    apply h c
    unfold kept at he
    cases hcall : s.calls c <;> simp_all [Call.kept, Call.inside]
  cases move with
  | store =>
      intro e he c e' he'
      have hsame : c = caller :=
        Option.some.inj ((hinside c e' he').symm.trans (hinside caller e he))
      rw [hsame, he] at he'
      exact (Option.some.inj he').le
  | enter => trivial
  | fetch result => trivial
  | leave => trivial
  | ret => trivial

/-- A source that locks the mutex stores in order in every run. -/
theorem storesInOrder_of_locks (hlocks : source.locks = true) (raw : source.Raw) (unit : Float)
    (moves : List (Caller × Move source)) :
    Transition.Meets step StoresInOrder (start source raw unit) moves :=
  Transition.Meets.of_invariant (fun _ _ _ h hstep => Exclusive.step hlocks h hstep)
    (fun _ action h => Exclusive.storesInOrder h action) moves fun _ hc => nomatch hc

end Mutex

end Shared

/-- **Interleaved reads**: `last_reading` moves as far as the energy in every run in which
no call stores a sample while the other one holds one with less energy, and in every run
of a source that locks the mutex. -/
theorem countsRight_interleaved (source : WrapSource) {raw : source.Raw} {energy₀ : Nat}
    (hsetup : source.Shows raw energy₀) (unit : Float) {moves : List (Caller × Move source)}
    (hrising : WrapCounter.Rising (2 ^ 32) energy₀ (fetches moves))
    (horder : Transition.Meets Shared.step
      (fun s action => source.locks = true ∨ s.StoresInOrder action)
      (Shared.start source raw unit) moves)
    {s : Shared source}
    (hrun : Transition.run Shared.step (Shared.start source raw unit) moves = .ok s) :
    CountsRight raw energy₀ moves s := by
  have hmeets : Transition.Meets Shared.step Shared.StoresInOrder
      (Shared.start source raw unit) moves := by
    by_cases hlocks : source.locks = true
    · exact Shared.storesInOrder_of_locks hlocks raw unit moves
    · exact horder.mono fun _ _ _ h => h.resolve_left hlocks
  exact ((Shared.follows_start hsetup unit).run hrising hmeets hrun).quiet

section Machines

/-- Two calls that both read the device before one of them stores. -/
def overlapping {source : WrapSource} (overflow client : Sample source) (first second : Caller) :
    List (Caller × Move source) :=
  [(.overflowThread, .enter), (.client, .enter), (.overflowThread, .fetch (some overflow)),
    (.client, .fetch (some client)), (first, .store), (second, .store), (first, .leave),
    (first, .ret), (second, .leave), (second, .ret)]

/-- They store in the order of the reads, and the register wraps between these. -/
theorem countsRight_interleaved_x86Adapt :
    ∃ s, Transition.run Shared.step (Shared.start x86Adapt (0xFFFFFFFF : UInt64) 0.5)
        (overlapping ⟨(0xFFFFFFFF : UInt64), 0xFFFFFFFF, rfl⟩ ⟨(2 : UInt64), 0x100000002, rfl⟩
          .overflowThread .client) = .ok s ∧
      s.reader.lastReading - 0xFFFFFFFF = 3 := by
  refine ⟨_, rfl, ?_⟩
  refine @countsRight_interleaved x86Adapt (0xFFFFFFFF : UInt64) 0xFFFFFFFF rfl 0.5
    (overlapping ⟨(0xFFFFFFFF : UInt64), 0xFFFFFFFF, rfl⟩ ⟨(2 : UInt64), 0x100000002, rfl⟩
      .overflowThread .client) ⟨by decide, by decide, by decide, by decide, trivial⟩ ?_ _ rfl
    fun caller => by cases caller <;> rfl
  refine .cons (.inr trivial) rfl (.cons (.inr trivial) rfl (.cons (.inr trivial) rfl
    (.cons (.inr trivial) rfl (.cons (.inr fun e he c e' he' => ?_) rfl
      (.cons (.inr fun e he c e' he' => ?_) rfl (.cons (.inr trivial) rfl (.cons (.inr trivial) rfl
        (.cons (.inr trivial) rfl (.cons (.inr trivial) rfl trivial)))))))))
  · cases he
    cases c <;> cases he' <;> decide
  · cases he
    cases c with
    | overflowThread => cases he'
    | client =>
        cases he'
        decide

/-- **A late store**: the client stores its value before the thread stores the one that it
read earlier, and 2³² units are added that nobody used. -/
theorem not_countsRight_lateStore :
    ¬ ∀ (source : WrapSource) (raw : source.Raw) (energy₀ : Nat) (unit : Float)
      (moves : List (Caller × Move source)) (s : Shared source), source.Shows raw energy₀ →
      WrapCounter.Rising (2 ^ 32) energy₀ (fetches moves) →
      Transition.run Shared.step (Shared.start source raw unit) moves = .ok s →
      CountsRight raw energy₀ moves s := by
  intro h
  have hlate := h x86Adapt (0 : UInt64) 0 0.5
    (overlapping ⟨(5 : UInt64), 5, rfl⟩ ⟨(7 : UInt64), 7, rfl⟩ .client .overflowThread) _ rfl
    ⟨by decide, by decide, by decide, by decide, trivial⟩ rfl fun caller => by cases caller <;> rfl
  exact absurd hlate (by decide)

end Machines

end WrapSource

end Access
end X86Energy
