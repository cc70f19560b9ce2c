import X86Energy.Access.InterleavedReads
import X86Energy.Access.SysfsReads

/-!
# The two loads after the unlock

`do_read` of `sysfs-powercap-rapl` updates `overflow` and `last_reading` under the mutex,
and loads both again for its result after it unlocked it.  When the other thread counts a
wrap between the two loads, the result is made of an old and a new value.

A result is a pair that the fields had between two critical sections if the count that
the client loaded first is the one that belongs to the `last_reading` it loads next.
-/

namespace X86Energy
namespace Access
namespace Sysfs

/-- Where a thread stands in `do_read`.  `counted` is the place between the count of a wrap,
if there is one, and the store of `last_reading`. -/
inductive Call
  | idle
  | entered
  | fetched (reading : Int)
  | counted (reading : Int) (wrapped : Bool)
  | stored
  | failed
  | unlocked
  | loaded (overflow : Int)
  | computed (overflow lastReading : Int)
  | refused
deriving DecidableEq

/-- A wrap that is in `overflow` and not yet in `last_reading`. -/
def Call.ahead : Call → Int
  | .counted _ true => 1
  | _ => 0

/-- The reading that a caller has and has not stored. -/
def Call.held : Call → Option Int
  | .fetched reading => some reading
  | .counted reading _ => some reading
  | _ => none

/-- The places between `pthread_mutex_lock` and `pthread_mutex_unlock`. -/
def Call.inside : Call → Bool
  | .entered | .fetched _ | .counted _ _ | .stored | .failed => true
  | .idle | .unlocked | .loaded _ | .computed _ _ | .refused => false

/-- The steps of `do_read`. -/
inductive Move
  | lock
  | readFile (read : FileRead)
  | count
  | store
  | unlock
  | loadOverflow
  | loadLastReading
  | ret

/-- A counter with its mutex, the calls on it, and the pairs that they computed their
results from; `none` is a result -1.0. -/
structure SharedZone where
  counter : SysfsCounter
  mutex : Option Caller
  calls : Caller → Call
  results : List (Caller × Option (Int × Int))

namespace SharedZone

def start (counter : SysfsCounter) : SharedZone := ⟨counter, none, fun _ => .idle, []⟩

def goto (s : SharedZone) (caller : Caller) (call : Call) : SharedZone :=
  { s with calls := Function.update s.calls caller call }

/-- One step of one thread. -/
def advance (s : SharedZone) (caller : Caller) (move : Move) : Except Refused SharedZone :=
  match s.calls caller, move with
  | .idle, .lock =>
      if s.mutex = none then .ok ({ s with mutex := some caller }.goto caller .entered)
      else .error .blocked
  | .entered, .readFile read =>
      match read.value with
      | none => .ok (s.goto caller .failed)
      | some reading => .ok (s.goto caller (.fetched reading))
  | .fetched reading, .count =>
      if reading < s.counter.lastReading then
        .ok ({ s with counter := { s.counter with overflow := s.counter.overflow + 1 } }.goto
          caller (.counted reading true))
      else .ok (s.goto caller (.counted reading false))
  | .counted reading _, .store =>
      .ok ({ s with counter := { s.counter with lastReading := reading } }.goto caller .stored)
  | .stored, .unlock => .ok ({ s with mutex := none }.goto caller .unlocked)
  | .failed, .unlock => .ok ({ s with mutex := none }.goto caller .refused)
  | .unlocked, .loadOverflow => .ok (s.goto caller (.loaded s.counter.overflow))
  | .loaded overflow, .loadLastReading =>
      .ok (s.goto caller (.computed overflow s.counter.lastReading))
  | .computed overflow lastReading, .ret =>
      .ok ({ s with results := s.results ++ [(caller, some (overflow, lastReading))] }.goto
        caller .idle)
  | .refused, .ret => .ok ({ s with results := s.results ++ [(caller, none)] }.goto caller .idle)
  | _, _ => .error .notThere

def step (s : SharedZone) (action : Caller × Move) : Except Refused SharedZone :=
  s.advance action.1 action.2

/-- The two fields that a result is made of. -/
def fields (s : SharedZone) : Int × Int := (s.counter.overflow, s.counter.lastReading)

end SharedZone

/-- The integer that is scaled. -/
def value (max : Int) (pair : Int × Int) : Int := pair.1 * max + pair.2

/-- The integers that the results of the client are made of, in the order of time. -/
def clientValues (max : Int) : List (Caller × Option (Int × Int)) → List Int
  | [] => []
  | (.client, some pair) :: results => value max pair :: clientValues max results
  | _ :: results => clientValues max results

/-- The fields had these values between two critical sections: at a moment of the run, or
once a critical section that the run ends in is left. -/
def HeldBetween (s₀ : SharedZone) (actions : List (Caller × Move)) (pair : Int × Int) : Prop :=
  ∃ before rest s, before <+: actions ++ rest ∧ (rest = [] ∨ ∃ caller, rest = [(caller, .unlock)]) ∧
    Transition.run SharedZone.step s₀ before = .ok s ∧ s.mutex = none ∧ s.fields = pair

/-- **Whole results**: the fields had the values of each of them together, and they do not
fall. -/
def ReturnsWhole (s₀ : SharedZone) (actions : List (Caller × Move)) (s : SharedZone) : Prop :=
  (∀ pair, (Caller.client, some pair) ∈ s.results → HeldBetween s₀ actions pair) ∧
    (clientValues s₀.counter.max s.results).Pairwise (· ≤ ·)

/-- The reads of the file, in the order of time. -/
def fileReads : List (Caller × Move) → List FileRead
  | [] => []
  | (_, .readFile read) :: actions => read :: fileReads actions
  | _ :: actions => fileReads actions

namespace SharedZone

variable {s₀ s t : SharedZone} {done : List (Caller × Move)} {caller : Caller} {move : Move}

/-- The steps, one by one. -/
inductive Advances (s : SharedZone) (caller : Caller) : Move → SharedZone → Prop
  | lock (hcall : s.calls caller = .idle) (hfree : s.mutex = none) :
      Advances s caller .lock ({ s with mutex := some caller }.goto caller .entered)
  | fail (read : FileRead) (hcall : s.calls caller = .entered) :
      Advances s caller (.readFile read) (s.goto caller .failed)
  | fetch (read : FileRead) (reading : Int) (hcall : s.calls caller = .entered)
      (hvalue : read.value = some reading) :
      Advances s caller (.readFile read) (s.goto caller (.fetched reading))
  | wrap (reading : Int) (hcall : s.calls caller = .fetched reading) :
      Advances s caller .count
        ({ s with counter := { s.counter with overflow := s.counter.overflow + 1 } }.goto
          caller (.counted reading true))
  | keep (reading : Int) (hcall : s.calls caller = .fetched reading)
      (hle : s.counter.lastReading ≤ reading) :
      Advances s caller .count (s.goto caller (.counted reading false))
  | store (reading : Int) (wrapped : Bool) (hcall : s.calls caller = .counted reading wrapped) :
      Advances s caller .store
        ({ s with counter := { s.counter with lastReading := reading } }.goto caller .stored)
  | unlock (hcall : s.calls caller = .stored) :
      Advances s caller .unlock ({ s with mutex := none }.goto caller .unlocked)
  | giveUp (hcall : s.calls caller = .failed) :
      Advances s caller .unlock ({ s with mutex := none }.goto caller .refused)
  | loadOverflow (hcall : s.calls caller = .unlocked) :
      Advances s caller .loadOverflow (s.goto caller (.loaded s.counter.overflow))
  | loadLastReading (overflow : Int) (hcall : s.calls caller = .loaded overflow) :
      Advances s caller .loadLastReading
        (s.goto caller (.computed overflow s.counter.lastReading))
  | ret (overflow lastReading : Int) (hcall : s.calls caller = .computed overflow lastReading) :
      Advances s caller .ret
        ({ s with results := s.results ++ [(caller, some (overflow, lastReading))] }.goto
          caller .idle)
  | refuse (hcall : s.calls caller = .refused) :
      Advances s caller .ret ({ s with results := s.results ++ [(caller, none)] }.goto caller .idle)

theorem advances_of_ok (h : s.advance caller move = .ok t) : Advances s caller move t := by
  unfold advance at h
  split at h
  · rename_i hcall
    split at h
    · rename_i hfree
      cases h
      exact .lock hcall hfree
    · cases h
  · rename_i read hcall
    split at h
    · cases h
      exact .fail read hcall
    · rename_i reading hvalue
      cases h
      exact .fetch read reading hcall hvalue
  · rename_i reading hcall
    split at h
    · cases h
      exact .wrap reading hcall
    · rename_i hle
      cases h
      exact .keep reading hcall (Int.not_lt.mp hle)
  · rename_i reading wrapped hcall
    cases h
    exact .store reading wrapped hcall
  · rename_i hcall
    cases h
    exact .unlock hcall
  · rename_i hcall
    cases h
    exact .giveUp hcall
  · rename_i hcall
    cases h
    exact .loadOverflow hcall
  · rename_i overflow hcall
    cases h
    exact .loadLastReading overflow hcall
  · rename_i overflow lastReading hcall
    cases h
    exact .ret overflow lastReading hcall
  · rename_i hcall
    cases h
    exact .refuse hcall
  · cases h

@[simp] theorem calls_goto (s : SharedZone) (caller : Caller) (call : Call) :
    (s.goto caller call).calls = Function.update s.calls caller call := rfl

@[simp] theorem mutex_goto (s : SharedZone) (caller : Caller) (call : Call) :
    (s.goto caller call).mutex = s.mutex := rfl

@[simp] theorem counter_goto (s : SharedZone) (caller : Caller) (call : Call) :
    (s.goto caller call).counter = s.counter := rfl

@[simp] theorem results_goto (s : SharedZone) (caller : Caller) (call : Call) :
    (s.goto caller call).results = s.results := rfl

section Alone

/-- A call from its beginning to its end. -/
def wholeCall (caller : Caller) (read : FileRead) : List (Caller × Move) :=
  match read.value with
  | none => [(caller, .lock), (caller, .readFile read), (caller, .unlock), (caller, .ret)]
  | some _ =>
      [(caller, .lock), (caller, .readFile read), (caller, .count), (caller, .store),
        (caller, .unlock), (caller, .loadOverflow), (caller, .loadLastReading), (caller, .ret)]

/-- **A call that is not interrupted** is the function `doRead`. -/
theorem run_wholeCall (hidle : s.calls caller = .idle) (hfree : s.mutex = none)
    (read : FileRead) :
    Transition.run step s (wholeCall caller read) =
      .ok { s with
        counter := (doRead read s.counter).2
        results := s.results ++ [(caller, read.value.map fun _ =>
          ((doRead read s.counter).2.overflow, (doRead read s.counter).2.lastReading))] } := by
  have hback : Function.update s.calls caller .idle = s.calls := by
    rw [← hidle, Function.update_eq_self]
  cases hvalue : read.value with
  | none =>
      simp [wholeCall, hvalue, Transition.run, step, advance, goto, hidle, hfree, hback, doRead]
  | some reading =>
      by_cases hwrap : reading < s.counter.lastReading <;>
        simp [wholeCall, hvalue, Transition.run, step, advance, goto, hidle, hfree, hback, doRead,
          hwrap]

end Alone

section CriticalSection

/-- The wraps that are counted and not stored. -/
def ahead (s : SharedZone) : Int := (s.calls .overflowThread).ahead + (s.calls .client).ahead

/-- The fields, without a wrap whose `last_reading` is not stored yet. -/
def base (s : SharedZone) : Int × Int := (s.counter.overflow - s.ahead, s.counter.lastReading)

/-- **The critical section**: one thread at a time is in it, with a value of the range. -/
structure Orderly (max : Int) (s : SharedZone) : Prop where
  max_eq : s.counter.max = max
  exclusive : ∀ c, (s.calls c).inside = true ↔ s.mutex = some c
  range : 0 ≤ s.counter.lastReading ∧ s.counter.lastReading ≤ max
  fetched : ∀ c v, s.calls c = .fetched v → 0 ≤ v ∧ v ≤ max
  counted : ∀ c v w, s.calls c = .counted v w → 0 ≤ v ∧ v ≤ max
  kept : ∀ c v, s.calls c = .counted v false → s.counter.lastReading ≤ v

theorem ahead_goto (s : SharedZone) (caller : Caller) (call : Call) :
    (s.goto caller call).ahead = s.ahead - (s.calls caller).ahead + call.ahead := by
  unfold ahead
  cases caller with
  | overflowThread =>
      simp [Function.update]
      omega
  | client => simp [Function.update]

theorem ahead_of_not_inside {call : Call} (h : call.inside = false) : call.ahead = 0 := by
  cases call <;> first | rfl | cases h

variable {max : Int}

/-- Nobody else is in the critical section. -/
theorem Orderly.not_inside (h : Orderly max s) (hinside : (s.calls caller).inside = true)
    {c : Caller} (hc : c ≠ caller) : (s.calls c).inside = false := by
  by_contra hin
  have hheld := (h.exclusive c).mp (by simpa using hin)
  rw [(h.exclusive caller).mp hinside] at hheld
  exact hc (Option.some.inj hheld).symm

/-- Only the call in the critical section can be ahead. -/
theorem Orderly.ahead_eq (h : Orderly max s) (hinside : (s.calls caller).inside = true) :
    s.ahead = (s.calls caller).ahead := by
  have hother : ∀ c, c ≠ caller → (s.calls c).ahead = 0 :=
    fun c hc => ahead_of_not_inside (h.not_inside hinside hc)
  unfold ahead
  cases caller with
  | overflowThread => rw [hother .client nofun, Int.add_zero]
  | client => rw [hother .overflowThread nofun, Int.zero_add]

/-- Between two critical sections the fields belong together. -/
theorem Orderly.base_of_free (h : Orderly max s) (hfree : s.mutex = none) : s.base = s.fields := by
  have hout : ∀ c, (s.calls c).ahead = 0 := by
    intro c
    apply ahead_of_not_inside
    by_contra hin
    have hheld := (h.exclusive c).mp (by simpa using hin)
    rw [hfree] at hheld
    cases hheld
  unfold base fields ahead
  rw [hout, hout, Int.add_zero, Int.sub_zero]

/-- The call of a thread after a step of some thread. -/
theorem calls_update {call call' : Call} {c : Caller}
    (h : Function.update s.calls caller call c = call') :
    (c = caller ∧ call = call') ∨ (c ≠ caller ∧ s.calls c = call') := by
  by_cases hc : c = caller
  · rw [hc, Function.update_self] at h
    exact .inl ⟨hc, h⟩
  · rw [Function.update_of_ne hc] at h
    exact .inr ⟨hc, h⟩

theorem Orderly.goto (h : Orderly max s) {call : Call} (mutex : Option Caller)
    (results : List (Caller × Option (Int × Int)))
    (hexclusive : ∀ c, (Function.update s.calls caller call c).inside = true ↔ mutex = some c)
    (hfetched : ∀ v, call = .fetched v → 0 ≤ v ∧ v ≤ max)
    (hcounted : ∀ v w, call = .counted v w → 0 ≤ v ∧ v ≤ max)
    (hkept : ∀ v, call = .counted v false → s.counter.lastReading ≤ v) :
    Orderly max ({ s with mutex := mutex, results := results }.goto caller call) := by
  refine ⟨h.max_eq, hexclusive, h.range, fun c v hc => ?_, fun c v w hc => ?_, fun c v hc => ?_⟩
  · rcases calls_update hc with ⟨_, hc⟩ | ⟨_, hc⟩
    · exact hfetched v hc
    · exact h.fetched c v hc
  · rcases calls_update hc with ⟨_, hc⟩ | ⟨_, hc⟩
    · exact hcounted v w hc
    · exact h.counted c v w hc
  · rcases calls_update hc with ⟨_, hc⟩ | ⟨_, hc⟩
    · exact hkept v hc
    · exact h.kept c v hc

/-- A step to a place without such a reading. -/
theorem Orderly.goto_empty (h : Orderly max s) {call : Call} (mutex : Option Caller)
    (results : List (Caller × Option (Int × Int)))
    (hexclusive : ∀ c, (Function.update s.calls caller call c).inside = true ↔ mutex = some c)
    (hempty : call.held = none) :
    Orderly max ({ s with mutex := mutex, results := results }.goto caller call) := by
  refine h.goto mutex results hexclusive ?_ ?_ ?_
  · rintro v rfl
    cases hempty
  · rintro v w rfl
    cases hempty
  · rintro v rfl
    cases hempty

/-- A step inside the critical section. -/
theorem Orderly.exclusive_stay (h : Orderly max s) (hinside : (s.calls caller).inside = true)
    {call : Call} (hcall : call.inside = true) (c : Caller) :
    (Function.update s.calls caller call c).inside = true ↔ s.mutex = some c := by
  by_cases hne : c = caller
  · rw [hne, Function.update_self, hcall, ← h.exclusive caller, hinside]
  · rw [Function.update_of_ne hne]
    exact h.exclusive c

/-- A step outside the critical section. -/
theorem Orderly.exclusive_out (h : Orderly max s) (hout : (s.calls caller).inside = false)
    {call : Call} (hcall : call.inside = false) (c : Caller) :
    (Function.update s.calls caller call c).inside = true ↔ s.mutex = some c := by
  by_cases hne : c = caller
  · rw [hne, Function.update_self, hcall, ← h.exclusive caller, hout]
  · rw [Function.update_of_ne hne]
    exact h.exclusive c

/-- The begin of the critical section. -/
theorem Orderly.exclusive_lock (h : Orderly max s) (hfree : s.mutex = none) {call : Call}
    (hcall : call.inside = true) (c : Caller) :
    (Function.update s.calls caller call c).inside = true ↔ some caller = some c := by
  by_cases hne : c = caller
  · rw [hne, Function.update_self, hcall]
    exact ⟨fun _ => rfl, fun _ => rfl⟩
  · rw [Function.update_of_ne hne, h.exclusive c, hfree]
    exact ⟨nofun, fun hsame => absurd (Option.some.inj hsame).symm hne⟩

/-- The end of the critical section. -/
theorem Orderly.exclusive_unlock (h : Orderly max s) (hinside : (s.calls caller).inside = true)
    {call : Call} (hcall : call.inside = false) (c : Caller) :
    (Function.update s.calls caller call c).inside = true ↔ (none : Option Caller) = some c := by
  refine ⟨fun hc => ?_, nofun⟩
  by_cases hne : c = caller
  · rw [hne, Function.update_self, hcall] at hc
    cases hc
  · rw [Function.update_of_ne hne, h.not_inside hinside hne] at hc
    cases hc

/-- **One step keeps the critical section in order.** -/
theorem Orderly.step (h : Orderly max s) (hadvances : Advances s caller move t)
    (hread : ∀ read v, move = .readFile read → read.value = some v → 0 ≤ v ∧ v ≤ max) :
    Orderly max t := by
  cases hadvances with
  | lock hcall hfree =>
      exact h.goto_empty (some caller) s.results (h.exclusive_lock hfree rfl) rfl
  | fail read hcall =>
      exact h.goto_empty s.mutex s.results (h.exclusive_stay (by rw [hcall, Call.inside]) rfl) rfl
  | fetch read reading hcall hvalue =>
      refine h.goto s.mutex s.results (h.exclusive_stay (by rw [hcall, Call.inside]) rfl)
        (fun v hv => ?_) nofun nofun
      cases hv
      exact hread read reading rfl hvalue
  | wrap reading hcall =>
      have hcounted : Orderly max
          { s with counter := { s.counter with overflow := s.counter.overflow + 1 } } :=
        ⟨h.max_eq, h.exclusive, h.range, h.fetched, h.counted, h.kept⟩
      refine hcounted.goto s.mutex s.results
        (h.exclusive_stay (by rw [hcall, Call.inside]) rfl) nofun (fun v w hv => ?_) nofun
      cases hv
      exact h.fetched caller reading hcall
  | keep reading hcall hle =>
      refine h.goto s.mutex s.results (h.exclusive_stay (by rw [hcall, Call.inside]) rfl) nofun
        (fun v w hv => ?_) fun v hv => ?_
      · cases hv
        exact h.fetched caller reading hcall
      · cases hv
        exact hle
  | store reading wrapped hcall =>
      have hinside : (s.calls caller).inside = true := by rw [hcall, Call.inside]
      refine ⟨h.max_eq, h.exclusive_stay hinside rfl, h.counted caller reading wrapped hcall,
        fun c v hc => ?_, fun c v w hc => ?_, fun c v hc => ?_⟩
      · rcases calls_update hc with ⟨_, hc⟩ | ⟨_, hc⟩
        · cases hc
        · exact h.fetched c v hc
      · rcases calls_update hc with ⟨_, hc⟩ | ⟨_, hc⟩
        · cases hc
        · exact h.counted c v w hc
      · rcases calls_update hc with ⟨_, hc⟩ | ⟨hne, hc⟩
        · cases hc
        · have hout := h.not_inside hinside hne
          rw [hc] at hout
          cases hout
  | unlock hcall =>
      exact h.goto_empty none s.results (h.exclusive_unlock (by rw [hcall, Call.inside]) rfl) rfl
  | giveUp hcall =>
      exact h.goto_empty none s.results (h.exclusive_unlock (by rw [hcall, Call.inside]) rfl) rfl
  | loadOverflow hcall =>
      exact h.goto_empty s.mutex s.results (h.exclusive_out (by rw [hcall, Call.inside]) rfl) rfl
  | loadLastReading overflow hcall =>
      exact h.goto_empty s.mutex s.results (h.exclusive_out (by rw [hcall, Call.inside]) rfl) rfl
  | ret overflow lastReading hcall =>
      exact h.goto_empty s.mutex _ (h.exclusive_out (by rw [hcall, Call.inside]) rfl) rfl
  | refuse hcall =>
      exact h.goto_empty s.mutex _ (h.exclusive_out (by rw [hcall, Call.inside]) rfl) rfl

/-- A step between two places at which no wrap is ahead. -/
theorem base_goto {call : Call} (mutex : Option Caller)
    (results : List (Caller × Option (Int × Int))) (hold : (s.calls caller).ahead = 0)
    (hnew : call.ahead = 0) :
    ({ s with mutex := mutex, results := results }.goto caller call).base = s.base := by
  have hahead : ({ s with mutex := mutex, results := results }.goto caller call).ahead = s.ahead := by
    rw [ahead_goto, hnew, Int.add_zero]
    change s.ahead - (s.calls caller).ahead = s.ahead
    rw [hold, Int.sub_zero]
  unfold base
  rw [hahead]
  rfl

/-- Only a store changes the fields for good. -/
theorem base_of_ne_store (hadvances : Advances s caller move t) (hne : move ≠ .store) :
    t.base = s.base := by
  cases hadvances with
  | lock hcall hfree => exact base_goto (some caller) s.results (by rw [hcall]; rfl) rfl
  | fail read hcall => exact base_goto s.mutex s.results (by rw [hcall]; rfl) rfl
  | fetch read reading hcall hvalue =>
      exact base_goto s.mutex s.results (by rw [hcall]; rfl) rfl
  | wrap reading hcall =>
      have hold : (s.calls caller).ahead = 0 := by rw [hcall]; rfl
      unfold base
      rw [ahead_goto]
      change (s.counter.overflow + 1 - (s.ahead - (s.calls caller).ahead + 1), _) = _
      rw [hold, Int.sub_zero, Int.add_sub_add_right]
      rfl
  | keep reading hcall hle => exact base_goto s.mutex s.results (by rw [hcall]; rfl) rfl
  | store reading wrapped hcall => exact absurd rfl hne
  | unlock hcall => exact base_goto none s.results (by rw [hcall]; rfl) rfl
  | giveUp hcall => exact base_goto none s.results (by rw [hcall]; rfl) rfl
  | loadOverflow hcall => exact base_goto s.mutex s.results (by rw [hcall]; rfl) rfl
  | loadLastReading overflow hcall =>
      exact base_goto s.mutex s.results (by rw [hcall]; rfl) rfl
  | ret overflow lastReading hcall => exact base_goto s.mutex _ (by rw [hcall]; rfl) rfl
  | refuse hcall => exact base_goto s.mutex _ (by rw [hcall]; rfl) rfl

/-- A store raises the value of the fields. -/
theorem Orderly.base_store (h : Orderly max s) {reading : Int} {wrapped : Bool}
    (hcall : s.calls caller = .counted reading wrapped) :
    value max s.base ≤
      value max ({ s with counter := { s.counter with lastReading := reading } }.goto caller
        .stored).base := by
  have hahead := @Orderly.ahead_eq s caller max h (by rw [hcall, Call.inside])
  have hnew : ({ s with counter := { s.counter with lastReading := reading } }.goto caller
      .stored).ahead = 0 := by
    rw [ahead_goto]
    change s.ahead - (s.calls caller).ahead + 0 = 0
    rw [hahead]
    omega
  obtain ⟨hlow, hhigh⟩ := h.range
  obtain ⟨hreading, _⟩ := h.counted caller reading wrapped hcall
  unfold base value
  rw [hnew, hahead, hcall]
  change (s.counter.overflow - _) * max + s.counter.lastReading ≤
    (s.counter.overflow - 0) * max + reading
  cases wrapped with
  | true =>
      rw [Call.ahead, Int.sub_mul, Int.one_mul, Int.sub_zero]
      omega
  | false =>
      have hkept := h.kept caller reading hcall
      rw [Call.ahead, Int.sub_zero]
      · omega
      · nofun

theorem Orderly.value_base_le (h : Orderly max s) (hadvances : Advances s caller move t) :
    value max s.base ≤ value max t.base := by
  by_cases hstore : move = .store
  · subst hstore
    cases hadvances with
    | store reading wrapped hcall => exact h.base_store hcall
  · rw [base_of_ne_store hadvances hstore]

end CriticalSection

section Results

variable {max : Int} {pair : Int × Int}

/-- The fields had these values between two critical sections so far. -/
def Settled (s₀ : SharedZone) (done : List (Caller × Move)) (pair : Int × Int) : Prop :=
  ∃ before s, before <+: done ∧ Transition.run step s₀ before = .ok s ∧ s.mutex = none ∧
    s.fields = pair

/-- They did, or they do after the next unlock. -/
def Soon (s₀ : SharedZone) (done : List (Caller × Move)) (s : SharedZone) (pair : Int × Int) :
    Prop :=
  Settled s₀ done pair ∨ (pair = s.base ∧ ∃ c, s.calls c = .stored)

/-- When the client loads `last_reading`, the count of wraps that it has is the one that
belongs to it. -/
def LoadsWhole (s : SharedZone) : Caller × Move → Prop
  | (.client, .loadLastReading) => ∀ overflow, s.calls .client = .loaded overflow →
      overflow = s.counter.overflow - s.ahead
  | _ => True

/-- **What the client has seen**: values from between two critical sections, in order. -/
structure Seen (max : Int) (s₀ : SharedZone) (done : List (Caller × Move)) (s : SharedZone) :
    Prop where
  reached : Transition.run step s₀ done = .ok s
  settled : ∀ c, (s.calls c).inside = true → s.calls c ≠ .stored → Settled s₀ done s.base
  computed : ∀ o l, s.calls .client = .computed o l → Soon s₀ done s (o, l) ∧
    (∀ x ∈ clientValues max s.results, x ≤ value max (o, l)) ∧
    value max (o, l) ≤ value max s.base
  results : ∀ pair, (Caller.client, some pair) ∈ s.results → Soon s₀ done s pair
  below : ∀ x ∈ clientValues max s.results, x ≤ value max s.base
  sorted : (clientValues max s.results).Pairwise (· ≤ ·)

theorem Settled.snoc (h : Settled s₀ done pair) (action : Caller × Move) :
    Settled s₀ (done ++ [action]) pair := by
  obtain ⟨before, s, hbefore, hs⟩ := h
  exact ⟨before, s, hbefore.trans (List.prefix_append _ _), hs⟩

theorem settled_of_free (h : Orderly max s) (hreached : Transition.run step s₀ done = .ok s)
    (hfree : s.mutex = none) : Settled s₀ done s.base :=
  ⟨done, s, List.prefix_rfl, hreached, hfree, (h.base_of_free hfree).symm⟩

theorem clientValues_append (max : Int) (results results' : List (Caller × Option (Int × Int))) :
    clientValues max (results ++ results') = clientValues max results ++ clientValues max results' := by
  induction results with
  | nil => rfl
  | cons result results ih =>
      rcases result with ⟨c, _ | pair⟩
      · cases c <;> exact ih
      · cases c with
        | overflowThread => exact ih
        | client => exact congrArg (value max pair :: ·) ih

/-- The calls of the other thread. -/
theorem Advances.calls_other (h : Advances s caller move t) {c : Caller} (hc : c ≠ caller) :
    t.calls c = s.calls c := by
  cases h <;> exact Function.update_of_ne hc _ _

/-- Who stores is in the critical section. -/
theorem Advances.inside_of_store (h : Advances s caller .store t) :
    (s.calls caller).inside = true ∧ t.calls caller = .stored := by
  cases h with
  | store reading wrapped hcall => exact ⟨by rw [hcall, Call.inside], Function.update_self ..⟩

/-- After its store a call unlocks the mutex. -/
theorem Advances.of_stored (h : Advances s caller move t) (hcall : s.calls caller = .stored) :
    move ≠ .store ∧ t.mutex = none ∧ (t.calls caller).inside = false := by
  cases h <;> simp_all [Call.inside]

/-- A call comes into the critical section by locking the mutex. -/
theorem Advances.of_enters (h : Advances s caller move t)
    (hout : (s.calls caller).inside = false) (hinside : (t.calls caller).inside = true) :
    s.mutex = none := by
  cases h <;> simp_all [Call.inside]

theorem Soon.step (h : Soon s₀ done s pair) (horderly : Orderly max s) (horderly' : Orderly max t)
    (hadvances : Advances s caller move t)
    (hreached : Transition.run step s₀ (done ++ [(caller, move)]) = .ok t) :
    Soon s₀ (done ++ [(caller, move)]) t pair := by
  rcases h with hsettled | ⟨rfl, c, hc⟩
  · exact .inl (hsettled.snoc _)
  · have hinside : (s.calls c).inside = true := by rw [hc, Call.inside]
    by_cases hne : c = caller
    · obtain ⟨hmove, hfree, _⟩ := hadvances.of_stored (hne ▸ hc)
      rw [← base_of_ne_store hadvances hmove]
      exact .inl (settled_of_free horderly' hreached hfree)
    · have hmove : move ≠ .store := by
        rintro rfl
        have hmine := hadvances.inside_of_store.1
        rw [horderly.not_inside hinside (Ne.symm hne)] at hmine
        cases hmine
      refine .inr ⟨(base_of_ne_store hadvances hmove).symm, c, ?_⟩
      rw [hadvances.calls_other hne, hc]

/-- The fields before a store are settled. -/
theorem Seen.settled_step (h : Seen max s₀ done s) (horderly : Orderly max s)
    (hadvances : Advances s caller move t) {c : Caller} (hinside : (t.calls c).inside = true)
    (hstored : t.calls c ≠ .stored) : Settled s₀ (done ++ [(caller, move)]) t.base := by
  have hmove : move ≠ .store := by
    rintro rfl
    obtain ⟨hmine, hcall⟩ := hadvances.inside_of_store
    by_cases hne : c = caller
    · exact hstored (hne ▸ hcall)
    · rw [hadvances.calls_other hne, horderly.not_inside hmine hne] at hinside
      cases hinside
  rw [base_of_ne_store hadvances hmove]
  apply Settled.snoc
  cases hbefore : (s.calls c).inside with
  | true =>
      refine h.settled c hbefore fun hc => ?_
      by_cases hne : c = caller
      · subst hne
        rw [(hadvances.of_stored hc).2.2] at hinside
        cases hinside
      · exact hstored (hadvances.calls_other hne ▸ hc)
  | false =>
      by_cases hne : c = caller
      · subst hne
        exact settled_of_free horderly h.reached (hadvances.of_enters hbefore hinside)
      · rw [hadvances.calls_other hne, hbefore] at hinside
        cases hinside

/-- The fields that belong together now. -/
theorem Seen.soon_base (h : Seen max s₀ done s) (horderly : Orderly max s) :
    Soon s₀ done s s.base := by
  cases hmutex : s.mutex with
  | none => exact .inl (settled_of_free horderly h.reached hmutex)
  | some c =>
      have hinside := (horderly.exclusive c).mpr hmutex
      by_cases hstored : s.calls c = .stored
      · exact .inr ⟨rfl, c, hstored⟩
      · exact .inl (h.settled c hinside hstored)

/-- The results of the client change only when it returns one. -/
theorem Advances.results_cases (h : Advances s caller move t) (max : Int) :
    ((∀ pair, (Caller.client, some pair) ∈ t.results → (Caller.client, some pair) ∈ s.results) ∧
      clientValues max t.results = clientValues max s.results) ∨
      caller = .client ∧ ∃ o l, s.calls .client = .computed o l ∧
        t.results = s.results ++ [(Caller.client, some (o, l))] := by
  cases h with
  | ret o l hcall =>
      cases caller with
      | client => exact .inr ⟨rfl, o, l, hcall, rfl⟩
      | overflowThread =>
          refine .inl ⟨fun pair hmem => ?_, ?_⟩
          · simpa using hmem
          · rw [results_goto, clientValues_append]
            exact List.append_nil _
  | refuse hcall =>
      refine .inl ⟨fun pair hmem => ?_, ?_⟩
      · simpa using hmem
      · rw [results_goto, clientValues_append]
        cases caller <;> exact List.append_nil _
  | _ => exact .inl ⟨fun _ hmem => hmem, rfl⟩

/-- A result is computed when `last_reading` is loaded. -/
theorem Advances.of_computes (h : Advances s caller move t) {o l : Int}
    (hcall : t.calls caller = .computed o l) :
    move = .loadLastReading ∧ s.calls caller = .loaded o ∧ l = s.counter.lastReading ∧
      t.results = s.results := by
  cases h <;> simp_all

/-- **One step of the client or the thread.** -/
theorem Seen.step (h : Seen max s₀ done s) (horderly : Orderly max s) (horderly' : Orderly max t)
    (hadvances : Advances s caller move t) (hstep : s.advance caller move = .ok t)
    (hwhole : s.LoadsWhole (caller, move)) : Seen max s₀ (done ++ [(caller, move)]) t := by
  have hreached : Transition.run SharedZone.step s₀ (done ++ [(caller, move)]) = .ok t := by
    rw [Transition.run_append h.reached, Transition.run_cons_ok hstep, Transition.run_nil]
  have hrises := horderly.value_base_le hadvances
  have hsoon : ∀ pair, Soon s₀ done s pair → Soon s₀ (done ++ [(caller, move)]) t pair :=
    fun pair hpair => hpair.step horderly horderly' hadvances hreached
  have hcomputed : ∀ o l, t.calls .client = .computed o l →
      Soon s₀ (done ++ [(caller, move)]) t (o, l) ∧
      (∀ x ∈ clientValues max t.results, x ≤ value max (o, l)) ∧
      value max (o, l) ≤ value max t.base := by
    intro o l hcall
    by_cases hclient : Caller.client = caller
    · -- the client has just loaded `last_reading`
      subst hclient
      obtain ⟨hmove, hloaded, hlast, hresults⟩ := hadvances.of_computes hcall
      subst hmove
      have hbase : (o, l) = s.base := Prod.ext (hwhole o hloaded) hlast
      rw [hbase, hresults]
      exact ⟨hsoon _ (h.soon_base horderly), h.below, hrises⟩
    · rw [hadvances.calls_other hclient] at hcall
      obtain ⟨hpair, habove, hbelow⟩ := h.computed o l hcall
      refine ⟨hsoon _ hpair, ?_, Int.le_trans hbelow hrises⟩
      rcases hadvances.results_cases max with ⟨_, hvalues⟩ | ⟨hsame, _⟩
      · rw [hvalues]
        exact habove
      · exact absurd hsame.symm hclient
  rcases hadvances.results_cases max with ⟨hmem, hvalues⟩ | ⟨_, o, l, hcall, hresults⟩
  · refine ⟨hreached, fun c => h.settled_step horderly hadvances, hcomputed,
      fun pair hpair => hsoon _ (h.results pair (hmem pair hpair)), ?_, hvalues ▸ h.sorted⟩
    rw [hvalues]
    exact fun x hx => Int.le_trans (h.below x hx) hrises
  · obtain ⟨hpair, habove, hbelow⟩ := h.computed o l hcall
    have hvalues : clientValues max t.results = clientValues max s.results ++ [value max (o, l)] := by
      rw [hresults, clientValues_append]
      rfl
    refine ⟨hreached, fun c => h.settled_step horderly hadvances, hcomputed, fun pair hmem => ?_,
      ?_, ?_⟩
    · rw [hresults, List.mem_append, List.mem_singleton] at hmem
      rcases hmem with hmem | hlast
      · exact hsoon _ (h.results pair hmem)
      · cases hlast
        exact hsoon _ hpair
    · rw [hvalues]
      intro x hx
      rw [List.mem_append, List.mem_singleton] at hx
      rcases hx with hx | rfl
      · exact Int.le_trans (h.below x hx) hrises
      · exact Int.le_trans hbelow hrises
    · rw [hvalues, List.pairwise_append]
      refine ⟨h.sorted, List.pairwise_singleton _ _, fun x hx y hy => ?_⟩
      rw [List.mem_singleton.mp hy]
      exact habove x hx

theorem orderly_start {counter : SysfsCounter} (hmax : counter.max = max)
    (hrange : 0 ≤ counter.lastReading ∧ counter.lastReading ≤ max) :
    Orderly max (start counter) := by
  have hidle : ∀ c, (start counter).calls c = .idle := fun _ => rfl
  refine ⟨hmax, fun c => ?_, hrange, fun c v hc => ?_, fun c v w hc => ?_, fun c v hc => ?_⟩
  · rw [hidle]
    exact iff_of_false Bool.false_ne_true (Option.some_ne_none c).symm
  · rw [hidle] at hc
    cases hc
  · rw [hidle] at hc
    cases hc
  · rw [hidle] at hc
    cases hc

theorem seen_start (max : Int) (counter : SysfsCounter) :
    Seen max (start counter) [] (start counter) :=
  ⟨rfl, fun _ => nofun, fun _ _ => nofun, fun _ => nofun, fun _ => nofun, .nil⟩

/-- **Runs in which the client loads whole pairs.** -/
theorem Seen.run {actions : List (Caller × Move)} :
    ∀ {done : List (Caller × Move)} {s : SharedZone}, Seen max s₀ done s → Orderly max s →
      (∀ read ∈ fileReads actions, ∀ v, read.value = some v → 0 ≤ v ∧ v ≤ max) →
      Transition.Meets SharedZone.step LoadsWhole s actions →
      Transition.run SharedZone.step s actions = .ok t →
      Seen max s₀ (done ++ actions) t ∧ Orderly max t := by
  induction actions with
  | nil =>
      intro done s h horderly _ _ hrun
      cases hrun
      rw [List.append_nil]
      exact ⟨h, horderly⟩
  | cons action actions ih =>
      intro done s h horderly hvalues hwhole hrun
      obtain ⟨caller, move⟩ := action
      obtain ⟨m, hstep, hrest⟩ := Transition.run_cons_success hrun
      have hadvances : Advances s caller move m := advances_of_ok hstep
      have horderly' : Orderly max m := by
        refine horderly.step hadvances fun read v hmove hv => ?_
        subst hmove
        exact hvalues read List.mem_cons_self v hv
      have hlater : ∀ read ∈ fileReads actions, ∀ v, read.value = some v → 0 ≤ v ∧ v ≤ max := by
        intro read hmem
        apply hvalues
        cases move <;> first | exact hmem | exact List.mem_cons_of_mem _ hmem
      have hnext := ih (h.step horderly horderly' hadvances hstep hwhole.1) horderly' hlater
        (hwhole.2 m hstep) hrest
      rwa [List.append_assoc] at hnext

/-- What is settled soon is settled in the run, or when its last critical section is left. -/
theorem Soon.heldBetween (h : Soon s₀ done s pair) (horderly : Orderly max s)
    (hreached : Transition.run SharedZone.step s₀ done = .ok s) : HeldBetween s₀ done pair := by
  rcases h with ⟨before, s', hbefore, hs'⟩ | ⟨rfl, c, hc⟩
  · exact ⟨before, [], s', by rwa [List.append_nil], .inl rfl, hs'⟩
  · have hstep : s.advance c .unlock = .ok ({ s with mutex := none }.goto c .unlocked) := by
      unfold advance
      rw [hc]
    have hbase : s.base = s.fields := by
      have hahead := @Orderly.ahead_eq s c max horderly (by rw [hc, Call.inside])
      rw [hc, Call.ahead] at hahead
      · unfold base fields
        rw [hahead, Int.sub_zero]
      · nofun
    refine ⟨done ++ [(c, .unlock)], [(c, .unlock)], { s with mutex := none }.goto c .unlocked,
      List.prefix_rfl, .inr ⟨c, rfl⟩, ?_, rfl, hbase.symm⟩
    rw [Transition.run_append hreached, Transition.run_cons_ok hstep, Transition.run_nil]

end Results

end SharedZone

section Counters

variable {max energy₀ : Nat} {counter : SysfsCounter}

/-- A file that shows a count modulo `max + 1` stays in its range. -/
theorem Shows.range {read : FileRead} {energy : Option Nat} (h : Shows max read energy) {v : Int}
    (hv : read.value = some v) : 0 ≤ v ∧ v ≤ max := by
  cases energy with
  | none =>
      rw [h] at hv
      cases hv
  | some energy =>
      have hvalue : some ((energy % (max + 1) : Nat) : Int) = some v := Eq.trans (Eq.symm h) hv
      have hlt : energy % (max + 1) < max + 1 := Nat.mod_lt energy (Nat.succ_pos max)
      rw [← Option.some.inj hvalue]
      omega

/-- **The results of the client are whole** in every run in which no wrap is counted, and
stored, between its two loads. -/
theorem returnsWhole_interleaved (hsetup : Counted max energy₀ energy₀ counter)
    {actions : List (Caller × Move)} {energies : List (Option Nat)}
    (hreads : List.Forall₂ (Shows max) (fileReads actions) energies)
    (hwhole : Transition.Meets SharedZone.step SharedZone.LoadsWhole (.start counter) actions)
    {s : SharedZone} (hrun : Transition.run SharedZone.step (.start counter) actions = .ok s) :
    ReturnsWhole (.start counter) actions s := by
  have hrange : 0 ≤ counter.lastReading ∧ counter.lastReading ≤ max := by
    have hlt : energy₀ % (max + 1) < max + 1 := Nat.mod_lt energy₀ (Nat.succ_pos max)
    rw [hsetup.lastReading]
    omega
  have hvalues : ∀ read ∈ fileReads actions, ∀ v, read.value = some v → 0 ≤ v ∧ v ≤ (max : Int) := by
    intro read hmem v hv
    obtain ⟨i, hi, rfl⟩ := List.getElem_of_mem hmem
    have hi' := hreads.length_eq ▸ hi
    exact (hreads.get hi hi').range hv
  obtain ⟨hseen, horderly⟩ := (SharedZone.seen_start max counter).run
    (SharedZone.orderly_start hsetup.max_eq hrange) hvalues hwhole hrun
  rw [List.nil_append] at hseen
  refine ⟨fun pair hmem => (hseen.results pair hmem).heldBetween horderly hseen.reached, ?_⟩
  have hmax : (SharedZone.start counter).counter.max = max := hsetup.max_eq
  rw [hmax]
  exact hseen.sorted

end Counters

section Machines

/-- The client unlocks the mutex after a read at the end of the range. -/
def clientUnlocks : List (Caller × Move) :=
  [(.client, .lock), (.client, .readFile ⟨some 262143328850, true, true⟩), (.client, .count),
    (.client, .store), (.client, .unlock)]

/-- The thread counts a wrap. -/
def threadWraps : List (Caller × Move) :=
  [(.overflowThread, .lock), (.overflowThread, .readFile ⟨some 2, true, true⟩),
    (.overflowThread, .count), (.overflowThread, .store)]

/-- The client loads both fields after the store of the thread. -/
def loadsAfter : List (Caller × Move) :=
  clientUnlocks ++ threadWraps ++
    [(.client, .loadOverflow), (.overflowThread, .unlock), (.client, .loadLastReading),
      (.client, .ret)]

/-- The thread counts a wrap between the two loads of a second call. -/
def loadsAround : List (Caller × Move) :=
  clientUnlocks ++ [(.client, .loadOverflow), (.client, .loadLastReading), (.client, .ret)] ++
    clientUnlocks ++ [(.client, .loadOverflow)] ++ threadWraps ++
    [(.overflowThread, .unlock), (.client, .loadLastReading), (.client, .ret)]

/-- The client loads one field before and one after the unlock of the thread. -/
theorem returnsWhole_interleaved_fullZone :
    ∃ s, Transition.run SharedZone.step (.start fullZone) loadsAfter = .ok s ∧
      s.results = [(.client, some (1, 2))] ∧ ReturnsWhole (.start fullZone) loadsAfter s := by
  have hreads : List.Forall₂ (Shows 262143328850) (fileReads loadsAfter)
      [some 262143328850, some 262143328853] :=
    show List.Forall₂ (Shows 262143328850)
        [⟨some 262143328850, true, true⟩, ⟨some 2, true, true⟩] _ from
      .cons rfl (.cons rfl .nil)
  have hwhole : Transition.Meets SharedZone.step SharedZone.LoadsWhole (.start fullZone)
      loadsAfter := by
    refine .cons trivial rfl (.cons trivial rfl (.cons trivial rfl (.cons trivial rfl
      (.cons trivial rfl (.cons trivial rfl (.cons trivial rfl (.cons trivial rfl
        (.cons trivial rfl (.cons trivial rfl (.cons trivial rfl
          (.cons (fun overflow hloaded => ?_) rfl (.cons trivial rfl trivial))))))))))))
    cases hloaded
    rfl
  exact ⟨_, rfl, rfl, returnsWhole_interleaved fullZone_counted hreads hwhole rfl⟩

/-- **A wrap between the two loads**: the second result of the client has the old count and
the new reading. -/
theorem not_returnsWhole_fullZone :
    ¬ ∀ (max energy₀ : Nat) (counter : SysfsCounter) (actions : List (Caller × Move))
      (energies : List (Option Nat)) (s : SharedZone), Counted max energy₀ energy₀ counter →
      List.Forall₂ (Shows max) (fileReads actions) energies →
      WrapCounter.Rising (max + 1) energy₀ energies →
      Transition.run SharedZone.step (.start counter) actions = .ok s →
      ReturnsWhole (.start counter) actions s := by
  intro h
  have hreads : List.Forall₂ (Shows 262143328850)
      [⟨some 262143328850, true, true⟩, ⟨some 262143328850, true, true⟩, ⟨some 2, true, true⟩]
      [some 262143328850, some 262143328850, some 262143328853] :=
    .cons rfl (.cons rfl (.cons rfl .nil))
  have hsorted := (h 262143328850 262143328850 fullZone loadsAround _ _ fullZone_counted hreads
    ⟨by decide, by decide, by decide, by decide, by decide, by decide, trivial⟩ rfl).2
  exact absurd hsorted (by decide)

end Machines

end Sysfs
end Access
end X86Energy
