import X86Energy.Architecture.Mechanism

/-!
# Which sources a process gets

`is_selected_source` asks for the variable `X86_ENERGY_SOURCE` once in a process and keeps the
answer.  `x86_energy_get_avail_mechanism` asks it about each of its sources twice: to count
those that are selected, and to write them to an array of that size.

**Result.** `selection_follows_first`: whatever the environment becomes afterwards, all calls of
a process get the sources that the first answer selects, in an array that is exactly full.
-/

namespace X86Energy
namespace Architecture

/-- What `getenv` and `strdup` deliver when a source is asked for. -/
structure EnvReply where
  value : Option String
  copies : Bool

/-- The static variables of `is_selected_source`. -/
structure Selection where
  envInitialized : Bool
  envString : Option String

/-- A write behind the end of `avail_sources`. -/
inductive SelectionFault
  | outOfBounds
deriving DecidableEq, Repr

/-- What one `x86_energy_get_avail_mechanism` finds once it knows the processor: the sources
with whether they were built in, the replies while it counts and while it writes, and
whether memory is granted. -/
structure SelectionCall where
  sources : List (Bool × String)
  whileCounting : String → EnvReply
  whileWriting : String → EnvReply
  memory : Bool

namespace Selection

/-- The sources that were built in. -/
def builtIn (sources : List (Bool × String)) : List String :=
  (sources.filter Prod.fst).map Prod.snd

/-- The first statement of `is_selected_source`. -/
def askEnv (s : Selection) (reply : EnvReply) : Selection :=
  if s.envInitialized then s
  else ⟨true, if reply.copies then reply.value else none⟩

/-- What `is_selected_source` returns once the variable is known. -/
def selects (s : Selection) (source : String) : Bool :=
  match s.envString with
  | none => true
  | some name => name = source

/-- The first pass, from `nr_avail_sources` on. -/
def countSources (replies : String → EnvReply) : List String → Nat → Selection → Nat × Selection
  | [], nr, s => (nr, s)
  | source :: sources, nr, s =>
      let s := s.askEnv (replies source)
      countSources replies sources (if s.selects source then nr + 1 else nr) s

/-- The second pass, from `current` on. -/
def writeSources (replies : String → EnvReply) :
    List String → Nat → List (Option String) → Selection →
      Except SelectionFault (List (Option String) × Selection)
  | [], _, availSources, s => .ok (availSources, s)
  | source :: sources, current, availSources, s =>
      let s := s.askEnv (replies source)
      if !s.selects source then writeSources replies sources current availSources s
      else if current < availSources.length then
        writeSources replies sources (current + 1) (availSources.set current (some source)) s
      else .error .outOfBounds

/-- `nr_avail_sources` and `avail_sources`; `none` is the return of `NULL`. -/
def availSources (s : Selection) (call : SelectionCall) :
    Except SelectionFault (Option (List (Option String)) × Selection) :=
  let sources := builtIn call.sources
  let (nr, s) := countSources call.whileCounting sources 0 s
  if nr = 0 then .ok (none, s)
  else if !call.memory then .ok (none, s)
  else
    match writeSources call.whileWriting sources 0 (List.replicate nr none) s with
    | .error e => .error e
    | .ok (block, s) => .ok (some block, s)

/-- The same on "AMD APM", which asks about its only source once. -/
def apmSources (s : Selection) (reply : EnvReply) (memory : Bool) :
    Option (List (Option String)) × Selection :=
  let s := s.askEnv reply
  if !s.selects "sysfs-Fam15h" then (none, s)
  else if !memory then (none, s)
  else (some [some "sysfs-Fam15h"], s)

/-- The calls of a process. -/
def runCalls : Selection → List SelectionCall →
    Except SelectionFault (List (Option (List (Option String))))
  | _, [] => .ok []
  | s, call :: calls =>
      match s.availSources call with
      | .error e => .error e
      | .ok (result, s) =>
          match runCalls s calls with
          | .error e => .error e
          | .ok results => .ok (result :: results)

/-- The names of the sources that are selected, as an array that is full. -/
def delivers (s : Selection) (call : SelectionCall) : Option (List (Option String)) :=
  let names := (builtIn call.sources).filter s.selects
  if names = [] then none
  else if !call.memory then none
  else some (names.map some)

section Passes

variable {s : Selection}

theorem askEnv_of_initialized (h : s.envInitialized = true) (reply : EnvReply) :
    s.askEnv reply = s := by
  rw [askEnv, if_pos h]

theorem initialized_askEnv (s : Selection) (reply : EnvReply) :
    (s.askEnv reply).envInitialized = true := by
  unfold askEnv
  split
  · assumption
  · rfl

/-- The count is that of the selected sources. -/
theorem countSources_eq (h : s.envInitialized = true) (replies : String → EnvReply)
    (sources : List String) (nr : Nat) :
    countSources replies sources nr s = (nr + (sources.filter s.selects).length, s) := by
  induction sources generalizing nr with
  | nil => rfl
  | cons source sources ih =>
      simp only [countSources, askEnv_of_initialized h, ih]
      by_cases hselects : s.selects source = true
      · rw [if_pos hselects, List.filter_cons_of_pos hselects, List.length_cons, Nat.add_right_comm,
          Nat.add_assoc]
      · rw [if_neg hselects, List.filter_cons_of_neg hselects]

/-- The second pass fills the slots that are left, if these are as many as the selected
sources. -/
theorem writeSources_eq (h : s.envInitialized = true) (replies : String → EnvReply)
    (sources : List String) (before : List String) :
    writeSources replies sources before.length
        (before.map some ++ List.replicate (sources.filter s.selects).length none) s =
      .ok ((before ++ sources.filter s.selects).map some, s) := by
  induction sources generalizing before with
  | nil => simp [writeSources]
  | cons source sources ih =>
      simp only [writeSources, askEnv_of_initialized h]
      by_cases hselects : s.selects source = true
      · rw [List.filter_cons_of_pos hselects, List.length_cons, List.replicate_succ]
        have hroom : before.length < (before.map some ++
            none :: List.replicate (sources.filter s.selects).length none).length := by
          simp
        have hset : (before.map some ++
            none :: List.replicate (sources.filter s.selects).length none).set before.length
              (some source) =
            (before ++ [source]).map some ++
              List.replicate (sources.filter s.selects).length none := by
          simp
        have hrest := ih (before ++ [source])
        rw [List.length_append, List.length_singleton, List.append_assoc,
          List.singleton_append] at hrest
        simp only [hselects, Bool.not_true, Bool.false_eq_true, if_false, if_pos hroom, hset, hrest]
      · rw [List.filter_cons_of_neg hselects]
        simp only [hselects, Bool.not_false, if_true]
        exact ih before

/-- The static variables after a call. -/
def settle (s : Selection) (call : SelectionCall) : Selection :=
  match builtIn call.sources with
  | [] => s
  | source :: _ => s.askEnv (call.whileCounting source)

/-- **Both passes agree**, and the array is full. -/
theorem availSources_eq (s : Selection) (call : SelectionCall) :
    s.availSources call = .ok ((s.settle call).delivers call, s.settle call) := by
  unfold availSources settle delivers
  cases hsources : builtIn call.sources with
  | nil => simp [countSources]
  | cons source sources =>
      have hinit := initialized_askEnv s (call.whileCounting source)
      generalize hs : s.askEnv (call.whileCounting source) = s' at hinit
      have hcount : countSources call.whileCounting (source :: sources) 0 s =
          (((source :: sources).filter s'.selects).length, s') := by
        rw [← Nat.zero_add (List.length _), ← countSources_eq hinit call.whileCounting]
        simp only [countSources, hs, askEnv_of_initialized hinit]
      have hwrite := writeSources_eq hinit call.whileWriting (source :: sources) []
      simp only [List.length_nil, List.map_nil, List.nil_append] at hwrite
      simp only [hcount, hs, List.length_eq_zero_iff, hwrite]
      by_cases hnone : (source :: sources).filter s'.selects = []
      · rw [if_pos hnone, if_pos hnone]
      · rw [if_neg hnone, if_neg hnone]
        cases call.memory <;> rfl

/-- What "AMD APM" does is the same for a list of one source. -/
theorem availSources_apm (s : Selection) (reply : EnvReply) (writing : String → EnvReply)
    (memory : Bool) :
    s.availSources ⟨[(true, "sysfs-Fam15h")], fun _ => reply, writing, memory⟩ =
      .ok (s.apmSources reply memory) := by
  rw [availSources_eq]
  have hbuilt : builtIn [(true, "sysfs-Fam15h")] = ["sysfs-Fam15h"] := rfl
  unfold settle delivers apmSources
  simp only [hbuilt]
  cases hselects : (s.askEnv reply).selects "sysfs-Fam15h" <;> cases memory <;> simp [hselects]

end Passes

section Process

variable {s : Selection}

theorem settle_of_initialized (h : s.envInitialized = true) (call : SelectionCall) :
    s.settle call = s := by
  unfold settle
  split
  · rfl
  · exact askEnv_of_initialized h _

theorem foldl_settle_of_initialized (h : s.envInitialized = true) (calls : List SelectionCall) :
    calls.foldl settle s = s := by
  induction calls with
  | nil => rfl
  | cons call calls ih => rw [List.foldl_cons, settle_of_initialized h, ih]

/-- A call that delivers sources leaves the variable known. -/
theorem delivers_settle (s : Selection) (call : SelectionCall) (calls : List SelectionCall) :
    (s.settle call).delivers call = (calls.foldl settle (s.settle call)).delivers call := by
  cases hsources : builtIn call.sources with
  | nil => simp [delivers, hsources]
  | cons source sources =>
      have hinit : (s.settle call).envInitialized = true := by
        rw [settle, hsources]
        exact initialized_askEnv s _
      rw [foldl_settle_of_initialized hinit]

/-- All calls deliver by the static variables that the process ends with. -/
theorem runCalls_eq (s : Selection) (calls : List SelectionCall) :
    s.runCalls calls = .ok (calls.map (calls.foldl settle s).delivers) := by
  induction calls generalizing s with
  | nil => rfl
  | cons call calls ih =>
      rw [runCalls, availSources_eq]
      simp only [ih]
      rw [List.map_cons, List.foldl_cons, delivers_settle s call calls]

/-- The reply to the first question of a process. -/
def firstReply : List SelectionCall → Option EnvReply
  | [] => none
  | call :: calls =>
      match builtIn call.sources with
      | [] => firstReply calls
      | source :: _ => some (call.whileCounting source)

/-- The name that it selects, if any. -/
def firstAnswer (calls : List SelectionCall) : Option String :=
  (firstReply calls).bind fun reply => if reply.copies then reply.value else none

theorem envString_foldl_settle (calls : List SelectionCall) :
    (calls.foldl settle ⟨false, none⟩).envString = firstAnswer calls := by
  unfold firstAnswer
  induction calls with
  | nil => rfl
  | cons call calls ih =>
      rw [List.foldl_cons, firstReply]
      cases hsources : builtIn call.sources with
      | nil =>
          have hsettle : settle ⟨false, none⟩ call = ⟨false, none⟩ := by rw [settle, hsources]
          rw [hsettle]
          exact ih
      | cons source sources =>
          have hsettle : settle ⟨false, none⟩ call =
              ⟨true, if (call.whileCounting source).copies then (call.whileCounting source).value
                else none⟩ := by
            rw [settle, hsources]
            rfl
          rw [hsettle, foldl_settle_of_initialized rfl]
          rfl

/-- **A process keeps to its first answer**: whatever the environment becomes afterwards, each
call gets the sources that a host with that answer selects, in an array that is full. -/
theorem selection_follows_first (host : Host) (calls : List SelectionCall) :
    runCalls ⟨false, none⟩ calls = .ok (calls.map fun call =>
      let names := { host with selectedSource := firstAnswer calls }.selectedSources call.sources
      if names = [] then none
      else if !call.memory then none
      else some (names.map some)) := by
  rw [runCalls_eq]
  refine congrArg Except.ok (List.map_congr_left fun call _ => ?_)
  have hselects : (calls.foldl settle ⟨false, none⟩).selects =
      { host with selectedSource := firstAnswer calls }.isSelectedSource := by
    funext source
    rw [selects, envString_foldl_settle]
    rfl
  unfold delivers
  rw [hselects]
  rfl

end Process

end Selection

end Architecture
end X86Energy
