import X86Energy.OverflowThread.Registry

/-!
# The thread of a CPU and its client

`on_overflow` walks over the arrays of its `thread_info` without the mutex under which
they are changed.  The client sets up counters, closes them in two steps, a removal and
the `free` of the counter, and ends the source with `killall` and `freeall`.

All steps interleave, and every call has any outcome.  A call that a client cannot make in
a state (it closes a counter that is not open, it ends the source twice) leaves the state
as it is.
-/

namespace X86Energy
namespace OverflowThread

open Block

variable {ρ τ : Type}

/-- Where the thread stands; `idle` is before it is started.  At `delay` it is about to load
the `usleep_time` for its next sleep. -/
inductive Pc (ρ τ : Type)
  | idle
  | delay
  | sleep
  | test (i : Nat)
  | load (i : Nat)
  | run (f : ρ) (t : τ) (i : Nat)
  | next (i : Nat)
  | stopped

/-- A thread that is created begins with the load of its sleep time. -/
def Pc.start (created : Bool) : Pc ρ τ → Pc ρ τ
  | idle => if created then delay else idle
  | pc => pc

/-- The registry, the thread of one CPU, and the client.  `counters` are the open ones by
CPU, and `closing` is the one between its removal and its `free`.  The last two fields
record a read on a freed counter, and an access to the freed `thread_info`. -/
structure System (ρ τ : Type) where
  registry : Registry ρ τ
  pc : Pc ρ τ
  cancelled : Bool
  finished : Bool
  counters : List (Int × ρ × τ)
  closing : Option τ
  ranFreed : Bool
  touchedFreed : Bool

/-- A step of the thread, or a call of the client. -/
inductive Action (ρ τ : Type)
  | thread
  | register (cpu : Int) (read : ρ) (t : τ) (usleepTime : Int) (outcome : CreateOutcome)
  | remove (cpu : Int) (read : ρ) (t : τ)
  | free
  | fini

namespace System

/-- Nothing is set up. -/
def start : System ρ τ := ⟨.empty, .idle, false, false, [], none, false, false⟩

/-- The memory of the counter is not freed. -/
def Allocated (s : System ρ τ) (t : τ) : Prop :=
  t ∈ s.counters.map (fun counter => counter.2.2) ∨ s.closing = some t

/-- An access to the freed `thread_info`.  What follows it is not defined. -/
def touch (s : System ρ τ) : System ρ τ := { s with touchedFreed := true, pc := .stopped }

variable [DecidableEq ρ] [DecidableEq τ]

instance (s : System ρ τ) (t : τ) : Decidable (s.Allocated t) :=
  inferInstanceAs (Decidable (_ ∨ _))

/-- The next step of `on_overflow`.  A cancelled thread stops when it sleeps, or in a
read. -/
def threadStep (cpu : Int) (s : System ρ τ) : Except OvFault (System ρ τ) :=
  match s.pc with
  | .idle => .ok s
  | .stopped => .ok s
  | .delay =>
      if s.finished then .ok s.touch
      else
        match s.registry.infoOf cpu with
        | .error e => .error e
        | .ok _ => .ok { s with pc := .sleep }
  | .sleep => .ok { s with pc := if s.cancelled then .stopped else .test 0 }
  | .test i =>
      if s.finished then .ok s.touch
      else
        match s.registry.infoOf cpu with
        | .error e => .error e
        | .ok info => .ok { s with pc := if i < info.nrFunctions then .load i else .delay }
  | .load i =>
      if s.finished then .ok s.touch
      else
        match s.registry.infoOf cpu with
        | .error e => .error e
        | .ok info =>
            match loadSlot info.functions i with
            | .error e => .error e
            | .ok f =>
                match loadSlot info.t i with
                | .error e => .error e
                | .ok t => .ok { s with pc := .run f t i }
  | .run _ t i =>
      .ok { s with
        ranFreed := s.ranFreed || !decide (s.Allocated t)
        pc := if s.cancelled then .stopped else .next i }
  | .next i => .ok { s with pc := .test (i + 1) }

/-- The registration in `setup`, on a counter that was just allocated.  If it fails, `setup`
frees the counter. -/
def register (cpu : Int) (s : System ρ τ) (counterCpu : Int) (read : ρ) (t : τ)
    (usleepTime : Int) (o : CreateOutcome) : Except OvFault (System ρ τ) :=
  if s.finished ∨ s.closing.isSome ∨ s.Allocated t then .ok s
  else
    match s.registry.create counterCpu read t usleepTime o with
    | .error e => .error e
    | .ok (registry, result) =>
        .ok { s with
          registry := registry
          pc := s.pc.start (decide (cpu ∈ registry.threads))
          counters :=
            if result.code = 0 then s.counters ++ [(counterCpu, read, t)] else s.counters }

/-- The removal in `do_close`. -/
def remove (M : Memcpy) (s : System ρ τ) (counterCpu : Int) (read : ρ) (t : τ) :
    Except OvFault (System ρ τ) :=
  if s.closing.isSome ∨ (counterCpu, read, t) ∉ s.counters then .ok s
  else
    match s.registry.removeCall M counterCpu read t with
    | .error e => .error e
    | .ok registry =>
        .ok { s with
          registry := registry
          counters := s.counters.erase (counterCpu, read, t)
          closing := some t }

/-- `fini`: `killall` and `freeall`. -/
def fini (cpu : Int) (s : System ρ τ) : Except OvFault (System ρ τ) :=
  if s.finished ∨ s.closing.isSome then .ok s
  else
    match s.registry.killall with
    | .error e => .error e
    | .ok cancelled =>
        match s.registry.freeall with
        | .error e => .error e
        | .ok registry =>
            .ok { s with
              registry := registry
              cancelled := s.cancelled || decide (cpu ∈ cancelled)
              finished := true }

/-- One step, where the thread is that of `cpu`. -/
def step (M : Memcpy) (cpu : Int) (s : System ρ τ) : Action ρ τ → Except OvFault (System ρ τ)
  | .thread => s.threadStep cpu
  | .register counterCpu read t usleepTime o => s.register cpu counterCpu read t usleepTime o
  | .remove counterCpu read t => s.remove M counterCpu read t
  | .free => .ok { s with closing := none }
  | .fini => s.fini cpu

end System

end OverflowThread
end X86Energy
