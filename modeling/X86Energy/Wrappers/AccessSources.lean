import X86Energy.Library.MoveOnly
import X86Energy.Library.Transition

/-!
# The C++ objects for sources and counters

`AccessSource` and `SourceCounter` of `x86_energy.hpp` call `fini` and `close` in their
destructors.  They can be moved and not copied; an assignment swaps the two objects.

The calls on a source are only right between its `init` and its `fini`.  The objects do not see
to that by themselves: there may be two `AccessSource`s of one source, and a `SourceCounter`
may outlive its `AccessSource`.

The programs here get their `SourceCounter`s from `AccessSource::get`, from a `setup` that returns no
handle that is still open.  A `SourceCounter` that is made from a bare handle by the public
constructor is not among them: two of these can hold the same handle.

**Results.**
* `handles_held`: in every program each handle is held by one `SourceCounter` until it is closed,
  and it is closed once;
* `sources_up_iff`: which programs use each source only between its `init` and its `fini`;
* `testMain_cleans_up`: the test program is one of them and leaves nothing open.
-/

namespace X86Energy
namespace Wrappers

open MoveOnly

variable {σ : Type}

/-- `class SourceCounter`. -/
structure SourceCounter (σ : Type) where
  source : Option σ
  sourceCounter : Nat

/-- `class AccessSource`. -/
structure AccessSource (σ : Type) where
  source : Option σ
  initialized : Bool

/-- The objects of a program by number, the handles that `setup` returned and that were not closed,
and which sources are between `init` and `fini`. -/
@[ext] structure Program (σ : Type) where
  counters : Nat → Option (SourceCounter σ)
  sources : Nat → Option (AccessSource σ)
  live : List (σ × Nat)
  up : σ → Bool

/-- A program that does not compile or a handle that is still in use, a call through a null
pointer, or `close` with a handle that is not open. -/
inductive WrapperFault
  | refused
  | nullSource
  | notOpen
deriving DecidableEq, Repr

/-- The statements of a program, in which `AccessSource::get` is what makes a `SourceCounter`, with what the functions of the source return: the result of
`init`, and the handle of `setup`, if any. -/
inductive Statement (σ : Type)
  | newSource (v : Nat) (source : σ)
  | init (v : Nat) (result : Int)
  | get (v w : Nat) (handle : Option Nat)
  | read (w : Nat)
  | moveCounter (w w' : Nat)
  | assignCounter (w w' : Nat)
  | destroyCounter (w : Nat)
  | moveSource (v v' : Nat)
  | assignSource (v v' : Nat)
  | destroySource (v : Nat)

/-- A program before `main`. -/
def start : Program σ := ⟨fun _ => none, fun _ => none, [], fun _ => false⟩

section Statements

variable [DecidableEq σ] (s : Program σ)

/-- `AccessSource(source)`. -/
def newSource (v : Nat) (source : σ) : Except WrapperFault (Program σ) :=
  match s.sources v with
  | some _ => .error .refused
  | none => .ok { s with sources := Function.update s.sources v (some ⟨some source, false⟩) }

/-- `AccessSource::init`; a result that is not 0 is thrown. -/
def init (v : Nat) (result : Int) : Except WrapperFault (Program σ) :=
  match s.sources v with
  | none => .error .refused
  | some object =>
      match object.source with
      | none => .error .nullSource
      | some source =>
          if result ≠ 0 then .ok s
          else
            .ok { s with
              sources := Function.update s.sources v (some { object with initialized := true })
              up := Function.update s.up source true }

/-- `AccessSource::get` into a new `SourceCounter`; nothing happens if it throws. -/
def get (v w : Nat) (handle : Option Nat) : Except WrapperFault (Program σ) :=
  match s.sources v, s.counters w with
  | none, _ => .error .refused
  | some _, some _ => .error .refused
  | some object, none =>
      if !object.initialized then .ok s
      else
        match object.source, handle with
        | none, _ => .error .nullSource
        | some _, none => .ok s
        | some source, some handle =>
            if (source, handle) ∈ s.live then .error .refused
            else
              .ok { s with
                counters := Function.update s.counters w (some ⟨some source, handle⟩)
                live := (source, handle) :: s.live }

/-- `SourceCounter::read`. -/
def read (w : Nat) : Except WrapperFault (Program σ) :=
  match s.counters w with
  | none => .error .refused
  | some object =>
      match object.source with
      | none => .error .nullSource
      | some source =>
          if (source, object.sourceCounter) ∈ s.live then .ok s else .error .notOpen

/-- `SourceCounter w'(std::move(w))`. -/
def moveCounter (w w' : Nat) : Except WrapperFault (Program σ) :=
  match s.counters w, s.counters w' with
  | some object, none =>
      .ok { s with
        counters := Function.update (Function.update s.counters w' (some object)) w
          (some { object with source := none }) }
  | _, _ => .error .refused

/-- `w = std::move(w')`. -/
def assignCounter (w w' : Nat) : Except WrapperFault (Program σ) :=
  match s.counters w, s.counters w' with
  | some object, some object' =>
      .ok { s with
        counters := Function.update (Function.update s.counters w (some object')) w' (some object) }
  | _, _ => .error .refused

/-- `~SourceCounter`. -/
def destroyCounter (w : Nat) : Except WrapperFault (Program σ) :=
  match s.counters w with
  | none => .error .refused
  | some object =>
      let s' := { s with counters := Function.update s.counters w none }
      match object.source with
      | none => .ok s'
      | some source =>
          if (source, object.sourceCounter) ∈ s.live then
            .ok { s' with live := s.live.erase (source, object.sourceCounter) }
          else .error .notOpen

/-- `AccessSource v'(std::move(v))`. -/
def moveSource (v v' : Nat) : Except WrapperFault (Program σ) :=
  match s.sources v, s.sources v' with
  | some object, none =>
      .ok { s with
        sources := Function.update (Function.update s.sources v' (some object)) v
          (some ⟨none, false⟩) }
  | _, _ => .error .refused

/-- `v = std::move(v')`. -/
def assignSource (v v' : Nat) : Except WrapperFault (Program σ) :=
  match s.sources v, s.sources v' with
  | some object, some object' =>
      .ok { s with
        sources := Function.update (Function.update s.sources v (some object')) v' (some object) }
  | _, _ => .error .refused

/-- `~AccessSource`. -/
def destroySource (v : Nat) : Except WrapperFault (Program σ) :=
  match s.sources v with
  | none => .error .refused
  | some object =>
      let s' := { s with sources := Function.update s.sources v none }
      if !object.initialized then .ok s'
      else
        match object.source with
        | none => .error .nullSource
        | some source => .ok { s' with up := Function.update s.up source false }

/-- One statement. -/
def step : Statement σ → Except WrapperFault (Program σ)
  | .newSource v source => newSource s v source
  | .init v result => init s v result
  | .get v w handle => get s v w handle
  | .read w => read s w
  | .moveCounter w w' => moveCounter s w w'
  | .assignCounter w w' => assignCounter s w w'
  | .destroyCounter w => destroyCounter s w
  | .moveSource v v' => moveSource s v v'
  | .assignSource v v' => assignSource s v v'
  | .destroySource v => destroySource s v

end Statements

section Handles

variable {s s' : Program σ}

/-- The handle that an object closes in its destructor. -/
def SourceCounter.holds (object : Option (SourceCounter σ)) : Option (σ × Nat) :=
  object.bind fun object => object.source.map fun source => (source, object.sourceCounter)

/-- The source that an object finishes in its destructor. -/
def AccessSource.uses (object : Option (AccessSource σ)) : Option σ :=
  object.bind fun object => if object.initialized then object.source else none

/-- The handle that each `SourceCounter` holds. -/
def Program.holds (s : Program σ) : Nat → Option (σ × Nat) := SourceCounter.holds ∘ s.counters

/-- The source that each `AccessSource` has initialized. -/
def Program.uses (s : Program σ) : Nat → Option σ := AccessSource.uses ∘ s.sources

/-- An initialized `AccessSource` has a source. -/
def AccessSource.Proper (object : AccessSource σ) : Prop :=
  object.initialized = true → object.source ≠ none

/-- Each open handle is held by one object, and each `AccessSource` is proper. -/
structure Sound (s : Program σ) : Prop where
  handles : Owned s.holds s.live
  sources : ∀ v, ∀ object ∈ s.sources v, object.Proper

theorem start_sound : Sound (start : Program σ) :=
  ⟨owned_nothing, nofun⟩

theorem holds_update (counters : Nat → Option (SourceCounter σ)) (w : Nat)
    (object : Option (SourceCounter σ)) :
    SourceCounter.holds ∘ Function.update counters w object =
      Function.update (SourceCounter.holds ∘ counters) w (SourceCounter.holds object) :=
  Function.comp_update _ _ _ _

theorem uses_update (sources : Nat → Option (AccessSource σ)) (v : Nat)
    (object : Option (AccessSource σ)) :
    AccessSource.uses ∘ Function.update sources v object =
      Function.update (AccessSource.uses ∘ sources) v (AccessSource.uses object) :=
  Function.comp_update _ _ _ _

theorem holds_of_none {w : Nat} (h : s.counters w = none) : s.holds w = none := by
  simp [Program.holds, h, SourceCounter.holds]

theorem holds_of_some {w : Nat} {object : SourceCounter σ} (h : s.counters w = some object) :
    s.holds w = SourceCounter.holds (some object) := by
  simp [Program.holds, h]

theorem uses_of_some {v : Nat} {object : AccessSource σ} (h : s.sources v = some object) :
    s.uses v = AccessSource.uses (some object) := by
  simp [Program.uses, h]

theorem moveCounter_holds {w w' : Nat} (hmove : moveCounter s w w' = .ok s') :
    ∃ counters, s' = { s with counters := counters } ∧
      SourceCounter.holds ∘ counters = s.holds ∘ Equiv.swap w w' := by
  unfold moveCounter at hmove
  split at hmove
  · rename_i object hw hw'
    cases hmove
    refine ⟨_, rfl, ?_⟩
    rw [Equiv.comp_swap_eq_update, holds_update, holds_update, holds_of_none hw',
      holds_of_some hw]
    rfl
  · cases hmove

theorem assignCounter_holds {w w' : Nat} (hassign : assignCounter s w w' = .ok s') :
    ∃ counters, s' = { s with counters := counters } ∧
      SourceCounter.holds ∘ counters = s.holds ∘ Equiv.swap w w' := by
  unfold assignCounter at hassign
  split at hassign
  · rename_i object object' hw hw'
    cases hassign
    refine ⟨_, rfl, ?_⟩
    rw [Equiv.swap_comm, Equiv.comp_swap_eq_update, holds_update, holds_update, holds_of_some hw,
      holds_of_some hw']
    rfl
  · cases hassign

/-- Two objects exchange their handles. -/
theorem Sound.exchange (h : Sound s) {w w' : Nat} {counters : Nat → Option (SourceCounter σ)}
    (heq : SourceCounter.holds ∘ counters = s.holds ∘ Equiv.swap w w') :
    Sound { s with counters := counters } := by
  refine ⟨?_, h.sources⟩
  change Owned (SourceCounter.holds ∘ counters) s.live
  rw [heq]
  exact h.handles.exchange w w'

/-- An `AccessSource` is replaced by a proper one. -/
theorem Sound.replace (h : Sound s) (v : Nat) {object : Option (AccessSource σ)} (up : σ → Bool)
    (hproper : ∀ new ∈ object, new.Proper) :
    Sound { s with sources := Function.update s.sources v object, up := up } :=
  ⟨h.handles, (Function.forall_update_iff s.sources
    fun _ object => ∀ new ∈ object, new.Proper).mpr ⟨hproper, fun v _ => h.sources v⟩⟩

theorem Sound.moveSource (h : Sound s) {v v' : Nat} (hmove : moveSource s v v' = .ok s') :
    Sound s' := by
  unfold Wrappers.moveSource at hmove
  split at hmove
  · rename_i object hv hv'
    cases hmove
    have hnew : ∀ new ∈ some object, new.Proper := fun new hnew => h.sources v new (hv ▸ hnew)
    refine (h.replace v' s.up hnew).replace v s.up ?_
    rintro new hnew
    cases hnew
    exact nofun
  · cases hmove

theorem Sound.assignSource (h : Sound s) {v v' : Nat} (hassign : assignSource s v v' = .ok s') :
    Sound s' := by
  unfold Wrappers.assignSource at hassign
  split at hassign
  · rename_i object object' hv hv'
    cases hassign
    have hnew : ∀ new ∈ some object, new.Proper := fun new hnew => h.sources v new (hv ▸ hnew)
    have hnew' : ∀ new ∈ some object', new.Proper := fun new hnew => h.sources v' new (hv' ▸ hnew)
    exact (h.replace v s.up hnew').replace v' s.up hnew
  · cases hassign

variable [DecidableEq σ]

theorem Sound.init (h : Sound s) {v : Nat} {result : Int} (hinit : init s v result = .ok s') :
    Sound s' := by
  unfold Wrappers.init at hinit
  split at hinit
  · cases hinit
  · rename_i object hv
    split at hinit
    · cases hinit
    · rename_i source hsource
      split at hinit
      · cases hinit
        exact h
      · cases hinit
        refine h.replace v _ ?_
        rintro new hnew
        cases hnew
        intro _
        simp [hsource]

theorem Sound.get (h : Sound s) {v w : Nat} {handle : Option Nat}
    (hget : get s v w handle = .ok s') : Sound s' := by
  unfold Wrappers.get at hget
  split at hget
  · cases hget
  · cases hget
  · rename_i object hv hw
    split at hget
    · cases hget
      exact h
    · split at hget
      · cases hget
      · cases hget
        exact h
      · rename_i source handle hsource
        split at hget
        · cases hget
        · rename_i hfresh
          cases hget
          refine ⟨?_, h.sources⟩
          unfold Program.holds
          rw [holds_update]
          exact h.handles.acquire (holds_of_none hw) hfresh

/-- The destructor closes the handle, which is open. -/
theorem Sound.destroyCounter (h : Sound s) {w : Nat} {object : SourceCounter σ}
    (hw : s.counters w = some object) :
    ∃ live, destroyCounter s w =
        .ok { s with counters := Function.update s.counters w none, live := live } ∧
      Owned (Function.update s.holds w none) live := by
  unfold Wrappers.destroyCounter
  simp only [hw]
  cases hsource : object.source with
  | none =>
      have hnone : s.holds w = none := by simp [holds_of_some hw, SourceCounter.holds, hsource]
      refine ⟨s.live, rfl, ?_⟩
      rw [Function.update_eq_self_iff.mpr hnone.symm]
      exact h.handles
  | some source =>
      have hsome : s.holds w = some (source, object.sourceCounter) := by
        simp [holds_of_some hw, SourceCounter.holds, hsource]
      obtain ⟨hlive, howned⟩ := h.handles.release hsome
      exact ⟨_, if_pos hlive, howned⟩

theorem Sound.destroyCounter_ok (h : Sound s) {w : Nat}
    (hdestroy : Wrappers.destroyCounter s w = .ok s') :
    Sound s' ∧ s'.holds = Function.update s.holds w none ∧ s'.sources = s.sources ∧
      s'.up = s.up := by
  cases hw : s.counters w with
  | none =>
      unfold Wrappers.destroyCounter at hdestroy
      rw [hw] at hdestroy
      cases hdestroy
  | some object =>
      obtain ⟨live, heq, howned⟩ := h.destroyCounter hw
      rw [heq] at hdestroy
      cases hdestroy
      have hholds : SourceCounter.holds ∘ Function.update s.counters w none =
          Function.update s.holds w none := holds_update _ _ _
      exact ⟨⟨by rw [Program.holds, hholds]; exact howned, h.sources⟩, hholds, rfl, rfl⟩

/-- A handle that an object holds is open. -/
theorem Sound.read (h : Sound s) (w : Nat) : read s w ≠ .error .notOpen := by
  unfold Wrappers.read
  cases hw : s.counters w with
  | none => simp
  | some object =>
      cases hsource : object.source with
      | none => simp [hsource]
      | some source =>
          have hlive : (source, object.sourceCounter) ∈ s.live :=
            (h.handles.mem_iff _).mpr
              ⟨w, by simp [holds_of_some hw, SourceCounter.holds, hsource]⟩
          simp [hsource, hlive]

theorem read_ok {w : Nat} (hread : read s w = .ok s') : s' = s := by
  unfold read at hread
  split at hread
  · cases hread
  · split at hread
    · cases hread
    · split at hread
      · cases hread
        rfl
      · cases hread

/-- The destructor finishes the source that the object has initialized. -/
theorem destroySource_ok {v : Nat} (hdestroy : destroySource s v = .ok s') :
    s' = { s with
      sources := Function.update s.sources v none
      up := match s.uses v with
        | none => s.up
        | some source => Function.update s.up source false } := by
  unfold destroySource at hdestroy
  split at hdestroy
  · cases hdestroy
  · rename_i object hv
    have huses := uses_of_some hv
    simp only [AccessSource.uses, Option.bind_some] at huses
    simp only at hdestroy
    split at hdestroy
    · rename_i hinit
      cases hdestroy
      simp only [Bool.not_eq_true'] at hinit
      simp only [hinit] at huses
      simp [huses]
    · rename_i hinit
      simp only [Bool.not_eq_true', Bool.not_eq_false] at hinit
      simp only [hinit, if_true] at huses
      split at hdestroy
      · cases hdestroy
      · rename_i source hsource
        cases hdestroy
        rw [hsource] at huses
        simp [huses]

/-- **Step lemma.**  Every statement keeps the objects sound. -/
theorem step_sound (h : Sound s) {statement : Statement σ} (hstep : step s statement = .ok s') :
    Sound s' := by
  cases statement with
  | newSource v source =>
      simp only [step, newSource] at hstep
      split at hstep
      · cases hstep
      · cases hstep
        exact h.replace v s.up (by simp [AccessSource.Proper])
  | init v result => exact h.init hstep
  | get v w handle => exact h.get hstep
  | read w => exact read_ok hstep ▸ h
  | moveCounter w w' =>
      obtain ⟨counters, rfl, heq⟩ := moveCounter_holds hstep
      exact h.exchange heq
  | assignCounter w w' =>
      obtain ⟨counters, rfl, heq⟩ := assignCounter_holds hstep
      exact h.exchange heq
  | destroyCounter w => exact (h.destroyCounter_ok hstep).1
  | moveSource v v' => exact h.moveSource hstep
  | assignSource v v' => exact h.assignSource hstep
  | destroySource v =>
      rw [destroySource_ok hstep]
      exact h.replace v _ (by simp)

/-- No statement calls `read` or `close` with a handle that is not open. -/
theorem step_ne_notOpen (h : Sound s) (statement : Statement σ) :
    step s statement ≠ .error .notOpen := by
  cases statement with
  | read w => exact h.read w
  | destroyCounter w =>
      cases hw : s.counters w with
      | none => simp [step, Wrappers.destroyCounter, hw]
      | some object =>
          obtain ⟨live, heq, -⟩ := h.destroyCounter hw
          simp [step, heq]
  | init | get | destroySource =>
      simp only [step, Wrappers.init, Wrappers.get, destroySource]
      repeat' split
      all_goals simp
  | newSource | moveCounter | assignCounter | moveSource | assignSource =>
      simp only [step, newSource, moveCounter, assignCounter, Wrappers.moveSource,
        Wrappers.assignSource]
      split <;> simp

/-- **Each handle is held by one `SourceCounter` until it closes it**: in no program `read` or
`close` meets a handle that is not open, and what the objects hold at the end is what is open. -/
theorem handles_held (program : List (Statement σ)) :
    Transition.run step (start : Program σ) program ≠ .error .notOpen ∧
      ∀ t, Transition.run step start program = .ok t → Owned t.holds t.live :=
  ⟨Transition.run_ne_error (fun _ _ _ h => step_sound h) (fun _ _ => (step_ne_notOpen · _))
      program start_sound,
    fun _ hrun => (Transition.run_invariant (fun _ _ _ _ h => step_sound h) start_sound
      hrun).handles⟩

end Handles

section InUse

variable {s s' : Program σ}

/-- An object holds a handle of the source, or has initialized it. -/
def Program.InUse (s : Program σ) (source : σ) : Prop :=
  (∃ w handle, s.holds w = some (source, handle)) ∨ ∃ v, s.uses v = some source

/-- Every source in use is between its `init` and its `fini`. -/
def Up (s : Program σ) : Prop := ∀ source, s.InUse source → s.up source = true

/-- The last object that uses a source is the one that finishes it. -/
def Orderly (s : Program σ) : Statement σ → Prop
  | .destroySource v => ∀ source, s.uses v = some source →
      (∀ w handle, s.holds w ≠ some (source, handle)) ∧ ∀ v', s.uses v' = some source → v' = v
  | _ => True

theorem start_up : Up (start : Program σ) := by
  rintro source (⟨w, handle, h⟩ | ⟨v, h⟩) <;> cases h

theorem update_some {ρ : Type} {f : Nat → Option ρ} {v : Nat} {x : Option ρ} {w : Nat} {r : ρ}
    (h : Function.update f v x w = some r) : x = some r ∨ f w = some r := by
  by_cases hw : w = v
  · rw [hw, Function.update_self] at h
    exact .inl h
  · rw [Function.update_of_ne hw] at h
    exact .inr h

/-- What the objects use after a step they used before. -/
theorem Up.of_used (hup : Up s) (heq : s'.up = s.up)
    (hholds : ∀ w r, s'.holds w = some r → ∃ w', s.holds w' = some r)
    (huses : ∀ v source, s'.uses v = some source → ∃ v', s.uses v' = some source) : Up s' := by
  rintro source (⟨w, handle, h⟩ | ⟨v, h⟩)
  · obtain ⟨w', hw'⟩ := hholds w _ h
    rw [heq]
    exact hup source (.inl ⟨w', handle, hw'⟩)
  · obtain ⟨v', hv'⟩ := huses v _ h
    rw [heq]
    exact hup source (.inr ⟨v', hv'⟩)

theorem Up.moveSource (hup : Up s) {v v' : Nat} (hmove : moveSource s v v' = .ok s') : Up s' := by
  unfold Wrappers.moveSource at hmove
  split at hmove
  · rename_i object hv hv'
    cases hmove
    refine hup.of_used rfl (fun w r h => ⟨w, h⟩) fun x source h => ?_
    rw [Program.uses, uses_update, uses_update, ← uses_of_some hv] at h
    rcases update_some h with h | h
    · cases h
    · rcases update_some h with h | h
      · exact ⟨v, h⟩
      · exact ⟨x, h⟩
  · cases hmove

theorem Up.assignSource (hup : Up s) {v v' : Nat} (hassign : assignSource s v v' = .ok s') :
    Up s' := by
  unfold Wrappers.assignSource at hassign
  split at hassign
  · rename_i object object' hv hv'
    cases hassign
    refine hup.of_used rfl (fun w r h => ⟨w, h⟩) fun x source h => ?_
    rw [Program.uses, uses_update, uses_update, ← uses_of_some hv, ← uses_of_some hv'] at h
    rcases update_some h with h | h
    · exact ⟨v, h⟩
    · rcases update_some h with h | h
      · exact ⟨v', h⟩
      · exact ⟨x, h⟩
  · cases hassign

theorem Up.exchange (hup : Up s) {w w' : Nat} {counters : Nat → Option (SourceCounter σ)}
    (heq : SourceCounter.holds ∘ counters = s.holds ∘ Equiv.swap w w') :
    Up { s with counters := counters } :=
  hup.of_used rfl (fun x _ h => ⟨Equiv.swap w w' x, (congrFun heq x).symm.trans h⟩)
    fun v _ h => ⟨v, h⟩

variable [DecidableEq σ]

theorem Up.init (hup : Up s) {v : Nat} {result : Int} (hinit : init s v result = .ok s') :
    Up s' := by
  unfold Wrappers.init at hinit
  split at hinit
  · cases hinit
  · rename_i object hv
    split at hinit
    · cases hinit
    · rename_i source hsource
      split at hinit
      · cases hinit
        exact hup
      · cases hinit
        intro other hother
        by_cases hne : other = source
        · rw [hne]
          exact Function.update_self ..
        · change Function.update s.up source true other = true
          rw [Function.update_of_ne hne]
          refine hup other (hother.imp id ?_)
          rintro ⟨x, hx⟩
          rw [Program.uses, uses_update] at hx
          rcases update_some hx with hx | hx
          · simp only [AccessSource.uses, Option.bind_some, if_true, hsource] at hx
            exact absurd (Option.some.inj hx).symm hne
          · exact ⟨x, hx⟩

theorem Up.get (hup : Up s) {v w : Nat} {handle : Option Nat} (hget : get s v w handle = .ok s') :
    Up s' := by
  unfold Wrappers.get at hget
  split at hget
  · cases hget
  · cases hget
  · rename_i object hv hw
    split at hget
    · cases hget
      exact hup
    · rename_i hinit
      split at hget
      · cases hget
      · cases hget
        exact hup
      · rename_i source handle hsource
        have huses : s.uses v = some source := by
          simpa [uses_of_some hv, AccessSource.uses, hsource] using hinit
        split at hget
        · cases hget
        · cases hget
          rintro other (⟨x, y, hx⟩ | hother)
          · rw [Program.holds, holds_update] at hx
            rcases update_some hx with hx | hx
            · cases hx
              exact hup source (.inr ⟨v, huses⟩)
            · exact hup other (.inl ⟨x, y, hx⟩)
          · exact hup other (.inr hother)

theorem destroySource_up (hup : Up s) {v : Nat} (hdestroy : destroySource s v = .ok s') :
    Up s' ↔ Orderly s (.destroySource v) := by
  have heq := destroySource_ok hdestroy
  have hholds : s'.holds = s.holds := by
    rw [heq]
    rfl
  have huses : s'.uses = Function.update s.uses v none := by
    rw [heq]
    exact uses_update _ _ _
  cases hv : s.uses v with
  | none =>
      rw [hv] at heq
      refine iff_of_true (hup.of_used (by rw [heq]) (fun w r h => ⟨w, hholds ▸ h⟩) ?_) ?_
      · intro x source hx
        rw [huses] at hx
        exact ⟨x, (update_some hx).resolve_left (by simp)⟩
      · intro source hsource
        rw [hv] at hsource
        cases hsource
  | some source =>
      rw [hv] at heq
      have hdown : s'.up = Function.update s.up source false := by rw [heq]
      constructor
      · intro hup' other hother
        have hsame : source = other := Option.some.inj (hv.symm.trans hother)
        subst hsame
        -- a use of the source that is left makes it up, and it is down
        have hnot : ¬ s'.InUse source := by
          intro hinUse
          have h := hup' source hinUse
          rw [hdown, Function.update_self] at h
          cases h
        refine ⟨fun w handle h => hnot (.inl ⟨w, handle, hholds ▸ h⟩), fun v' hv' => ?_⟩
        by_contra hne
        exact hnot (.inr ⟨v', by rw [huses, Function.update_of_ne hne, hv']⟩)
      · intro horderly other hother
        obtain ⟨hnoHandle, hlast⟩ := horderly source hv
        have hne : other ≠ source := by
          rintro rfl
          rcases hother with ⟨w, handle, h⟩ | ⟨x, hx⟩
          · exact hnoHandle w handle (hholds ▸ h)
          · rw [huses] at hx
            have hxv := hlast x ((update_some hx).resolve_left (by simp))
            rw [hxv, Function.update_self] at hx
            cases hx
        rw [hdown, Function.update_of_ne hne]
        refine hup other (hother.imp (hholds ▸ id) ?_)
        rintro ⟨x, hx⟩
        rw [huses] at hx
        exact ⟨x, (update_some hx).resolve_left (by simp)⟩

/-- **Step lemma.**  A statement leaves the sources in use up exactly if it is orderly. -/
theorem step_up (h : Sound s) (hup : Up s) {statement : Statement σ}
    (hstep : step s statement = .ok s') : Up s' ↔ Orderly s statement := by
  cases statement with
  | newSource v source =>
      refine iff_of_true ?_ trivial
      simp only [step, newSource] at hstep
      split at hstep
      · cases hstep
      · cases hstep
        refine hup.of_used rfl (fun w r h => ⟨w, h⟩) fun x source h => ?_
        rw [Program.uses, uses_update] at h
        exact ⟨x, (update_some h).resolve_left (by simp [AccessSource.uses])⟩
  | init v result => exact iff_of_true (hup.init hstep) trivial
  | get v w handle => exact iff_of_true (hup.get hstep) trivial
  | read w => exact iff_of_true (read_ok hstep ▸ hup) trivial
  | moveCounter w w' =>
      obtain ⟨counters, rfl, heq⟩ := moveCounter_holds hstep
      exact iff_of_true (hup.exchange heq) trivial
  | assignCounter w w' =>
      obtain ⟨counters, rfl, heq⟩ := assignCounter_holds hstep
      exact iff_of_true (hup.exchange heq) trivial
  | destroyCounter w =>
      obtain ⟨-, hholds, hsources, heq⟩ := h.destroyCounter_ok hstep
      refine iff_of_true (hup.of_used heq (fun x r hx => ?_) fun x source hx => ⟨x, ?_⟩) trivial
      · rw [hholds] at hx
        exact ⟨x, (update_some hx).resolve_left (by simp)⟩
      · rwa [Program.uses, hsources] at hx
  | moveSource v v' => exact iff_of_true (hup.moveSource hstep) trivial
  | assignSource v v' => exact iff_of_true (hup.assignSource hstep) trivial
  | destroySource v => exact destroySource_up hup hstep

/-- A statement that is not orderly destroys an object, which is never refused. -/
theorem exists_step_of_not_orderly {statement : Statement σ} (hnot : ¬ Orderly s statement) :
    ∃ t, step s statement = .ok t := by
  cases statement with
  | destroySource v =>
      simp only [Orderly, not_forall] at hnot
      obtain ⟨source, huses, -⟩ := hnot
      obtain ⟨object, hv, hsource⟩ := Option.bind_eq_some_iff.mp huses
      split at hsource
      · rename_i hinit
        exact ⟨_, by simp [step, destroySource, hv, hinit, hsource]; rfl⟩
      · cases hsource
  | _ => exact absurd trivial hnot

/-- **Which programs use a source only between its `init` and its `fini`**: those in which each
`AccessSource` is destroyed after all other objects of the source it has initialized. -/
theorem sources_up_iff (program : List (Statement σ)) :
    Transition.Meets step Orderly (start : Program σ) program ↔
      ∀ before, before <+: program → ∀ t, Transition.run step start before = .ok t → Up t := by
  refine Transition.Meets.iff_forall_before (I := fun s => Sound s ∧ Up s)
    (fun s a t hs hG ht => ⟨step_sound hs.1 ht, (step_up hs.1 hs.2 ht).mpr hG⟩)
    (fun s a hs hnot => ?_) (fun s hs => hs.2) ⟨start_sound, start_up⟩
  obtain ⟨t, ht⟩ := exists_step_of_not_orderly hnot
  exact ⟨t, ht, fun hup => hnot ((step_up hs.1 hs.2 ht).mp hup)⟩

end InUse

section TestMain

open Transition (run run_cons_ok)

/-- The statements on one counter of one package: `setup` may return no handle, and the last `read`
is the fourth or the one that throws. -/
def testCounter (v : Nat) : Option (Nat × Fin 4) → List (Statement Nat)
  | none => [.get v 0 none]
  | some (handle, reads) =>
      .get v 0 (some handle) :: (List.replicate (reads + 1) (.read 0) ++ [.destroyCounter 0])

/-- The statements on one source; one whose `init` fails is not used. -/
def testSource (v : Nat) (outcome : Int × List (Option (Nat × Fin 4))) : List (Statement Nat) :=
  .init v outcome.1 :: if outcome.1 ≠ 0 then [] else outcome.2.flatMap (testCounter v)

/-- `main` of `test.cpp` for what the functions of each available source return. -/
def testMain (outcomes : List (Int × List (Option (Nat × Fin 4)))) : List (Statement Nat) :=
  (List.range' 0 outcomes.length).map (fun v => .newSource v v) ++
    (outcomes.zipIdx.flatMap fun (outcome, v) => testSource v outcome) ++
      (List.range' 0 outcomes.length).map .destroySource

/-- The statements lead from `s` to `t`, and each of them is orderly. -/
def Leads (s : Program Nat) (statements : List (Statement Nat)) (t : Program Nat) : Prop :=
  run step s statements = .ok t ∧ Transition.Meets step Orderly s statements

/-- The objects of `main` for the sources from `first` to `n`, those with `b` initialized. -/
def testState (first n : Nat) (b : Nat → Bool) : Program Nat where
  counters := fun _ => none
  sources := fun v => if first ≤ v ∧ v < n then some ⟨some v, b v⟩ else none
  live := []
  up := fun v => decide (first ≤ v ∧ v < n) && b v

variable {s t u : Program Nat}

theorem Leads.nil : Leads s [] s := ⟨rfl, trivial⟩

theorem Leads.cons {a : Statement Nat} {rest : List (Statement Nat)} (ha : Orderly s a)
    (hstep : step s a = .ok t) (h : Leads t rest u) : Leads s (a :: rest) u :=
  ⟨by rw [run_cons_ok hstep, h.1], h.2.cons ha hstep⟩

theorem Leads.append {as bs : List (Statement Nat)} (h : Leads s as t) (h' : Leads t bs u) :
    Leads s (as ++ bs) u :=
  ⟨by rw [Transition.run_append h.1, h'.1], h.2.append h.1 h'.2⟩

theorem testState_sources {first n v : Nat} {b : Nat → Bool} (hfirst : first ≤ v) (hv : v < n) :
    (testState first n b).sources v = some ⟨some v, b v⟩ :=
  if_pos ⟨hfirst, hv⟩

theorem testState_uses {first n v source : Nat} {b : Nat → Bool}
    (h : (testState first n b).uses v = some source) :
    first ≤ v ∧ v < n ∧ b v = true ∧ source = v := by
  simp only [Program.uses, testState, Function.comp_apply] at h
  split at h
  · rename_i hv
    simp only [AccessSource.uses, Option.bind_some] at h
    split at h
    · exact ⟨hv.1, hv.2, ‹_›, (Option.some.inj h).symm⟩
    · cases h
  · cases h

theorem testState_newSource (n : Nat) {b : Nat → Bool} (hb : b n = false) :
    step (testState 0 n b) (.newSource n n) = .ok (testState 0 (n + 1) b) := by
  have hnone : (testState 0 n b).sources n = none := if_neg (by omega)
  have hiff : ∀ {v}, v ≠ n → (v < n ↔ v < n + 1) := by omega
  simp only [step, newSource, hnone, Except.ok.injEq]
  ext1
  · rfl
  · funext v
    by_cases hv : v = n
    · simp [hv, testState, hb]
    · simp [hv, testState, hiff hv]
  · rfl
  · funext v
    by_cases hv : v = n
    · simp [hv, testState, hb]
    · simp [testState, hiff hv]

theorem testState_init {n v : Nat} {b : Nat → Bool} (hv : v < n) (result : Int) :
    step (testState 0 n b) (.init v result) =
      .ok (testState 0 n (Function.update b v (b v || decide (result = 0)))) := by
  simp only [step, init, testState_sources (Nat.zero_le v) hv]
  by_cases hresult : result = 0
  · rw [if_neg (by simpa using hresult), Except.ok.injEq]
    ext1
    · rfl
    · funext w
      by_cases hw : w = v
      · simp [hw, testState, hv, hresult]
      · simp [hw, testState]
    · rfl
    · funext w
      by_cases hw : w = v
      · simp [hw, testState, hv, hresult]
      · simp [hw, testState]
  · simp [hresult]

theorem testState_destroySource {n v : Nat} {b : Nat → Bool} (hv : v < n) :
    step (testState v n b) (.destroySource v) = .ok (testState (v + 1) n b) := by
  have hiff : ∀ {w}, w ≠ v → (v ≤ w ↔ v + 1 ≤ w) := by omega
  have hsources : Function.update (testState v n b).sources v none =
      (testState (v + 1) n b).sources := by
    funext w
    by_cases hw : w = v
    · simp [hw, testState]
    · simp [hw, testState, hiff hw]
  simp only [step, destroySource, testState_sources (Nat.le_refl v) hv, hsources]
  cases hb : b v with
  | false =>
      rw [if_pos (show (!false) = true from rfl), Except.ok.injEq]
      ext1 <;> try rfl
      funext w
      by_cases hw : w = v
      · simp [hw, testState, hb]
      · simp [testState, hiff hw]
  | true =>
      rw [if_neg (by simp), Except.ok.injEq]
      ext1 <;> try rfl
      funext w
      by_cases hw : w = v
      · simp [hw, testState]
      · simp [hw, testState, hiff hw]

theorem testState_orderly (n v : Nat) (b : Nat → Bool) :
    Orderly (testState v n b) (.destroySource v) := by
  intro source hsource
  obtain ⟨-, -, -, rfl⟩ := testState_uses hsource
  exact ⟨fun _ _ => nofun, fun _ hv' => (testState_uses hv').2.2.2.symm⟩

theorem leads_newSources (n k : Nat) :
    Leads (testState 0 n fun _ => false) ((List.range' n k).map fun v => .newSource v v)
      (testState 0 (n + k) fun _ => false) := by
  induction k generalizing n with
  | zero => exact Leads.nil
  | succ k ih =>
      rw [List.range'_succ, List.map_cons, ← Nat.add_assoc, Nat.add_right_comm]
      exact Leads.cons trivial (testState_newSource n rfl) (ih (n + 1))

theorem leads_testCounter {n v : Nat} {b : Nat → Bool} (hv : v < n) (hb : b v = true)
    (attempt : Option (Nat × Fin 4)) :
    Leads (testState 0 n b) (testCounter v attempt) (testState 0 n b) := by
  have hsource := testState_sources (b := b) (Nat.zero_le v) hv
  cases attempt with
  | none =>
      refine Leads.cons trivial ?_ Leads.nil
      simp only [step, get, hsource, hb]
      rfl
  | some attempt =>
      obtain ⟨handle, reads⟩ := attempt
      let s : Program Nat := { testState 0 n b with
        counters := Function.update (fun _ => none) 0 (some ⟨some v, handle⟩)
        live := [(v, handle)] }
      have hget : step (testState 0 n b) (.get v 0 (some handle)) = .ok s := by
        simp only [step, get, hsource, hb]
        rfl
      have hread : step s (.read 0) = .ok s := by
        simp [step, read, s]
      have hreads : ∀ k, Leads s (List.replicate k (.read 0)) s := by
        intro k
        induction k with
        | zero => exact Leads.nil
        | succ k ih => exact Leads.cons trivial hread ih
      have hdestroy : step s (.destroyCounter 0) = .ok (testState 0 n b) := by
        simp [step, destroyCounter, s]
        rfl
      exact Leads.cons trivial hget ((hreads _).append (Leads.cons trivial hdestroy Leads.nil))

theorem leads_testSource {n v : Nat} {b : Nat → Bool} (hv : v < n)
    (outcome : Int × List (Option (Nat × Fin 4))) :
    ∃ b', Leads (testState 0 n b) (testSource v outcome) (testState 0 n b') := by
  refine ⟨Function.update b v (b v || decide (outcome.1 = 0)),
    Leads.cons trivial (testState_init hv outcome.1) ?_⟩
  by_cases hresult : outcome.1 = 0
  · rw [if_neg (by simpa using hresult)]
    have hinit : Function.update b v (b v || decide (outcome.1 = 0)) v = true := by
      simp [hresult]
    induction outcome.2 with
    | nil => exact Leads.nil
    | cons attempt rest ih => exact (leads_testCounter hv hinit attempt).append ih
  · rw [if_pos hresult]
    exact Leads.nil

theorem leads_testSources {n : Nat} :
    ∀ {v : Nat} {b : Nat → Bool} (outcomes : List (Int × List (Option (Nat × Fin 4)))),
      v + outcomes.length ≤ n →
      ∃ b', Leads (testState 0 n b)
        ((outcomes.zipIdx v).flatMap fun (outcome, v) => testSource v outcome)
        (testState 0 n b')
  | v, b, [], _ => ⟨b, Leads.nil⟩
  | v, b, outcome :: rest, hlen => by
      rw [List.length_cons] at hlen
      obtain ⟨b', h⟩ := leads_testSource (b := b) (show v < n by omega) outcome
      obtain ⟨b'', h'⟩ := leads_testSources (n := n) (v := v + 1) (b := b') rest (by omega)
      exact ⟨b'', h.append h'⟩

theorem leads_destroySources {n : Nat} {b : Nat → Bool} :
    ∀ {v k : Nat}, v + k ≤ n →
      Leads (testState v n b) ((List.range' v k).map .destroySource) (testState (v + k) n b)
  | v, 0, _ => Leads.nil
  | v, k + 1, hlen => by
      rw [List.range'_succ, List.map_cons, ← Nat.add_assoc, Nat.add_right_comm]
      exact Leads.cons (testState_orderly n v b) (testState_destroySource (by omega))
        (leads_destroySources (by omega))

/-- **The test program cleans up**: whatever the functions of the sources return, it uses each
source only between its `init` and its `fini`, and at the end no handle is open and no source is
initialized. -/
theorem testMain_cleans_up (outcomes : List (Int × List (Option (Nat × Fin 4)))) :
    Transition.Meets step Orderly start (testMain outcomes) ∧
      ∃ t, run step start (testMain outcomes) = .ok t ∧ t.live = [] ∧ ∀ v, t.up v = false := by
  have hnew := leads_newSources 0 outcomes.length
  rw [Nat.zero_add] at hnew
  obtain ⟨b, htest⟩ := leads_testSources (v := 0) (b := fun _ => false) outcomes
    (Nat.le_of_eq (Nat.zero_add _))
  have hdestroy := leads_destroySources (b := b) (v := 0)
    (Nat.le_of_eq (Nat.zero_add outcomes.length))
  have hstart : (testState 0 0 fun _ => false) = start := by
    ext1 <;> simp [testState, start]
  obtain ⟨hrun, horderly⟩ := (hnew.append htest).append hdestroy
  rw [hstart] at hrun horderly
  exact ⟨horderly, _, hrun, rfl, fun v => by simp [testState]⟩

end TestMain

end Wrappers
end X86Energy
