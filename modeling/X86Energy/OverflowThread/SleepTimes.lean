import Mathlib.Data.List.Induction
import Mathlib.Order.Bounds.Basic
import X86Energy.OverflowThread.Failures

/-!
# How long the threads sleep

A create asks for a sleep time, and the thread of the CPU shall sleep for the least time
that was asked for.  `x86_energy_set_internal_update_thread_rate` shall replace all of them
by one rate, and a rate of 0 forbids the threads.

`Sleeps` is the invariant of the creates: it says of each `thread_info` that it has the
least of the wanted times, where the wanted times are those after the override.
-/

namespace X86Energy
namespace OverflowThread

open Block

variable {ρ τ : Type}

/-- The arguments of a create, and what its allocations and its thread do. -/
structure CreateRequest (ρ τ : Type) where
  cpu : Int
  read : ρ
  t : τ
  usleepTime : Int
  outcome : CreateOutcome

/-- All allocations succeed. -/
def CreateOutcome.Allocates (o : CreateOutcome) : Prop :=
  o.infos = true ∧ o.info = true ∧ o.functions = true ∧ o.t = true

/-- One create, whatever it returns. -/
def Registry.request (r : Registry ρ τ) (q : CreateRequest ρ τ) : Except OvFault (Registry ρ τ) :=
  (r.create q.cpu q.read q.t q.usleepTime q.outcome).map Prod.fst

/-- A zeroed registry, after at most one call that sets the rate. -/
def startWith : Option Int → Registry ρ τ
  | none => .empty
  | some rate => Registry.empty.setUpdateRate rate

/-- The sleep times asked for a CPU. -/
def requested (calls : List (CreateRequest ρ τ)) (cpu : Int) : List Int :=
  (calls.filter fun q => q.cpu = cpu).map CreateRequest.usleepTime

/-- **The threads sleep as they shall**: for the least requested time without an override,
for the rate if it is positive, and there is nothing at all if it is 0. -/
structure SleepsRight (rate : Option Int) (calls : List (CreateRequest ρ τ)) (r : Registry ρ τ) :
    Prop where
  least : rate = none → ∀ cpu, requested calls cpu ≠ [] →
    ∃ info, r.infoOf cpu = .ok info ∧ IsLeast {x | x ∈ requested calls cpu} info.usleepTime
  every : rate = none → ∀ i < r.ov.nrThreadInfos, ∃ info, r.ov.loadInfo i = .ok info ∧
    IsLeast {x | x ∈ requested calls info.cpu} info.usleepTime
  override : ∀ x, rate = some x → 0 < x → ∀ i < r.ov.nrThreadInfos, ∃ info,
    r.ov.loadInfo i = .ok info ∧ info.usleepTime = x
  nothing : rate = some 0 → r.ov.nrThreadInfos = 0 ∧ r.ov.threadInfos = none ∧ r.threads = []

/-- **The invariant**: the `thread_info`s are those of the CPUs for which a time is wanted,
each with the least one. -/
structure Sleeps (ov : OvStruct ρ τ) (infos : List (ThreadInfo ρ τ)) (wanted : Int → List Int) :
    Prop where
  has : ov.Has infos
  cpus : (infos.map ThreadInfo.cpu).Nodup
  times : ∀ info ∈ infos, IsLeast {x | x ∈ wanted info.cpu} info.usleepTime
  present : ∀ cpu, wanted cpu ≠ [] → cpu ∈ infos.map ThreadInfo.cpu

section Steps

variable {ov : OvStruct ρ τ} {infos : List (ThreadInfo ρ τ)} {wanted : Int → List Int}

theorem sleeps_empty : Sleeps (Registry.empty : Registry ρ τ).ov [] fun _ => [] where
  has := ⟨rfl, holds_nil _⟩
  cpus := List.nodup_nil
  times _ hinfo := absurd hinfo List.not_mem_nil
  present _ h := absurd rfl h

/-- A CPU without a `thread_info` has no wanted times. -/
theorem Sleeps.wanted_nil (h : Sleeps ov infos wanted) {cpu : Int}
    (hcpu : cpu ∉ infos.map ThreadInfo.cpu) : wanted cpu = [] := by
  by_contra hne
  exact hcpu (h.present cpu hne)

/-- The `thread_info` of one CPU gets another time. -/
theorem Sleeps.set (h : Sleeps ov infos wanted) {i : Nat} (hi : i < infos.length)
    {info : ThreadInfo ρ τ} (hcpu : info.cpu = infos[i].cpu) {times : List Int}
    (hleast : IsLeast {x | x ∈ times} info.usleepTime) :
    Sleeps (ov.storeInfo i info) (infos.set i info)
      (Function.update wanted infos[i].cpu times) := by
  have hcpus := cpus_set hi hcpu
  refine ⟨h.has.storeInfo hi info, ?_, ?_, ?_⟩
  · rw [hcpus]
    exact h.cpus
  · intro x hx
    obtain ⟨j, hj, rfl⟩ := List.getElem_of_mem hx
    rw [List.length_set] at hj
    by_cases hij : i = j
    · subst hij
      rw [List.getElem_set_self, hcpu, Function.update_self]
      exact hleast
    · rw [List.getElem_set_ne hij, Function.update_of_ne]
      · exact h.times _ (List.getElem_mem hj)
      · exact cpu_ne h.cpus hi hj hij
  · intro cpu hne
    rw [hcpus]
    by_cases hc : cpu = infos[i].cpu
    · rw [hc]
      exact List.mem_map_of_mem (List.getElem_mem hi)
    · rw [Function.update_of_ne hc] at hne
      exact h.present cpu hne

/-- A `thread_info` for a new CPU. -/
theorem Sleeps.append (h : Sleeps ov infos wanted) {cpu : Int}
    (hnew : cpu ∉ infos.map ThreadInfo.cpu) {ov' : OvStruct ρ τ} {info : ThreadInfo ρ τ}
    (hhas : ov'.Has (infos ++ [info])) (hcpu : info.cpu = cpu) {times : List Int}
    (hleast : IsLeast {x | x ∈ times} info.usleepTime) :
    Sleeps ov' (infos ++ [info]) (Function.update wanted cpu times) := by
  have hcpus : (infos ++ [info]).map ThreadInfo.cpu = infos.map ThreadInfo.cpu ++ [cpu] := by
    rw [List.map_append, List.map_singleton, hcpu]
  refine ⟨hhas, ?_, ?_, ?_⟩
  · rw [hcpus]
    exact List.nodup_append.mpr ⟨h.cpus, List.nodup_singleton _, fun a ha b hb hab => by
      rw [List.mem_singleton.mp hb] at hab
      exact hnew (hab ▸ ha)⟩
  · intro x hx
    rcases List.mem_append.mp hx with hx | hx
    · rw [Function.update_of_ne]
      · exact h.times x hx
      · rintro rfl
        exact hnew (List.mem_map_of_mem hx)
    · rw [List.mem_singleton.mp hx, hcpu, Function.update_self]
      exact hleast
  · intro c hne
    rw [hcpus, List.mem_append, List.mem_singleton]
    by_cases hc : c = cpu
    · exact .inr hc
    · rw [Function.update_of_ne hc] at hne
      exact .inl (h.present c hne)

/-- One more time is wanted: the least time is the smaller one. -/
theorem isLeast_append {times : List Int} {least : Int} (h : IsLeast {x | x ∈ times} least)
    (x : Int) : IsLeast {y | y ∈ times ++ [x]} (if least > x then x else least) := by
  have hset : {y | y ∈ times ++ [x]} = insert x {y | y ∈ times} := by
    ext y
    simp [or_comm]
  have hmin : (if least > x then x else least) = min x least := by
    rw [min_def]
    split <;> split <;> omega
  rw [hset, hmin]
  exact h.insert x

/-- **The first part of a create** takes the wanted time into account. -/
theorem Sleeps.ensureThreadInfo (h : Sleeps ov infos wanted) (cpu x : Int) {o : CreateOutcome}
    (hinfos : o.infos = true) (hinfo : o.info = true) :
    ∃ ov' infos', ov.ensureThreadInfo cpu x o = .ok (ov', true) ∧
      Sleeps ov' infos' (Function.update wanted cpu (wanted cpu ++ [x])) := by
  unfold OvStruct.ensureThreadInfo
  rw [h.has.getThreadInfo]
  by_cases hmem : cpu ∈ infos.map ThreadInfo.cpu
  · obtain ⟨i, hi, rfl⟩ := exists_place hmem
    rw [findIdx_cpu h.cpus hi]
    simp only [Option.map_some, h.has.loadInfo hi]
    have hleast := isLeast_append (h.times _ (List.getElem_mem hi)) x
    by_cases hlower : infos[i].usleepTime > x
    · rw [if_pos hlower] at hleast ⊢
      have hcpu : ThreadInfo.cpu { infos[i] with usleepTime := x } = infos[i].cpu := rfl
      exact ⟨_, _, rfl, h.set hi hcpu hleast⟩
    · rw [if_neg hlower] at hleast ⊢
      have hset := h.set hi rfl hleast
      rw [storeInfo_self (h.has.loadInfo hi)] at hset
      exact ⟨_, _, rfl, hset⟩
  · rw [findIdx_none.mpr hmem]
    obtain ⟨ov', hadd, hhas⟩ := h.has.addThreadInfo cpu x hinfos hinfo
    simp only [Option.map_none, hadd]
    refine ⟨_, _, rfl, h.append hmem hhas rfl ?_⟩
    rw [h.wanted_nil hmem]
    simp [isLeast_singleton]

theorem addCall_usleepTime (info : ThreadInfo ρ τ) (read : ρ) (t : τ) (o : CreateOutcome) :
    (info.addCall read t o).1.usleepTime = info.usleepTime := by
  unfold ThreadInfo.addCall
  split
  · rfl
  · dsimp only
    split <;> rfl

/-- **The second part** changes no sleep time. -/
theorem Sleeps.register {r : Registry ρ τ} (h : Sleeps r.ov infos wanted) {cpu : Int}
    (hmem : cpu ∈ infos.map ThreadInfo.cpu) (read : ρ) (t : τ) (o : CreateOutcome) :
    ∃ r' infos', (r.register cpu read t o).map Prod.fst = .ok r' ∧ Sleeps r'.ov infos' wanted ∧
      r'.overrideUpdateRate = r.overrideUpdateRate := by
  obtain ⟨i, hi, rfl⟩ := exists_place hmem
  have hset : ∀ info : ThreadInfo ρ τ, info.cpu = infos[i].cpu →
      info.usleepTime = infos[i].usleepTime →
      Sleeps (r.ov.storeInfo i info) (infos.set i info) wanted := by
    intro info hcpu htime
    have hset := h.set hi hcpu (htime ▸ h.times _ (List.getElem_mem hi))
    rwa [Function.update_eq_self] at hset
  have hcpu := (addCall_fields infos[i] read t o).1
  have htime := addCall_usleepTime infos[i] read t o
  rw [register_eq h.has hi (findIdx_cpu h.cpus hi)]
  dsimp only
  split
  · exact ⟨_, _, rfl, hset _ hcpu htime, rfl⟩
  · split
    · exact ⟨_, _, rfl, hset _ hcpu htime, rfl⟩
    · exact ⟨_, _, rfl, hset { (infos[i].addCall read t o).1 with thread := r.threads.length + 1 }
        hcpu htime, rfl⟩

end Steps

/-- The time that a create wants: the override puts its flag in the place of the rate. -/
def wantedTime (rate : Option Int) (usleepTime : Int) : Int :=
  match rate with
  | none => usleepTime
  | some _ => 1

/-- The times wanted for a CPU. -/
def wantedTimes (rate : Option Int) (calls : List (CreateRequest ρ τ)) (cpu : Int) : List Int :=
  (requested calls cpu).map (wantedTime rate)

section Runs

variable {rate : Option Int} {r : Registry ρ τ} {infos : List (ThreadInfo ρ τ)}
  {calls : List (CreateRequest ρ τ)} {q : CreateRequest ρ τ}

theorem wantedTimes_append_singleton (rate : Option Int) (calls : List (CreateRequest ρ τ))
    (q : CreateRequest ρ τ) :
    wantedTimes rate (calls ++ [q]) = Function.update (wantedTimes rate calls) q.cpu
      (wantedTimes rate calls q.cpu ++ [wantedTime rate q.usleepTime]) := by
  funext cpu
  unfold wantedTimes requested
  by_cases hcpu : cpu = q.cpu
  · subst hcpu
    rw [Function.update_self]
    simp
  · rw [Function.update_of_ne hcpu]
    simp [Ne.symm hcpu]

theorem mem_wantedTimes (rate : Option Int) (hq : q ∈ calls) :
    wantedTime rate q.usleepTime ∈ wantedTimes rate calls q.cpu :=
  List.mem_map_of_mem (List.mem_map_of_mem (List.mem_filter.mpr ⟨hq, by simp⟩))

theorem wantedTimes_none (calls : List (CreateRequest ρ τ)) (cpu : Int) :
    wantedTimes none calls cpu = requested calls cpu := List.map_id _

/-- One create. -/
theorem Sleeps.request (h : Sleeps r.ov infos (wantedTimes r.overrideUpdateRate calls))
    (hrate : r.overrideUpdateRate ≠ some 0) (hq : q.outcome.Allocates) :
    ∃ r' infos', r.request q = .ok r' ∧ r'.overrideUpdateRate = r.overrideUpdateRate ∧
      Sleeps r'.ov infos' (wantedTimes r.overrideUpdateRate (calls ++ [q])) := by
  have hsleep : r.sleepTime q.usleepTime = some (wantedTime r.overrideUpdateRate q.usleepTime) := by
    unfold Registry.sleepTime wantedTime
    cases hx : r.overrideUpdateRate with
    | none => rfl
    | some x => exact if_neg fun hzero => hrate (hx.trans (congrArg some hzero))
  obtain ⟨ov, infos₁, hensure, h₁⟩ := h.ensureThreadInfo q.cpu
    (wantedTime r.overrideUpdateRate q.usleepTime) hq.1 hq.2.1
  rw [← wantedTimes_append_singleton] at h₁
  have hmem : q.cpu ∈ infos₁.map ThreadInfo.cpu := by
    refine h₁.present _ ?_
    rw [wantedTimes_append_singleton, Function.update_self]
    simp
  obtain ⟨r', infos', hregister, h', hkept⟩ :=
    Sleeps.register (r := { r with ov := ov }) h₁ hmem q.read q.t q.outcome
  refine ⟨r', infos', ?_, hkept, h'⟩
  unfold Registry.request Registry.create
  simp only [hsleep, hensure]
  exact hregister

/-- **Every run of creates** keeps the invariant. -/
theorem sleeps_run (hrate : rate ≠ some 0) (hcalls : ∀ q ∈ calls, q.outcome.Allocates) :
    ∃ r infos, Transition.run Registry.request (startWith rate : Registry ρ τ) calls = .ok r ∧
      r.overrideUpdateRate = rate ∧ Sleeps r.ov infos (wantedTimes rate calls) := by
  induction calls using List.reverseRecOn with
  | nil =>
      refine ⟨startWith rate, [], rfl, ?_, ?_⟩
      · cases rate <;> rfl
      · cases rate <;> exact sleeps_empty
  | append_singleton calls q ih =>
      obtain ⟨r, infos, hrun, rfl, h⟩ := ih fun q hq => hcalls q (by simp [hq])
      obtain ⟨r', infos', hstep, hkept, h'⟩ := h.request hrate (hcalls q (by simp))
      refine ⟨r', infos', ?_, hkept, h'⟩
      rw [Transition.run_append hrun, Transition.run_cons_ok hstep, Transition.run_nil]

/-- The rate 0 stops every create. -/
theorem run_rateZero (calls : List (CreateRequest ρ τ)) :
    Transition.run Registry.request (startWith (some 0) : Registry ρ τ) calls =
      .ok (startWith (some 0)) := by
  induction calls with
  | nil => rfl
  | cons q calls ih =>
      have hstep : (startWith (some 0) : Registry ρ τ).request q = .ok (startWith (some 0)) := rfl
      rw [Transition.run_cons_ok hstep, ih]

/-- The override makes every time 1. -/
theorem Sleeps.usleepTime_one {ov : OvStruct ρ τ} {x : Int}
    (h : Sleeps ov infos (wantedTimes (some x) calls)) {i : Nat} (hi : i < infos.length) :
    infos[i].usleepTime = 1 := by
  obtain ⟨hmem, _⟩ := h.times _ (List.getElem_mem hi)
  obtain ⟨_, _, htime⟩ := List.mem_map.mp hmem
  exact htime.symm

/-- **The sleep times are right exactly without a rate above 1**, in every run of creates
that get their memory. -/
theorem sleepsRight_iff (rate : Option Int) (hcalls : ∀ q ∈ calls, q.outcome.Allocates) :
    ∃ r, Transition.run Registry.request (startWith rate : Registry ρ τ) calls = .ok r ∧
      (SleepsRight rate calls r ↔ calls = [] ∨ ∀ x, rate = some x → x ≤ 1) := by
  by_cases hzero : rate = some 0
  · subst hzero
    refine ⟨_, run_rateZero calls, iff_of_true ⟨nofun, nofun, ?_, fun _ => ⟨rfl, rfl, rfl⟩⟩ ?_⟩
    · intro x hx hpos
      cases hx
      exact absurd hpos (Int.lt_irrefl 0)
    · right
      intro x hx
      cases hx
      decide
  · obtain ⟨r, infos, hrun, _, h⟩ := sleeps_run hzero hcalls
    refine ⟨r, hrun, ?_⟩
    constructor
    · intro hright
      by_contra hnot
      rw [not_or, not_forall] at hnot
      obtain ⟨hne, x, hx⟩ := hnot
      rw [Classical.not_imp] at hx
      obtain ⟨rfl, hx⟩ := hx
      -- the first create has a `thread_info`, which sleeps for 1
      obtain ⟨q, hq⟩ := List.exists_mem_of_ne_nil calls hne
      obtain ⟨i, hi, _⟩ := exists_place (h.present _ (List.ne_nil_of_mem (mem_wantedTimes _ hq)))
      obtain ⟨info, hload, htime⟩ := hright.override x rfl (by omega) i (by rwa [h.has.nr])
      rw [h.has.loadInfo hi] at hload
      cases hload
      have hone := h.usleepTime_one hi
      omega
    · intro hfine
      refine ⟨?_, ?_, ?_, fun hnone => absurd hnone hzero⟩
      · rintro rfl cpu hne
        rw [← wantedTimes_none] at hne
        obtain ⟨i, hi, rfl⟩ := exists_place (h.present cpu hne)
        have hleast := h.times _ (List.getElem_mem hi)
        rw [wantedTimes_none] at hleast
        refine ⟨infos[i], ?_, hleast⟩
        unfold Registry.infoOf
        rw [h.has.getThreadInfo, findIdx_cpu h.cpus hi]
        exact h.has.loadInfo hi
      · rintro rfl i hi
        rw [h.has.nr] at hi
        have hleast := h.times _ (List.getElem_mem hi)
        rw [wantedTimes_none] at hleast
        exact ⟨infos[i], h.has.loadInfo hi, hleast⟩
      · rintro x rfl hpos i hi
        rw [h.has.nr] at hi
        refine ⟨infos[i], h.has.loadInfo hi, ?_⟩
        rw [h.usleepTime_one hi]
        rcases hfine with rfl | hle
        · obtain ⟨hmem, _⟩ := h.times _ (List.getElem_mem hi)
          cases hmem
        · have hone := hle x rfl
          omega

end Runs

section Machines

/-- A create for a CPU with some sleep time. -/
def requestFor (cpu usleepTime : Int) : CreateRequest Nat Nat := ⟨cpu, 7, 1, usleepTime, allCreated⟩

theorem sleepsRight_threeRequests :
    ∃ r, Transition.run Registry.request (startWith none)
        [requestFor 0 300, requestFor 1 500, requestFor 0 200] = .ok r ∧
      SleepsRight none [requestFor 0 300, requestFor 1 500, requestFor 0 200] r := by
  obtain ⟨r, hrun, hiff⟩ := @sleepsRight_iff Nat Nat
    [requestFor 0 300, requestFor 1 500, requestFor 0 200] none
    (by simp [requestFor, allCreated, CreateOutcome.Allocates])
  refine ⟨r, hrun, hiff.mpr (.inr fun x hrate => ?_)⟩
  cases hrate

/-- **The rate 1000**: the thread sleeps for 1. -/
theorem not_sleepsRight_rate1000 :
    ∃ r : Registry Nat Nat, Transition.run Registry.request (startWith (some 1000))
        [requestFor 0 30000000] = .ok r ∧
      (∃ info, r.ov.loadInfo 0 = .ok info ∧ info.usleepTime = 1) ∧
      ¬ SleepsRight (some 1000) [requestFor 0 30000000] r := by
  refine ⟨_, rfl, ⟨_, rfl, rfl⟩, fun h => ?_⟩
  obtain ⟨info, hload, htime⟩ := h.override 1000 rfl (by decide) 0 Nat.zero_lt_one
  cases hload
  cases htime

end Machines

end OverflowThread
end X86Energy
