import X86Energy.OverflowThread.Failures
import X86Energy.OverflowThread.Thread

/-!
# When the thread stays away from freed memory

The thread loads a pair after it tested that there is one, and runs its read after that.
In between the client may remove the pair and free the counter.  And the client does not
wait for a thread that it cancelled before it frees the `thread_info`.

A registration that fails can leave its pair, or a slot without a `thread_info`, to a thread
that is started later.  Apart from this no interleaving goes wrong: a removal leaves pairs
of open counters in all slots that the thread may be about to load (`Live`).
-/

namespace X86Energy
namespace OverflowThread

open Block

variable {ρ τ : Type}

namespace System

variable {s : System ρ τ} {cpu : Int}

/-- The pair in the slots that the thread is about to load belongs to a counter that is not
freed. -/
def Loads (s : System ρ τ) (cpu : Int) (i : Nat) : Prop :=
  ∃ info f t, s.registry.infoOf cpu = .ok info ∧ info.functions[i]? = some (some f) ∧
    info.t[i]? = some (some t) ∧ s.Allocated t

/-- What holds until the source is ended.  The pairs of the CPU are those of open counters once
its thread is started. -/
structure Active (cpu : Int) (s : System ρ τ) (infos : List (ThreadInfo ρ τ))
    (m : Entries ρ τ) : Prop where
  listed : s.registry.ov.Listed infos m
  rate : s.registry.overrideUpdateRate = none
  running : s.registry.Running
  nodup : cpu ∈ s.registry.threads → (m cpu).Nodup
  opened : cpu ∈ s.registry.threads → ∀ f t, (f, t) ∈ m cpu → (cpu, f, t) ∈ s.counters
  started : s.pc ≠ .idle → cpu ∈ s.registry.threads
  loads : ∀ i, s.pc = .load i → s.Loads cpu i

/-- **The invariant**: the thread runs only reads of counters that are not freed, and it
does not go on after the end of the source. -/
structure Live (cpu : Int) (s : System ρ τ) : Prop where
  flags : s.ranFreed = false ∧ s.touchedFreed = false
  runs : ∀ f t i, s.pc = .run f t i → s.Allocated t
  distinct : (s.counters.map fun counter => counter.2.2).Nodup
  closed : ∀ t, s.closing = some t → t ∉ s.counters.map fun counter => counter.2.2
  active : s.finished = false → ∃ infos m, Active cpu s infos m
  ended : s.finished = true → s.registry.ov.threadInfos = none ∧
    (s.pc = .idle ∨ s.pc = .stopped ∨
      s.cancelled = true ∧ (s.pc = .sleep ∨ ∃ f t i, s.pc = .run f t i))

theorem live_start : Live cpu (start : System ρ τ) where
  flags := ⟨rfl, rfl⟩
  runs _ _ _ hpc := nomatch hpc
  distinct := List.nodup_nil
  closed _ ht := nomatch ht
  active _ := ⟨[], fun _ => [], listed_empty, rfl, fun _ hcpu => absurd hcpu List.not_mem_nil,
    fun _ => List.nodup_nil, fun _ _ _ hmem => absurd hmem List.not_mem_nil,
    fun hne => absurd rfl hne, nofun⟩
  ended h := nomatch h

theorem Active.infoOf {infos : List (ThreadInfo ρ τ)} {m : Entries ρ τ}
    (h : Active cpu s infos m) (hcpu : cpu ∈ s.registry.threads) :
    ∃ info, s.registry.infoOf cpu = .ok info ∧ info.thread ≠ 0 := by
  obtain ⟨i, info, hfind, hload, hthread⟩ := h.running cpu hcpu
  refine ⟨info, ?_, hthread⟩
  unfold Registry.infoOf
  rw [hfind]
  exact hload

/-- A pair of the CPU is in its slots, and its counter is open. -/
theorem Active.loads_of_lt {infos : List (ThreadInfo ρ τ)} {m : Entries ρ τ}
    (h : Active cpu s infos m) (hcpu : cpu ∈ s.registry.threads) {info : ThreadInfo ρ τ}
    (hinfo : s.registry.infoOf cpu = .ok info) {i : Nat} (hi : i < info.nrFunctions) :
    s.Loads cpu i := by
  have hlists := h.listed.infoOf_lists hinfo
  rw [hlists.nr] at hi
  have hf := hlists.functions.get (i := i) (by rwa [List.length_map])
  have ht := hlists.t.get (i := i) (by rwa [List.length_map])
  rw [List.getElem_map] at hf ht
  refine ⟨info, _, _, hinfo, hf, ht, .inl ?_⟩
  exact List.mem_map_of_mem (h.opened hcpu _ _ (List.getElem_mem hi))

/-- The thread goes on to another place. -/
theorem Live.move (h : Live cpu s) {pc : Pc ρ τ} (hidle : s.pc ≠ .idle)
    (hruns : ∀ f t i, pc = .run f t i → s.Allocated t)
    (hloads : ∀ i, pc = .load i → s.Loads cpu i)
    (hended : s.finished = true → pc = .stopped) : Live cpu { s with pc := pc } where
  flags := h.flags
  runs := hruns
  distinct := h.distinct
  closed := h.closed
  active hactive := by
    obtain ⟨infos, m, hact⟩ := h.active hactive
    exact ⟨infos, m, { hact with started := fun _ => hact.started hidle, loads := hloads }⟩
  ended hfinished := ⟨(h.ended hfinished).1, .inr (.inl (hended hfinished))⟩

/-- The thread is about to use its `thread_info`. -/
def Inside (s : System ρ τ) : Prop :=
  s.pc = .delay ∨ ∃ i, s.pc = .test i ∨ s.pc = .load i ∨ s.pc = .next i

/-- Only a thread that sleeps or stands at a read outlives the source, and it is
cancelled. -/
theorem Live.cancelled (h : Live cpu s) (hfinished : s.finished = true) (hidle : s.pc ≠ .idle)
    (hstopped : s.pc ≠ .stopped) :
    s.cancelled = true ∧ (s.pc = .sleep ∨ ∃ f t i, s.pc = .run f t i) := by
  rcases (h.ended hfinished).2 with hpc | hpc | hpc
  · exact absurd hpc hidle
  · exact absurd hpc hstopped
  · exact hpc

section ThreadSteps

variable [DecidableEq τ]

/-- **The steps of the thread.** -/
theorem Live.threadStep (h : Live cpu s) :
    ∃ s', s.threadStep cpu = .ok s' ∧ Live cpu s' := by
  -- a thread inside the loop is not one of an ended source
  have hinside : s.Inside → ¬ s.finished = true := by
    intro hinside hfinished
    have hcases := (h.ended hfinished).2
    rcases hinside with hpc | ⟨i, hpc | hpc | hpc⟩ <;> simp [hpc] at hcases
  unfold System.threadStep
  cases hpc : s.pc with
  | idle => exact ⟨s, rfl, h⟩
  | stopped => exact ⟨s, rfl, h⟩
  | delay =>
      have hnot := hinside (.inl hpc)
      obtain ⟨infos, m, hact⟩ := h.active (by simpa using hnot)
      obtain ⟨info, hinfo, _⟩ := hact.infoOf (hact.started (by simp [hpc]))
      simp only [if_neg hnot, hinfo]
      exact ⟨_, rfl, h.move (by simp [hpc]) nofun nofun fun hfinished => absurd hfinished hnot⟩
  | sleep =>
      refine ⟨_, rfl, h.move (by simp [hpc]) ?_ ?_ ?_⟩
      · intro f t i hnext
        split at hnext <;> cases hnext
      · intro i hnext
        split at hnext <;> cases hnext
      · intro hfinished
        exact if_pos (h.cancelled hfinished (by simp [hpc]) (by simp [hpc])).1
  | test i =>
      have hnot := hinside (.inr ⟨i, .inl hpc⟩)
      obtain ⟨infos, m, hact⟩ := h.active (by simpa using hnot)
      have hstarted := hact.started (by simp [hpc])
      obtain ⟨info, hinfo, _⟩ := hact.infoOf hstarted
      simp only [if_neg hnot, hinfo]
      refine ⟨_, rfl, h.move (by simp [hpc]) ?_ ?_ ?_⟩
      · intro f t j hnext
        split at hnext <;> cases hnext
      · intro j hnext
        split at hnext
        · rename_i hi
          cases hnext
          exact hact.loads_of_lt hstarted hinfo hi
        · cases hnext
      · exact fun hfinished => absurd hfinished hnot
  | load i =>
      have hnot := hinside (.inr ⟨i, .inr (.inl hpc)⟩)
      obtain ⟨infos, m, hact⟩ := h.active (by simpa using hnot)
      obtain ⟨info, f, t, hinfo, hf, ht, hallocated⟩ := hact.loads i hpc
      simp only [if_neg hnot, hinfo, loadSlot, hf, ht]
      refine ⟨_, rfl, h.move (by simp [hpc]) ?_ ?_ ?_⟩
      · intro f' t' j hnext
        cases hnext
        exact hallocated
      · intro j hnext
        cases hnext
      · exact fun hfinished => absurd hfinished hnot
  | run f t i =>
      have hallocated := h.runs f t i hpc
      have hflag : (s.ranFreed || !decide (s.Allocated t)) = s.ranFreed := by simp [hallocated]
      simp only [hflag]
      refine ⟨_, rfl, h.move (by simp [hpc]) ?_ ?_ ?_⟩
      · intro f' t' j hnext
        split at hnext <;> cases hnext
      · intro j hnext
        split at hnext <;> cases hnext
      · intro hfinished
        exact if_pos (h.cancelled hfinished (by simp [hpc]) (by simp [hpc])).1
  | next i =>
      have hnot := hinside (.inr ⟨i, .inr (.inr hpc)⟩)
      exact ⟨_, rfl, h.move (by simp [hpc]) nofun nofun fun hfinished => absurd hfinished hnot⟩

end ThreadSteps

/-- The thread has, or is about to load, the pair of the counter. -/
def Holding (s : System ρ τ) (cpu : Int) (t : τ) : Prop :=
  (∃ f i, s.pc = .run f t i) ∨
    ∃ i info, s.pc = .load i ∧ s.registry.infoOf cpu = .ok info ∧ info.t[i]? = some (some t)

/-- **The `free`** of a counter that the thread does not hold. -/
theorem Live.free (h : Live cpu s) (hfine : ∀ t, s.closing = some t → ¬ s.Holding cpu t) :
    Live cpu { s with closing := none } where
  flags := h.flags
  runs f t i hrun := by
    rcases h.runs f t i hrun with hmem | hclosing
    · exact .inl hmem
    · exact absurd (.inl ⟨f, i, hrun⟩) (hfine t hclosing)
  distinct := h.distinct
  closed _ ht := nomatch ht
  active hactive := by
    obtain ⟨infos, m, hact⟩ := h.active hactive
    refine ⟨infos, m, { hact with loads := fun i hload => ?_ }⟩
    obtain ⟨info, f, t, hinfo, hf, ht, hallocated⟩ := hact.loads i hload
    refine ⟨info, f, t, hinfo, hf, ht, ?_⟩
    rcases hallocated with hmem | hclosing
    · exact .inl hmem
    · exact absurd (.inr ⟨i, info, hload, hinfo, ht⟩) (hfine t hclosing)
  ended := h.ended

/-- In a registry where every index has its thread, `killall` cancels all of them. -/
theorem Active.killall {infos : List (ThreadInfo ρ τ)} {m : Entries ρ τ}
    (h : Active cpu s infos m) (hintact : s.registry.Intact) :
    s.registry.killall = .ok (infos.map ThreadInfo.cpu) := by
  refine h.listed.has.killall fun info hinfo => ?_
  obtain ⟨i, hi, rfl⟩ := List.getElem_of_mem hinfo
  obtain ⟨info, hload, hne, hthread⟩ := hintact i (by rwa [h.listed.has.nr])
  rw [h.listed.has.loadInfo hi] at hload
  cases hload
  unfold Registry.cancel
  rw [if_neg hne, hthread]

/-- **The end of the source**, while the thread is not inside its loop. -/
theorem Live.fini (h : Live cpu s) (hintact : s.registry.Intact) (hinside : ¬ s.Inside) :
    ∃ s', s.fini cpu = .ok s' ∧ Live cpu s' := by
  unfold System.fini
  by_cases hrefused : s.finished = true ∨ s.closing.isSome = true
  · exact ⟨s, if_pos hrefused, h⟩
  · rw [if_neg hrefused]
    obtain ⟨infos, m, hact⟩ := h.active (by simpa using fun hf => hrefused (.inl hf))
    obtain ⟨r', hfree, hnone⟩ := hact.listed.has.freeall
    simp only [hact.killall hintact, hfree]
    refine ⟨_, rfl, h.flags, h.runs, h.distinct, h.closed, nofun, fun _ => ⟨hnone, ?_⟩⟩
    have hcancelled : s.pc ≠ .idle →
        (s.cancelled || decide (cpu ∈ infos.map ThreadInfo.cpu)) = true := by
      intro hidle
      obtain ⟨info, hinfo, _⟩ := hact.infoOf (hact.started hidle)
      obtain ⟨i, hi, rfl, rfl⟩ := hact.listed.infoOf_some hinfo
      rw [Bool.or_eq_true, decide_eq_true_eq]
      exact .inr (List.mem_map_of_mem (List.getElem_mem hi))
    cases hpc : s.pc with
    | idle => exact .inl rfl
    | stopped => exact .inr (.inl rfl)
    | sleep => exact .inr (.inr ⟨hcancelled (by simp [hpc]), .inl rfl⟩)
    | run f t i => exact .inr (.inr ⟨hcancelled (by simp [hpc]), .inr ⟨f, t, i, rfl⟩⟩)
    | delay => exact absurd (.inl hpc) hinside
    | test i => exact absurd (.inr ⟨i, .inl hpc⟩) hinside
    | load i => exact absurd (.inr ⟨i, .inr (.inl hpc)⟩) hinside
    | next i => exact absurd (.inr ⟨i, .inr (.inr hpc)⟩) hinside

section ClientCalls

theorem start_eq {pc : Pc ρ τ} {created : Bool} :
    pc.start created = pc ∨ pc = .idle ∧ created = true ∧ pc.start created = .delay := by
  cases pc with
  | idle =>
      cases created with
      | false => exact .inl rfl
      | true => exact .inr ⟨rfl, rfl, rfl⟩
  | _ => exact .inl rfl

/-- A slot that is not behind the end of the arrays still has a pair after `add_call`. -/
theorem addCall_slots {info : ThreadInfo ρ τ} {i : Nat} (hi : i ≤ info.nrFunctions) {f : ρ} {x : τ}
    (hf : info.functions[i]? = some (some f)) (hx : info.t[i]? = some (some x)) (read : ρ) (t : τ)
    (o : CreateOutcome) :
    ∃ f' x', (info.addCall read t o).1.functions[i]? = some (some f') ∧
      (info.addCall read t o).1.t[i]? = some (some x') ∧ (x' = x ∨ x' = t) := by
  have hlt : i < info.nrFunctions + 1 := Nat.lt_succ_of_le hi
  unfold ThreadInfo.addCall
  split
  · exact ⟨f, x, hf, hx, .inl rfl⟩
  · dsimp only
    split
    · exact ⟨f, x, (getElem?_resize_iff hlt).mpr hf, hx, .inl rfl⟩
    · by_cases hlast : info.nrFunctions = i
      · rw [hlast]
        refine ⟨read, t, List.getElem?_set_self ?_, List.getElem?_set_self ?_, .inr rfl⟩
        · rw [length_resize]
          exact Nat.lt_succ_self i
        · rw [length_resize]
          exact Nat.lt_succ_self i
      · refine ⟨f, x, ?_, ?_, .inl rfl⟩
        · rw [List.getElem?_set_ne hlast]
          exact (getElem?_resize_iff hlt).mpr hf
        · rw [List.getElem?_set_ne hlast]
          exact (getElem?_resize_iff hlt).mpr hx

/-- **What a create has done** to the pairs of its CPU, to the arrays and to the threads. -/
structure Created (r r' : Registry ρ τ) (infos : List (ThreadInfo ρ τ)) (m : Entries ρ τ) (cpu : Int)
    (read : ρ) (t : τ) (o : CreateOutcome) (l : List (ρ × τ)) (code : Int) : Prop where
  pairs : l = [] ∨ l = [(read, t)]
  listed : r'.ov.Listed infos (Function.update m cpu (m cpu ++ l))
  others : OthersKept cpu r r'
  arrays : ∀ info, r.infoOf cpu = .ok info → ∃ info', r'.infoOf cpu = .ok info' ∧
    info'.functions = (info.addCall read t o).1.functions ∧ info'.t = (info.addCall read t o).1.t
  threads : r'.threads = r.threads ∧
      (∀ info, r.infoOf cpu = .ok info → info.thread ≠ 0 → code = 0) ∨
    r'.threads = r.threads ++ [cpu] ∧ code = 0 ∧ o.thread = true ∧
      ∀ info, r.infoOf cpu = .ok info → info.thread = 0
  rate : r'.overrideUpdateRate = r.overrideUpdateRate

theorem pairs_added (o : CreateOutcome) (read : ρ) (t : τ) :
    o.added read t = [] ∨ o.added read t = [(read, t)] := by
  unfold CreateOutcome.added
  split
  · exact .inr rfl
  · exact .inl rfl

/-- A create keeps the arrays in order, unless its slot gets no `thread_info`. -/
theorem exists_created {r : Registry ρ τ} {infos : List (ThreadInfo ρ τ)} {m : Entries ρ τ}
    (h : r.ov.Listed infos m) (hrate : r.overrideUpdateRate = none) {cpu : Int} (read : ρ) (t : τ)
    (usleepTime : Int) {o : CreateOutcome}
    (hinfo : r.ov.getThreadInfo cpu = .ok none → o.infos = true → o.info = true) :
    ∃ r' res infos' l, r.create cpu read t usleepTime o = .ok (r', res) ∧
      Created r r' infos' m cpu read t o l res.code := by
  by_cases hmem : cpu ∈ infos.map ThreadInfo.cpu
  · obtain ⟨i, hi, rfl⟩ := exists_place hmem
    obtain ⟨ov, info, threads, res, hcreate, hlisted, hcpu, hf, ht, hstarts⟩ :=
      h.create hrate hi read t usleepTime o
    have hold := h.infoOf_getElem hi
    have hi' : i < (infos.set i info).length := by rwa [List.length_set]
    have hnew := OvStruct.Listed.infoOf_getElem
      (r := { r with ov := ov, threads := threads }) hlisted hi'
    rw [List.getElem_set_self, hcpu] at hnew
    refine ⟨_, res, _, _, hcreate, pairs_added o read t, hlisted, othersKept_set h.has hi hlisted.has,
      fun old hinfo => ?_, ?_, rfl⟩
    · cases hold.symm.trans hinfo
      exact ⟨info, hnew, hf, ht⟩
    · rcases hstarts with ⟨_, _, hkept, hcode⟩ | ⟨hzero, _, hkept, _⟩ | ⟨hzero, ho, _, hstarted, hcode⟩
      · exact .inl ⟨hkept, fun _ _ _ => hcode⟩
      · refine .inl ⟨hkept, fun old hinfo hne => ?_⟩
        cases hold.symm.trans hinfo
        exact absurd hzero hne
      · refine .inr ⟨hstarted, hcode, ho, fun old hinfo => ?_⟩
        cases hold.symm.trans hinfo
        exact hzero
  · have hnone : r.ov.getThreadInfo cpu = .ok none := by
      rw [h.has.getThreadInfo, findIdx_none.mpr hmem]
      rfl
    have hno : ∀ info, r.infoOf cpu ≠ .ok info := by
      intro info hinfo
      unfold Registry.infoOf at hinfo
      rw [hnone] at hinfo
      cases hinfo
    cases hinfos : o.infos with
    | false =>
        refine ⟨r, ⟨1, none⟩, infos, [], h.create_refused hrate hmem read t usleepTime hinfos, .inl rfl,
          ?_, OthersKept.refl cpu r, fun info hinfo => absurd hinfo (hno info),
          .inl ⟨rfl, fun info hinfo => absurd hinfo (hno info)⟩, rfl⟩
        rw [List.append_nil, Function.update_eq_self]
        exact h
    | true =>
        obtain ⟨ov, info, threads, res, hcreate, hlisted, _, hstarts⟩ :=
          h.create_new hrate hmem read t usleepTime hinfos (hinfo hnone hinfos)
        refine ⟨_, res, _, _, hcreate, pairs_added o read t, hlisted,
          othersKept_append h.has hlisted.has, fun info hinfo => absurd hinfo (hno info), ?_, rfl⟩
        rcases hstarts with ⟨hne, _⟩ | ⟨_, _, hkept, _⟩ | ⟨_, ho, _, hstarted, hcode⟩
        · exact absurd rfl hne
        · exact .inl ⟨hkept, fun info hinfo => absurd hinfo (hno info)⟩
        · exact .inr ⟨hstarted, hcode, ho, fun info hinfo => absurd hinfo (hno info)⟩

/-- **The registrations that are safe**: the arrays do not shrink below the slot that the thread
is about to load, the slot of a new CPU gets its `thread_info`, and the thread is not started
with pairs of registrations that failed. -/
structure RegisterFine (cpu : Int) (s : System ρ τ) (counterCpu : Int) (o : CreateOutcome) :
    Prop where
  slot : counterCpu = cpu → ∀ i info, s.pc = .load i → s.registry.infoOf cpu = .ok info →
    i ≤ info.nrFunctions
  info : s.registry.ov.getThreadInfo counterCpu = .ok none → o.infos = true → o.info = true
  calls : counterCpu = cpu → ∀ info, s.registry.infoOf cpu = .ok info → info.thread = 0 →
    o.thread = true → info.nrFunctions = 0

/-- The counters after a registration. -/
def registered (s : System ρ τ) (counter : Int × ρ × τ) (code : Int) : List (Int × ρ × τ) :=
  if code = 0 then s.counters ++ [counter] else s.counters

theorem mem_registered {counter other : Int × ρ × τ} {code : Int} (h : other ∈ s.counters) :
    other ∈ s.registered counter code := by
  unfold registered
  split
  · exact List.mem_append_left _ h
  · exact h

section Register

variable {infos infos' : List (ThreadInfo ρ τ)} {m : Entries ρ τ} {l : List (ρ × τ)}
  {r' : Registry ρ τ} {counterCpu : Int} {read : ρ} {t : τ} {o : CreateOutcome} {code : Int}
  (h : Active cpu s infos m)
  (hcreated : Created s.registry r' infos' m counterCpu read t o l code)
  (hfine : RegisterFine cpu s counterCpu o)
include h hcreated

omit h in
/-- A registration ends no thread. -/
theorem Created.mem_threads (hcpu : cpu ∈ s.registry.threads) : cpu ∈ r'.threads := by
  rcases hcreated.threads with ⟨hkept, _⟩ | ⟨hstarted, _⟩
  · rwa [hkept]
  · rw [hstarted]
    exact List.mem_append_left _ hcpu

/-- A registration for a CPU with a thread succeeds. -/
theorem Active.code_register (hcpu : counterCpu ∈ r'.threads) (hsame : counterCpu = cpu) :
    code = 0 := by
  rcases hcreated.threads with ⟨hkept, hcode⟩ | ⟨_, hcode, _⟩
  · rw [hkept] at hcpu
    subst hsame
    obtain ⟨info, hinfo, hthread⟩ := h.infoOf hcpu
    exact hcode info hinfo hthread
  · exact hcode

include hfine

/-- The pairs of a CPU with a thread were those of open counters before a registration. -/
theorem Active.opened_before (hcpu : cpu ∈ r'.threads) :
    (m cpu).Nodup ∧ ∀ f x, (f, x) ∈ m cpu → (cpu, f, x) ∈ s.counters := by
  by_cases hbefore : cpu ∈ s.registry.threads
  · exact ⟨h.nodup hbefore, h.opened hbefore⟩
  · -- the thread is started now, and there are no pairs yet
    have hnil : m cpu = [] := by
      rcases hcreated.threads with ⟨hkept, _⟩ | ⟨hstarted, _, ho, hzero⟩
      · rw [hkept] at hcpu
        exact absurd hcpu hbefore
      · rw [hstarted, List.mem_append, List.mem_singleton] at hcpu
        obtain rfl := hcpu.resolve_left hbefore
        by_cases hmem : cpu ∈ infos.map ThreadInfo.cpu
        · obtain ⟨i, hi, rfl⟩ := exists_place hmem
          have hinfo := h.listed.infoOf_getElem hi
          have hnr := (h.listed.infoOf_lists hinfo).nr
          rw [hfine.calls rfl _ hinfo (hzero _ hinfo) ho] at hnr
          exact List.eq_nil_of_length_eq_zero hnr.symm
        · exact h.listed.absent cpu hmem
    rw [hnil]
    exact ⟨List.nodup_nil, fun _ _ hmem => absurd hmem List.not_mem_nil⟩

/-- The listed pairs after a registration are those of counters. -/
theorem Active.opened_register (hcpu : cpu ∈ r'.threads) (f : ρ) (x : τ)
    (hmem : (f, x) ∈ Function.update m counterCpu (m counterCpu ++ l) cpu) :
    (cpu, f, x) ∈ s.registered (counterCpu, read, t) code := by
  have hopened := (h.opened_before hcreated hfine hcpu).2
  by_cases hsame : counterCpu = cpu
  · rw [h.code_register hcreated (hsame ▸ hcpu) hsame]
    subst hsame
    rw [Function.update_self] at hmem
    rcases List.mem_append.mp hmem with hmem | hmem
    · exact mem_registered (hopened f x hmem)
    · rcases hcreated.pairs with rfl | rfl
      · cases hmem
      · cases List.mem_singleton.mp hmem
        exact List.mem_append_right _ List.mem_cons_self
  · rw [Function.update_of_ne (Ne.symm hsame)] at hmem
    exact mem_registered (hopened f x hmem)

/-- No pair is listed twice after the registration of a new one. -/
theorem Active.nodup_register (hfresh : ¬ s.Allocated t) (hcpu : cpu ∈ r'.threads) :
    (Function.update m counterCpu (m counterCpu ++ l) cpu).Nodup := by
  obtain ⟨hnodup, hopened⟩ := h.opened_before hcreated hfine hcpu
  by_cases hsame : counterCpu = cpu
  · subst hsame
    rw [Function.update_self]
    rcases hcreated.pairs with rfl | rfl
    · rwa [List.append_nil]
    · refine List.nodup_append.mpr ⟨hnodup, List.nodup_singleton _, fun a ha b hb hab => ?_⟩
      rw [List.mem_singleton.mp hb] at hab
      subst hab
      exact hfresh (.inl (List.mem_map_of_mem (hopened read t ha)))
  · rwa [Function.update_of_ne (Ne.symm hsame)]

/-- The slot that the thread is about to load, after a registration. -/
theorem Active.loads_register {i : Nat} (hpc : s.pc = .load i) (pc : Pc ρ τ) :
    ({ s with
      registry := r'
      pc := pc
      counters := s.registered (counterCpu, read, t) code } : System ρ τ).Loads cpu i := by
  obtain ⟨info, f, x, hinfo, hf, hx, hallocated⟩ := h.loads i hpc
  have hkept : ∀ x, s.Allocated x →
      x ∈ (s.registered (counterCpu, read, t) code).map (fun counter => counter.2.2) ∨
        s.closing = some x := by
    rintro x (hmem | hclosing)
    · obtain ⟨counter, hcounter, rfl⟩ := List.mem_map.mp hmem
      exact .inl (List.mem_map_of_mem (mem_registered hcounter))
    · exact .inr hclosing
  by_cases hsame : counterCpu = cpu
  · -- the slot has its pair, or the new one
    have hcpu := hcreated.mem_threads (h.started (by simp [hpc]))
    have hcode := h.code_register hcreated (hsame ▸ hcpu) hsame
    obtain ⟨f', x', hf', hx', hx₂⟩ := addCall_slots (hfine.slot hsame i info hpc hinfo) hf hx read t o
    obtain ⟨info', hinfo', hfunctions, hcounters⟩ := hcreated.arrays info (hsame ▸ hinfo)
    refine ⟨info', f', x', hsame ▸ hinfo', by rw [hfunctions, hf'], by rw [hcounters, hx'], ?_⟩
    rcases hx₂ with rfl | rfl
    · exact hkept x' hallocated
    · left
      rw [hcode]
      exact List.mem_map_of_mem (f := fun counter => counter.2.2)
        (List.mem_append_right s.counters List.mem_cons_self)
  · exact ⟨info, f, x, h.listed.infoOf_othersKept hcreated.listed hcreated.others (Ne.symm hsame) hinfo,
      hf, hx, hkept x hallocated⟩

/-- The pairs and slots after a registration. -/
theorem Active.register (hrunning : r'.Running) (hfresh : ¬ s.Allocated t) :
    Active cpu { s with
      registry := r'
      pc := s.pc.start (decide (cpu ∈ r'.threads))
      counters := s.registered (counterCpu, read, t) code } infos'
        (Function.update m counterCpu (m counterCpu ++ l)) where
  listed := hcreated.listed
  rate := hcreated.rate.trans h.rate
  running := hrunning
  nodup hcpu := h.nodup_register hcreated hfine hfresh hcpu
  opened hcpu f x hmem := h.opened_register hcreated hfine hcpu f x hmem
  started hidle := by
    rcases @start_eq ρ τ s.pc (decide (cpu ∈ r'.threads)) with hpc | ⟨_, hstarted, _⟩
    · exact hcreated.mem_threads (h.started fun hpc' => hidle (hpc.trans hpc'))
    · simpa using hstarted
  loads i hload := by
    have hpc : s.pc = .load i := by
      rcases @start_eq ρ τ s.pc (decide (cpu ∈ r'.threads)) with hpc | ⟨_, _, hpc⟩
      · exact hpc.symm.trans hload
      · exact absurd (hpc.symm.trans hload) nofun
    exact h.loads_register hcreated hfine hpc _

end Register

variable [DecidableEq τ]

/-- **A registration** appends a pair behind the slots that the thread may be about to load, if it
gets the memory, and leaves no pair to the thread if it fails. -/
theorem Live.register (h : Live cpu s) {counterCpu : Int} (read : ρ) (t : τ) (usleepTime : Int)
    {o : CreateOutcome} (hfine : RegisterFine cpu s counterCpu o) :
    ∃ s', s.register cpu counterCpu read t usleepTime o = .ok s' ∧ Live cpu s' := by
  unfold System.register
  by_cases hrefused : s.finished = true ∨ s.closing.isSome = true ∨ s.Allocated t
  · exact ⟨s, if_pos hrefused, h⟩
  · rw [if_neg hrefused]
    simp only [not_or, Bool.not_eq_true, Option.isSome_eq_false_iff, Option.isNone_iff_eq_none]
      at hrefused
    obtain ⟨hactive, hclosing, hfresh⟩ := hrefused
    have hnew : t ∉ s.counters.map fun counter => counter.2.2 := fun hmem => hfresh (.inl hmem)
    obtain ⟨infos, m, hact⟩ := h.active hactive
    obtain ⟨r', res, infos', l, hcreate, hcreated⟩ :=
      exists_created hact.listed hact.rate read t usleepTime hfine.info
    have hrunning := running_create hact.running hcreate
    simp only [hcreate]
    refine ⟨_, rfl, h.flags, fun f x i hrun => ?_, ?_, ?_,
      fun _ => ⟨infos', _, hact.register hcreated hfine hrunning hfresh⟩, fun hfinished => ?_⟩
    · have hpc : s.pc = .run f x i := by
        rcases @start_eq ρ τ s.pc (decide (cpu ∈ r'.threads)) with hpc | ⟨_, _, hpc⟩
        · exact hpc.symm.trans hrun
        · exact absurd (hpc.symm.trans hrun) nofun
      refine (h.runs f x i hpc).imp (fun hmem => ?_) id
      obtain ⟨counter, hcounter, rfl⟩ := List.mem_map.mp hmem
      exact List.mem_map_of_mem (mem_registered hcounter)
    · dsimp only
      split
      · rw [List.map_append]
        refine List.nodup_append.mpr ⟨h.distinct, List.nodup_singleton _, fun a ha b hb hab => ?_⟩
        obtain rfl : a = t := hab.trans (List.mem_singleton.mp hb)
        exact hnew ha
      · exact h.distinct
    · intro x hx
      rw [hclosing] at hx
      cases hx
    · rw [hactive] at hfinished
      cases hfinished

variable [DecidableEq ρ]

/-- Between the removal and the `free` the same counters are allocated as before. -/
theorem allocated_remove {counter : Int × ρ × τ} {x : τ} (h : s.Allocated x)
    (hclosing : s.closing = none) :
    x ∈ (s.counters.erase counter).map (fun counter => counter.2.2) ∨
      some counter.2.2 = some x := by
  rcases h with hmem | hclosed
  · obtain ⟨other, hother, rfl⟩ := List.mem_map.mp hmem
    by_cases hsame : other = counter
    · exact .inr (by rw [hsame])
    · exact .inl (List.mem_map_of_mem ((List.mem_erase_of_ne hsame).mpr hother))
  · rw [hclosing] at hclosed
    cases hclosed

section Remove

variable {infos infos' : List (ThreadInfo ρ τ)} {m : Entries ρ τ} (h : Active cpu s infos m)
  {counterCpu : Int} {read : ρ} {t : τ}
include h

/-- The listed pairs after a removal are those of open counters. -/
theorem Active.opened_remove (hcpu : cpu ∈ s.registry.threads) (f : ρ) (x : τ)
    (hmem : (f, x) ∈ Function.update m counterCpu ((m counterCpu).erase (read, t)) cpu) :
    (cpu, f, x) ∈ s.counters.erase (counterCpu, read, t) := by
  by_cases hsame : counterCpu = cpu
  · subst hsame
    rw [Function.update_self] at hmem
    obtain ⟨hne, hmem⟩ := (h.nodup hcpu).mem_erase_iff.mp hmem
    refine (List.mem_erase_of_ne ?_).mpr (h.opened hcpu f x hmem)
    exact fun heq => hne (Prod.mk.inj heq).2
  · rw [Function.update_of_ne (Ne.symm hsame)] at hmem
    refine (List.mem_erase_of_ne ?_).mpr (h.opened hcpu f x hmem)
    exact fun heq => hsame (Prod.mk.inj heq).1.symm

/-- No pair is listed twice after a removal. -/
theorem Active.nodup_remove (hcpu : cpu ∈ s.registry.threads) :
    (Function.update m counterCpu ((m counterCpu).erase (read, t)) cpu).Nodup := by
  by_cases hsame : counterCpu = cpu
  · subst hsame
    rw [Function.update_self]
    exact (h.nodup hcpu).erase _
  · rw [Function.update_of_ne (Ne.symm hsame)]
    exact h.nodup hcpu

variable {M : Memcpy} {ov : OvStruct ρ τ}
  (hremove : s.registry.removeCall M counterCpu read t = .ok { s.registry with ov := ov })
  (hlisted : ov.Listed infos' (Function.update m counterCpu ((m counterCpu).erase (read, t))))
  (hothers : OthersKept counterCpu s.registry { s.registry with ov := ov })
  (hclosing : s.closing = none) (hfine : RemoveFine s.registry (.removeCall counterCpu read t))
include hremove hlisted hothers hclosing hfine

/-- The slot that the thread is about to load, after a removal. -/
theorem Active.loads_remove {i : Nat} (hpc : s.pc = .load i) :
    ({ s with
      registry := { s.registry with ov := ov }
      counters := s.counters.erase (counterCpu, read, t)
      closing := some t } : System ρ τ).Loads cpu i := by
  obtain ⟨info, f, x, hinfo, hf, hx, hallocated⟩ := h.loads i hpc
  have hcpu := h.started (by simp [hpc])
  by_cases hc : counterCpu = cpu
  · -- the slot is as it was, or as that of a listed pair
    subst hc
    obtain ⟨info', hremove', hinfo'⟩ := h.listed.infoOf_removeCall hremove hinfo
    have hlists := h.listed.infoOf_lists hinfo
    obtain ⟨j, hj, hfj, hxj⟩ := hlists.removeCall_slots M
      (fun k hk => h.listed.last_of_fine hfine hinfo hk) hremove' i
    have hslot : ∃ f x, info.functions[j]? = some (some f) ∧ info.t[j]? = some (some x) ∧
        s.Allocated x := by
      rcases hj with rfl | hj
      · exact ⟨f, x, hf, hx, hallocated⟩
      · rw [← hlists.nr] at hj
        obtain ⟨info₁, f₁, x₁, hinfo₁, hslots⟩ := h.loads_of_lt hcpu hinfo hj
        rw [hinfo] at hinfo₁
        cases hinfo₁
        exact ⟨f₁, x₁, hslots⟩
    obtain ⟨f', x', hf', hx', hallocated'⟩ := hslot
    exact ⟨info', f', x', hinfo', hfj.trans hf', hxj.trans hx',
      allocated_remove hallocated' hclosing⟩
  · have hkept : Registry.infoOf { s.registry with ov := ov } cpu = .ok info :=
      h.listed.infoOf_othersKept hlisted hothers (Ne.symm hc) hinfo
    exact ⟨info, f, x, hkept, hf, hx, allocated_remove hallocated hclosing⟩

/-- The pairs and slots after a removal. -/
theorem Active.remove :
    Active cpu { s with
      registry := { s.registry with ov := ov }
      counters := s.counters.erase (counterCpu, read, t)
      closing := some t } infos'
        (Function.update m counterCpu ((m counterCpu).erase (read, t))) where
  listed := hlisted
  rate := h.rate
  running := running_removeCall h.running hremove
  nodup := h.nodup_remove
  opened := h.opened_remove
  started := h.started
  loads _ hload := h.loads_remove hremove hlisted hothers hclosing hfine hload

end Remove

/-- **A removal** leaves pairs of allocated counters in the slots. -/
theorem Live.remove (h : Live cpu s) (M : Memcpy) {counterCpu : Int} {read : ρ} {t : τ}
    (hfine : RemoveFine s.registry (.removeCall counterCpu read t)) :
    ∃ s', s.remove M counterCpu read t = .ok s' ∧ Live cpu s' := by
  unfold System.remove
  by_cases hrefused : s.closing.isSome = true ∨ (counterCpu, read, t) ∉ s.counters
  · exact ⟨s, if_pos hrefused, h⟩
  · rw [if_neg hrefused]
    simp only [not_or, Bool.not_eq_true, Option.isSome_eq_false_iff, Option.isNone_iff_eq_none,
      not_not] at hrefused
    obtain ⟨hclosing, hopen⟩ := hrefused
    have hruns : ∀ f x i, s.pc = .run f x i →
        x ∈ (s.counters.erase (counterCpu, read, t)).map (fun counter => counter.2.2) ∨
          some t = some x := fun f x i hrun => allocated_remove (h.runs f x i hrun) hclosing
    have hperm := ((List.perm_cons_erase hopen).map fun counter => counter.2.2).nodup_iff.mp
      h.distinct
    rw [List.map_cons, List.nodup_cons] at hperm
    have hclosed : ∀ x, some t = some x →
        x ∉ (s.counters.erase (counterCpu, read, t)).map fun counter => counter.2.2 := by
      intro x hx
      cases hx
      exact hperm.1
    by_cases hfinished : s.finished = true
    · -- there is no registry any more
      obtain ⟨hnone, hpc⟩ := h.ended hfinished
      have hremove : s.registry.removeCall M counterCpu read t = .ok s.registry := by
        unfold Registry.removeCall OvStruct.getThreadInfo
        rw [hnone]
      simp only [hremove]
      refine ⟨_, rfl, h.flags, hruns, hperm.2, hclosed, fun hactive => ?_, fun _ => ⟨hnone, hpc⟩⟩
      rw [hfinished] at hactive
      cases hactive
    · obtain ⟨infos, m, hact⟩ := h.active (by simpa using hfinished)
      obtain ⟨ov, infos', hremove, hlisted, _, hothers⟩ := hact.listed.removeCall M hfine
      simp only [hremove]
      exact ⟨_, rfl, h.flags, hruns, hperm.2, hclosed,
        fun _ => ⟨infos', _, hact.remove hremove hlisted hothers hclosing hfine⟩,
        fun hf => absurd hf hfinished⟩

/-- **The steps that are safe.**  A registration is one of those above, a removal has at most one
pair behind it, a counter is not freed while the thread holds its pair, and the source is ended
only in a registry where every index has its thread, while the thread is not inside its loop. -/
def StepFine (cpu : Int) (s : System ρ τ) : Action ρ τ → Prop
  | .thread => True
  | .register counterCpu _ _ _ o => RegisterFine cpu s counterCpu o
  | .remove counterCpu read t => RemoveFine s.registry (.removeCall counterCpu read t)
  | .free => ∀ t, s.closing = some t → ¬ s.Holding cpu t
  | .fini => s.registry.Intact ∧ ¬ s.Inside

theorem Live.step (h : Live cpu s) (M : Memcpy) {action : Action ρ τ}
    (hfine : StepFine cpu s action) : ∃ s', s.step M cpu action = .ok s' ∧ Live cpu s' := by
  cases action with
  | thread => exact h.threadStep
  | register counterCpu read t usleepTime o => exact h.register read t usleepTime hfine
  | remove counterCpu read t => exact h.remove M hfine
  | free => exact ⟨_, rfl, h.free hfine⟩
  | fini => exact h.fini hfine.1 hfine.2

end ClientCalls

section Machines

/-- A counter is set up and closed while the thread sleeps, and the source is ended. -/
def quietRun : List (Action Nat Nat) :=
  [.register 0 7 1 30000000 allCreated, .thread, .thread, .thread, .thread, .thread, .thread,
    .thread, .thread, .remove 0 7 1, .free, .fini, .thread]

end Machines

end System

end OverflowThread
end X86Energy
