import X86Energy.OverflowThread.CreateSuccess

/-!
# A registry that is used again

`x86_energy_overflow_freeall` frees the array of `thread_info`s and forgets it, but not how
many it had.  An `ov_struct` without an array is empty for `get_thread_info`, `killall` and
`freeall`, while `add_thread_info` counts on from the old number: then the first entries of
the new array are never written.

`freeall_empties_iff` says when a freed registry cannot be told from a new one.
-/

namespace X86Energy
namespace OverflowThread

open Block

variable {ρ τ : Type}

/-- A call on a registry. -/
inductive RegistryCall (ρ τ : Type)
  | create (cpu : Int) (read : ρ) (t : τ) (usleepTime : Int) (outcome : CreateOutcome)
  | removeCall (cpu : Int) (read : ρ) (t : τ)
  | killall
  | freeall

/-- What a call returns. -/
inductive CallResult
  | created (result : CreateResult)
  | cancelled (cpus : List Int)
  | done

/-- Every index below the count refers to a `thread_info`. -/
def OvStruct.Initialised (ov : OvStruct ρ τ) : Prop :=
  ∀ i < ov.nrThreadInfos, ∃ info, ov.loadInfo i = .ok info

namespace Registry

/-- The registry with a zeroed `ov_struct`. -/
def zeroed (r : Registry ρ τ) : Registry ρ τ := { r with ov := ⟨0, none⟩ }

section Perform

variable [DecidableEq ρ] [DecidableEq τ] (M : Memcpy)

/-- One call with its result. -/
def perform (r : Registry ρ τ) : RegistryCall ρ τ → Except OvFault (Registry ρ τ × CallResult)
  | .create cpu read t usleepTime o =>
      (r.create cpu read t usleepTime o).map fun created => (created.1, .created created.2)
  | .removeCall cpu read t => (r.removeCall M cpu read t).map fun r' => (r', .done)
  | .killall => r.killall.map fun cpus => (r, .cancelled cpus)
  | .freeall => r.freeall.map fun r' => (r', .done)

/-- One call, which appends its result to those before. -/
def performStep (s : Registry ρ τ × List CallResult) (call : RegistryCall ρ τ) :
    Except OvFault (Registry ρ τ × List CallResult) :=
  (s.1.perform M call).map fun performed => (performed.1, s.2 ++ [performed.2])

/-- **Nobody can tell the registry from one with a zeroed `ov_struct`** by these calls: after
each of them the results and the registered pairs are the same, and every index below the
count refers to a `thread_info`. -/
def ActsEmpty (r : Registry ρ τ) (calls : List (RegistryCall ρ τ)) : Prop :=
  ∀ before, before <+: calls →
    (Transition.run (performStep M) (r, []) before).map Prod.snd =
        (Transition.run (performStep M) (r.zeroed, []) before).map Prod.snd ∧
      ∀ s, Transition.run (performStep M) (r, []) before = .ok s →
        s.1.ov.Initialised ∧
          ∀ z, Transition.run (performStep M) (r.zeroed, []) before = .ok z →
            ∀ cpu read t, s.1.HasCall cpu read t ↔ z.1.HasCall cpu read t

/-- `freeall` leaves a registry that acts empty. -/
def FreeallEmpties (r : Registry ρ τ) (calls : List (RegistryCall ρ τ)) : Prop :=
  ∃ freed, r.freeall = .ok freed ∧ freed.ActsEmpty M calls

end Perform

/-- The calls that leave no index without a `thread_info`: a `freeall` only while there is
none, and no create that gets the longer array but not the `thread_info`. -/
def KeepsInitialised (s : Registry ρ τ × List CallResult) : RegistryCall ρ τ → Prop
  | .create cpu _ _ usleepTime o =>
      (s.1.sleepTime usleepTime).isSome = true → s.1.ov.getThreadInfo cpu = .ok none →
        o.infos = true → o.info = true
  | .freeall => s.1.ov.nrThreadInfos = 0
  | .removeCall _ _ _ => True
  | .killall => True

end Registry

section Initialised

variable {ov ov' : OvStruct ρ τ} {r r' : Registry ρ τ}

theorem OvStruct.Initialised.storeInfo (h : ov.Initialised) {i : Nat} {old : ThreadInfo ρ τ}
    (hload : ov.loadInfo i = .ok old) (info : ThreadInfo ρ τ) :
    (ov.storeInfo i info).Initialised := by
  intro j hj
  by_cases hij : i = j
  · subst hij
    exact ⟨info, loadInfo_storeInfo hload info⟩
  · obtain ⟨kept, hkept⟩ := h j hj
    exact ⟨kept, (loadInfo_storeInfo_ne hij info).trans hkept⟩

/-- A `thread_info` more. -/
theorem OvStruct.Initialised.addThreadInfo (h : ov.Initialised) (cpu usleepTime : Int)
    {o : CreateOutcome} (ho : o.infos = true → o.info = true) :
    (ov.addThreadInfo cpu usleepTime o).1.Initialised := by
  cases hadd : ov.addThreadInfo cpu usleepTime o with
  | mk ov' added =>
      cases added with
      | true =>
          obtain rfl := addThreadInfo_ok hadd
          obtain ⟨hlast, hold⟩ := loadSlot_pushed (ov.threadInfos.getD []) ov.nrThreadInfos
            (⟨cpu, 0, .initialized, usleepTime, 0, [], []⟩ : ThreadInfo ρ τ)
          intro i hi
          by_cases hlt : i < ov.nrThreadInfos
          · obtain ⟨info, hload⟩ := h i hlt
            exact ⟨info, (hold i hlt info).mpr hload⟩
          · obtain rfl : i = ov.nrThreadInfos := by
              change i < ov.nrThreadInfos + 1 at hi
              omega
            exact ⟨_, hlast⟩
      | false =>
          unfold OvStruct.addThreadInfo at hadd
          split at hadd
          · cases hadd
            exact h
          · rename_i hinfos
            have hinfo := ho (by simpa using hinfos)
            rw [hinfo] at hadd
            cases hadd

theorem OvStruct.Initialised.ensureThreadInfo (h : ov.Initialised) {cpu usleepTime : Int}
    {o : CreateOutcome} {b : Bool}
    (ho : ov.getThreadInfo cpu = .ok none → o.infos = true → o.info = true)
    (hensure : ov.ensureThreadInfo cpu usleepTime o = .ok (ov', b)) : ov'.Initialised := by
  cases ensureThreadInfo_cases hensure with
  | absent hnone hadd =>
      have hgrown := h.addThreadInfo cpu usleepTime (ho hnone)
      rwa [hadd] at hgrown
  | slower _ hload => exact h.storeInfo hload _
  | present => exact h

theorem initialised_register (h : r.ov.Initialised) {cpu : Int} {read : ρ} {t : τ}
    {o : CreateOutcome} {res : CreateResult}
    (hregister : r.register cpu read t o = .ok (r', res)) : r'.ov.Initialised := by
  cases register_cases hregister with
  | running _ hload => exact h.storeInfo hload _
  | refused _ hload => exact h.storeInfo hload _
  | started _ hload => exact h.storeInfo hload _

theorem initialised_create (h : r.ov.Initialised) {cpu : Int} {read : ρ} {t : τ}
    {usleepTime : Int} {o : CreateOutcome} {res : CreateResult}
    (ho : (r.sleepTime usleepTime).isSome = true → r.ov.getThreadInfo cpu = .ok none →
      o.infos = true → o.info = true)
    (hcreate : r.create cpu read t usleepTime o = .ok (r', res)) : r'.ov.Initialised := by
  cases create_cases hcreate with
  | forbidden => exact h
  | failed htime hensure => exact h.ensureThreadInfo (ho (by rw [htime]; rfl)) hensure
  | @ensured _ ov _ htime hensure hregister =>
      have hov : ({ r with ov := ov } : Registry ρ τ).ov.Initialised :=
        h.ensureThreadInfo (ho (by rw [htime]; rfl)) hensure
      exact initialised_register hov hregister

variable [DecidableEq ρ] [DecidableEq τ]

theorem initialised_removeCall (h : r.ov.Initialised) {M : Memcpy} {cpu : Int} {read : ρ} {t : τ}
    (hremove : r.removeCall M cpu read t = .ok r') : r'.ov.Initialised := by
  cases removeCall_cases hremove with
  | absent => exact h
  | present _ hload => exact h.storeInfo hload _

end Initialised

section Freed

variable {r freed : Registry ρ τ}

/-- What `freeall` leaves. -/
theorem freeall_eq (h : r.freeall = .ok freed) :
    freed = { r with ov := ⟨r.ov.nrThreadInfos, none⟩ } := by
  unfold Registry.freeall at h
  split at h
  · rename_i hnone
    cases h
    rw [← hnone]
  · rename_i infos _
    cases hload : (List.range r.ov.nrThreadInfos).mapM (loadSlot infos) with
    | error e =>
        rw [hload] at h
        cases h
    | ok loaded =>
        rw [hload] at h
        cases h
        rfl

theorem OvStruct.initialised_iff_of_none {ov : OvStruct ρ τ} (h : ov.threadInfos = none) :
    ov.Initialised ↔ ov.nrThreadInfos = 0 := by
  constructor
  · intro hall
    by_contra hpos
    obtain ⟨info, hload⟩ := hall 0 (Nat.pos_of_ne_zero hpos)
    unfold OvStruct.loadInfo at hload
    rw [h] at hload
    cases hload
  · intro hzero i hi
    rw [hzero] at hi
    exact absurd hi (Nat.not_lt_zero i)

/-- `freeall` is defined where every index refers to a `thread_info`. -/
theorem exists_freeall (h : r.ov.Initialised) : ∃ freed, r.freeall = .ok freed := by
  unfold Registry.freeall
  split
  · exact ⟨r, rfl⟩
  · rename_i infos hinfos
    obtain ⟨loaded, hloaded⟩ := Partial.exists_mapM_ok (f := loadSlot infos)
      (l := List.range r.ov.nrThreadInfos) fun i hi => by
        obtain ⟨info, hload⟩ := h i (List.mem_range.mp hi)
        refine ⟨info, ?_⟩
        unfold OvStruct.loadInfo at hload
        rwa [hinfos, Option.getD_some] at hload
    rw [hloaded]
    exact ⟨_, rfl⟩

/-- **Freeing leaves a zeroed `ov_struct`** if there was nothing to free. -/
theorem freeall_zeroed (h : r.ov.nrThreadInfos = 0) : r.freeall = .ok r.zeroed := by
  obtain ⟨freed, hfreed⟩ := exists_freeall (r := r) fun i hi => by
    rw [h] at hi
    exact absurd hi (Nat.not_lt_zero i)
  rw [hfreed, freeall_eq hfreed, h]
  rfl

/-- A create that gets the longer array but not the `thread_info` leaves the last index without
one. -/
theorem create_not_initialised (hsized : r.ov.Sized) {cpu : Int} (read : ρ) (t : τ)
    {usleepTime : Int} {o : CreateOutcome}
    (htime : (r.sleepTime usleepTime).isSome = true) (hnone : r.ov.getThreadInfo cpu = .ok none)
    (hinfos : o.infos = true) (hinfo : o.info = false) :
    ∃ r' res, r.create cpu read t usleepTime o = .ok (r', res) ∧ ¬ r'.ov.Initialised := by
  obtain ⟨time, htime⟩ := Option.isSome_iff_exists.mp htime
  let grown : OvStruct ρ τ :=
    ⟨r.ov.nrThreadInfos + 1, some (resize (r.ov.threadInfos.getD []) (r.ov.nrThreadInfos + 1))⟩
  have hensure : r.ov.ensureThreadInfo cpu time o = .ok (grown, false) := by
    unfold OvStruct.ensureThreadInfo OvStruct.addThreadInfo
    rw [hnone, hinfos, hinfo]
    rfl
  have hcreate : r.create cpu read t usleepTime o = .ok ({ r with ov := grown }, ⟨1, none⟩) := by
    unfold Registry.create
    rw [htime]
    simp only [hensure]
  refine ⟨_, _, hcreate, fun hall => ?_⟩
  obtain ⟨info, hload⟩ := hall r.ov.nrThreadInfos (Nat.lt_succ_self _)
  have hget := loadSlot_eq_ok.mp hload
  have hlast := getElem?_resize (r.ov.threadInfos.getD [])
  rw [hsized] at hlast
  rw [Option.getD_some, hlast] at hget
  cases hget

variable [DecidableEq ρ] [DecidableEq τ] {M : Memcpy} {s s' : Registry ρ τ × List CallResult}
  {call : RegistryCall ρ τ}

/-- **A call that keeps the indices** keeps them initialised and the array sized. -/
theorem performStep_initialised (hsized : s.1.ov.Sized) (h : s.1.ov.Initialised)
    (hkeeps : Registry.KeepsInitialised s call) (hstep : Registry.performStep M s call = .ok s') :
    s'.1.ov.Sized ∧ s'.1.ov.Initialised := by
  obtain ⟨performed, hperform, rfl⟩ := Partial.map_eq_ok.mp hstep
  cases call with
  | create cpu read t usleepTime o =>
      obtain ⟨created, hcreate, rfl⟩ := Partial.map_eq_ok.mp hperform
      exact ⟨sized_create hsized hcreate, initialised_create h hkeeps hcreate⟩
  | removeCall cpu read t =>
      obtain ⟨removed, hremove, rfl⟩ := Partial.map_eq_ok.mp hperform
      exact ⟨sized_removeCall hsized hremove, initialised_removeCall h hremove⟩
  | killall =>
      obtain ⟨cpus, _, rfl⟩ := Partial.map_eq_ok.mp hperform
      exact ⟨hsized, h⟩
  | freeall =>
      obtain ⟨freed, hfreed, rfl⟩ := Partial.map_eq_ok.mp hperform
      obtain rfl : s.1.zeroed = freed := Except.ok.inj ((freeall_zeroed hkeeps).symm.trans hfreed)
      exact ⟨rfl, fun i hi => absurd hi (Nat.not_lt_zero i)⟩

/-- **A call that does not keep the indices** leaves one that refers to nothing. -/
theorem performStep_not_initialised (hsized : s.1.ov.Sized) (h : s.1.ov.Initialised)
    (hnot : ¬ Registry.KeepsInitialised s call) :
    ∃ s', Registry.performStep M s call = .ok s' ∧ ¬ s'.1.ov.Initialised := by
  cases call with
  | create cpu read t usleepTime o =>
      unfold Registry.KeepsInitialised at hnot
      simp only [Classical.not_imp, Bool.not_eq_true] at hnot
      obtain ⟨htime, hnone, hinfos, hinfo⟩ := hnot
      obtain ⟨r', res, hcreate, hout⟩ := create_not_initialised hsized read t htime
        hnone hinfos hinfo
      refine ⟨(r', s.2 ++ [.created res]), ?_, hout⟩
      unfold Registry.performStep Registry.perform
      simp only [hcreate]
      rfl
  | freeall =>
      obtain ⟨freed, hfreed⟩ := exists_freeall h
      refine ⟨(freed, s.2 ++ [.done]), ?_, ?_⟩
      · unfold Registry.performStep Registry.perform
        simp only [hfreed]
        rfl
      · rw [freeall_eq hfreed, OvStruct.initialised_iff_of_none rfl]
        exact hnot
  | removeCall cpu read t => exact absurd trivial hnot
  | killall => exact absurd trivial hnot

/-- **`freeall` empties a registry exactly if** it had no `thread_info`, and by calls among which
no later `freeall` finds one and no create fails between its two allocations. -/
theorem freeall_empties_iff (M : Memcpy) (r : Registry ρ τ) (calls : List (RegistryCall ρ τ)) :
    r.FreeallEmpties M calls ↔ r.ov.nrThreadInfos = 0 ∧
      Transition.Meets (Registry.performStep M) Registry.KeepsInitialised (r.zeroed, []) calls := by
  have hmeets : Transition.Meets (Registry.performStep M) Registry.KeepsInitialised
      (r.zeroed, []) calls ↔ ∀ before, before <+: calls → ∀ s,
        Transition.run (Registry.performStep M) (r.zeroed, []) before = .ok s →
          s.1.ov.Initialised :=
    Transition.Meets.iff_forall_before (I := fun s => s.1.ov.Sized ∧ s.1.ov.Initialised)
      (P := fun s => s.1.ov.Initialised)
      (fun _ _ _ hs hkeeps hstep => performStep_initialised hs.1 hs.2 hkeeps hstep)
      (fun _ _ hs hnot => performStep_not_initialised hs.1 hs.2 hnot) (fun _ hs => hs.2)
      ⟨rfl, fun i hi => absurd hi (Nat.not_lt_zero i)⟩
  constructor
  · rintro ⟨freed, hfreed, hacts⟩
    have hfirst := ((hacts [] (List.nil_prefix)).2 (freed, []) rfl).1
    rw [freeall_eq hfreed, OvStruct.initialised_iff_of_none rfl] at hfirst
    have hzero : r.ov.nrThreadInfos = 0 := hfirst
    obtain rfl : r.zeroed = freed := Except.ok.inj ((freeall_zeroed hzero).symm.trans hfreed)
    exact ⟨hzero, hmeets.mpr fun before hbefore s hrun => ((hacts before hbefore).2 s hrun).1⟩
  · rintro ⟨hzero, hkeeps⟩
    refine ⟨r.zeroed, freeall_zeroed hzero, fun before hbefore => ⟨rfl, fun s hrun => ?_⟩⟩
    refine ⟨hmeets.mp hkeeps before hbefore s hrun, fun z hz cpu read t => ?_⟩
    obtain rfl : s = z := Except.ok.inj (hrun.symm.trans hz)
    exact Iff.rfl

end Freed

section Machines

/-- **A create after `freeall`** reads the first entry of the new array, which nothing wrote. -/
theorem not_freeall_empties_oneCounter :
    Registry.Reachable backwardMemcpy oneCounter ∧
      ¬ oneCounter.FreeallEmpties backwardMemcpy [.create 0 7 2 30000000 allCreated] := by
  refine ⟨.step (createCall 1) .empty rfl, ?_⟩
  rintro ⟨freed, hfreed, hacts⟩
  cases hfreed
  have hsame := (hacts _ List.prefix_rfl).1
  cases hsame

end Machines

end OverflowThread
end X86Energy
