import X86Energy.OverflowThread.Failures

/-!
# What the 0 of a create means

A caller of `x86_energy_overflow_thread_create` hands in a `pthread_t` and a
`pthread_mutex_t` that nobody has written yet, and locks the mutex in every `do_read` once
it got a 0.  It gets one on three paths: without threads, because the rate is 0; with the
thread that the CPU has already; and with a new thread.  The result of `add_call` plays no
role on any of them, and the thread that the CPU has may be what a `pthread_create` that
failed left in its `thread_info`.
-/

namespace X86Energy
namespace OverflowThread

open Block
open Search (Verdict)

variable {ρ τ : Type}

/-- Every `thread_info` that can be loaded has an initialized mutex. -/
def OvStruct.Sound (ov : OvStruct ρ τ) : Prop :=
  ∀ i info, ov.loadInfo i = .ok info → info.mutex = .initialized

section Sound

variable {ov ov' : OvStruct ρ τ} {r r' : Registry ρ τ} {cpu usleepTime : Int}
  {info : ThreadInfo ρ τ} {i : Nat} {read : ρ} {t : τ} {o : CreateOutcome}

theorem OvStruct.Sound.storeInfo (h : ov.Sound) (hinfo : info.mutex = .initialized)
    {old : ThreadInfo ρ τ} (hload : ov.loadInfo i = .ok old) : (ov.storeInfo i info).Sound := by
  intro j x hx
  by_cases hij : i = j
  · subst hij
    rw [loadInfo_storeInfo hload] at hx
    cases hx
    exact hinfo
  · rw [loadInfo_storeInfo_ne hij] at hx
    exact h j x hx

theorem loadSlot_resize {α : Type} {block : List (Option α)} {n j : Nat} {x : α}
    (h : loadSlot (resize block n) j = .ok x) : loadSlot block j = .ok x := by
  rw [loadSlot_eq_ok] at h ⊢
  have hlt : j < n := by
    by_contra hge
    unfold resize at h
    rw [List.getElem?_append_right (by rw [List.length_take]; omega), List.getElem?_replicate] at h
    split at h
    · cases h
    · cases h
  exact (getElem?_resize_iff hlt).mp h

theorem OvStruct.Sound.addThreadInfo (h : ov.Sound) (cpu usleepTime : Int) (o : CreateOutcome) :
    (ov.addThreadInfo cpu usleepTime o).1.Sound := by
  cases hadd : ov.addThreadInfo cpu usleepTime o with
  | mk ov' b =>
      cases b with
      | true =>
          obtain rfl := addThreadInfo_ok hadd
          obtain ⟨hlast, hold⟩ := loadSlot_pushed (ov.threadInfos.getD []) ov.nrThreadInfos
            (⟨cpu, 0, .initialized, usleepTime, 0, [], []⟩ : ThreadInfo ρ τ)
          intro j x hx
          rcases Nat.lt_trichotomy j ov.nrThreadInfos with hlt | rfl | hgt
          · exact h j x ((hold j hlt x).mp hx)
          · have hsame := hlast.symm.trans hx
            cases hsame
            rfl
          · unfold OvStruct.loadInfo at hx
            rw [Option.getD_some, loadSlot_eq_ok, List.getElem?_eq_none] at hx
            · cases hx
            · rw [List.length_set, length_resize]
              exact hgt
      | false =>
          unfold OvStruct.addThreadInfo at hadd
          split at hadd
          · cases hadd
            exact h
          · dsimp only at hadd
            split at hadd <;> cases hadd
            exact fun j x hx => h j x (loadSlot_resize hx)

theorem OvStruct.Sound.ensureThreadInfo (h : ov.Sound) {b : Bool}
    (hensure : ov.ensureThreadInfo cpu usleepTime o = .ok (ov', b)) : ov'.Sound := by
  cases ensureThreadInfo_cases hensure with
  | absent _ hadd =>
      have hgrown := h.addThreadInfo cpu usleepTime o
      rwa [hadd] at hgrown
  | @slower _ found _ hload => exact h.storeInfo (h _ found hload) hload
  | present => exact h

theorem addCall_mutex (info : ThreadInfo ρ τ) (read : ρ) (t : τ) (o : CreateOutcome) :
    (info.addCall read t o).1.mutex = info.mutex := by
  unfold ThreadInfo.addCall
  split
  · rfl
  · dsimp only
    split <;> rfl

theorem sound_register (h : r.ov.Sound) {res : CreateResult}
    (hregister : r.register cpu read t o = .ok (r', res)) : r'.ov.Sound := by
  have hadded : ∀ {i : Nat} {info : ThreadInfo ρ τ}, r.ov.loadInfo i = .ok info →
      (info.addCall read t o).1.mutex = .initialized :=
    fun hload => (addCall_mutex _ read t o).trans (h _ _ hload)
  cases register_cases hregister with
  | running _ hload => exact h.storeInfo (hadded hload) hload
  | refused _ hload => exact h.storeInfo (hadded hload) hload
  | started _ hload => exact h.storeInfo (hadded hload) hload

theorem sound_create (h : r.ov.Sound) {res : CreateResult}
    (hcreate : r.create cpu read t usleepTime o = .ok (r', res)) : r'.ov.Sound := by
  cases create_cases hcreate with
  | forbidden => exact h
  | failed _ hensure => exact h.ensureThreadInfo hensure
  | @ensured _ ov _ _ hensure hregister =>
      have hov : ({ r with ov := ov } : Registry ρ τ).ov.Sound := h.ensureThreadInfo hensure
      exact sound_register hov hregister

variable [DecidableEq ρ] [DecidableEq τ]

theorem sound_removeCall (h : r.ov.Sound) {M : Memcpy}
    (hremove : r.removeCall M cpu read t = .ok r') : r'.ov.Sound := by
  cases removeCall_cases hremove with
  | absent => exact h
  | @present i info _ _ hload hinfo =>
      refine h.storeInfo ?_ hload
      unfold ThreadInfo.removeCall at hinfo
      split at hinfo <;> cases hinfo
      · exact h _ info hload
      · exact h _ info hload

/-- **In every reachable registry** each `thread_info` has its mutex. -/
theorem Registry.Reachable.sound {M : Memcpy} (h : Registry.Reachable M r) : r.ov.Sound := by
  refine h.invariant (I := fun r => r.ov.Sound) ?_ ?_ ?_ fun _ _ hsound => hsound
  · intro i info hload
    cases hload
  · exact fun _ _ _ _ _ _ _ _ hsound hcreate => sound_create hsound hcreate
  · exact fun _ _ _ _ _ hsound hremove => sound_removeCall hsound hremove

end Sound

namespace Registry

/-- The pair is in the call list of the CPU. -/
def HasCall (r : Registry ρ τ) (cpu : Int) (read : ρ) (t : τ) : Prop :=
  ∃ info, r.infoOf cpu = .ok info ∧ info.HasCall read t

/-- **What the caller gets with a 0**: an initialized mutex and, unless threads are
forbidden, the running thread of the CPU, which has the pair in its call list. -/
def Delivers (r' : Registry ρ τ) (cpu : Int) (read : ρ) (t : τ) (rate : Option Int)
    (res : CreateResult) : Prop :=
  ∃ thread mutex, res.outs = some (thread, mutex) ∧ mutex = .initialized ∧
    (rate ≠ some 0 → ∃ info, r'.infoOf cpu = .ok info ∧ info.HasCall read t ∧
      info.thread = thread ∧ r'.Started info)

end Registry

section Create

variable {ov : OvStruct ρ τ} {r r' : Registry ρ τ} {cpu usleepTime : Int} {read : ρ} {t : τ}
  {o : CreateOutcome} {res : CreateResult}

theorem addCall_hasCall (info : ThreadInfo ρ τ) (read : ρ) (t : τ) (o : CreateOutcome) :
    (info.addCall read t o).1.HasCall read t ↔
      (o.functions = true ∧ o.t = true) ∨ info.HasCall read t := by
  have hgrown : ∀ (functions : List (Option ρ)), (∀ i < info.nrFunctions,
      functions[i]? = some (some read) ↔ info.functions[i]? = some (some read)) →
      (({ info with functions := functions } : ThreadInfo ρ τ).HasCall read t ↔
        info.HasCall read t) := by
    intro functions h
    unfold ThreadInfo.HasCall
    constructor
    · rintro ⟨i, hi, hf, ht⟩
      exact ⟨i, hi, (h i hi).mp hf, ht⟩
    · rintro ⟨i, hi, hf, ht⟩
      exact ⟨i, hi, (h i hi).mpr hf, ht⟩
  unfold ThreadInfo.addCall
  cases hfunctions : o.functions with
  | false => simp
  | true =>
      cases ht : o.t with
      | false =>
          simpa using hgrown _ fun i hi => getElem?_resize_iff (by omega)
      | true =>
          refine iff_of_true ⟨info.nrFunctions, Nat.lt_succ_self _, ?_, ?_⟩ (.inl ⟨rfl, rfl⟩)
          · exact List.getElem?_set_self (by rw [length_resize]; exact Nat.lt_succ_self _)
          · exact List.getElem?_set_self (by rw [length_resize]; exact Nat.lt_succ_self _)

theorem sleepTime_eq_none {usleepTime : Int} :
    r.sleepTime usleepTime = none ↔ r.overrideUpdateRate = some 0 := by
  unfold Registry.sleepTime
  split
  · rename_i hrate
    simp [hrate]
  · rename_i rate hrate
    split
    · rename_i hzero
      simp [hrate, hzero]
    · rename_i hne
      simp [hrate, hne]

/-- The `thread_info` of the CPU after an update. -/
theorem infoOf_storeInfo {i : Nat} {info old : ThreadInfo ρ τ} {threads : List Int}
    (hfind : ov.getThreadInfo cpu = .ok (some (i, ()))) (hload : ov.loadInfo i = .ok old)
    (hcpu : info.cpu = old.cpu) (hthread : old.thread ≠ 0 → info.thread ≠ 0) :
    Registry.infoOf { r with ov := ov.storeInfo i info, threads := threads } cpu = .ok info := by
  unfold Registry.infoOf
  simp only [(within_storeInfo hload hcpu hthread).getThreadInfo hfind]
  exact loadInfo_storeInfo hload info

theorem started_iff_of_handle {info info' : ThreadInfo ρ τ} (hthreads : r'.threads = r.threads)
    (h : info'.handle = info.handle) : r'.Started info' ↔ r.Started info := by
  obtain ⟨hcpu, hthread⟩ := Prod.mk.inj h
  unfold Registry.Started
  rw [hthreads, hcpu, hthread]

variable (read t) in
/-- The first part of a create leaves a `thread_info` with the calls that the CPU had, and with
what it had as its thread. -/
theorem ensureThreadInfo_calls (hsized : r.ov.Sized)
    (hensure : r.ov.ensureThreadInfo cpu usleepTime o = .ok (ov, true)) :
    ∃ i info, ov.getThreadInfo cpu = .ok (some (i, ())) ∧ ov.loadInfo i = .ok info ∧
      (info.HasCall read t ↔ r.HasCall cpu read t) ∧
      (∀ old, r.infoOf cpu = .ok old → old.handle = info.handle) ∧
      (info.thread ≠ 0 → ∃ old, r.infoOf cpu = .ok old) := by
  have hwithin := within_ensureThreadInfo hensure
  unfold Registry.HasCall Registry.infoOf
  cases ensureThreadInfo_cases hensure with
  | absent hnone hadd =>
      obtain ⟨hfind, hload⟩ := getThreadInfo_addThreadInfo hsized hnone hadd
      rw [hnone]
      refine ⟨_, _, hfind, hload, iff_of_false ?_ ?_, nofun, fun hthread => absurd rfl hthread⟩
      · rintro ⟨i, hi, _⟩
        exact absurd hi (Nat.not_lt_zero i)
      · rintro ⟨info, hinfo, _⟩
        cases hinfo
  | @slower i info hfind hload =>
      simp only [hfind, hload, Except.ok.injEq, exists_eq_left', forall_eq']
      exact ⟨i, { info with usleepTime := usleepTime }, hwithin.getThreadInfo hfind,
        loadInfo_storeInfo hload _, Iff.rfl, rfl, fun _ => ⟨info, rfl⟩⟩
  | @present i info hfind hload =>
      refine ⟨i, info, hfind, hload, ?_⟩
      simp only [hfind, hload, Except.ok.injEq, exists_eq_left', forall_eq', true_and]
      exact fun _ => ⟨info, rfl⟩

/-- **The ways to return 0**: threads are forbidden, or there is a `thread_info` with the old
calls, on which `add_call` was tried, and its thread and mutex are handed out.  Nobody looks
whether what it had as its thread is one. -/
theorem create_succeeds (hsized : r.ov.Sized)
    (h : r.create cpu read t usleepTime o = .ok (r', res)) (hcode : res.code = 0) :
    (r.overrideUpdateRate = some 0 ∧ res.outs = none) ∨
      (r.overrideUpdateRate ≠ some 0 ∧ ∃ info, r'.infoOf cpu = .ok info ∧
        res.outs = some (info.thread, info.mutex) ∧
        (info.HasCall read t ↔
          (o.functions = true ∧ o.t = true) ∨ r.HasCall cpu read t) ∧
        (r'.Started info ↔ ∀ old, r.infoOf cpu = .ok old → old.thread ≠ 0 → r.Started old)) := by
  cases create_cases h with
  | forbidden hsleep => exact .inl ⟨sleepTime_eq_none.mp hsleep, rfl⟩
  | failed => cases hcode
  | @ensured _ ov _ hsleep hensure hregister =>
      have hrate : r.overrideUpdateRate ≠ some 0 := fun hzero => by
        rw [sleepTime_eq_none.mpr hzero] at hsleep
        cases hsleep
      obtain ⟨i, info, hfind, hload, hcalls, hsame, hold⟩ :=
        ensureThreadInfo_calls read t hsized hensure
      obtain ⟨hcpu, hthread⟩ := addCall_fields info read t o
      have hadded := (addCall_hasCall info read t o).trans (or_congr_right hcalls)
      refine .inr ⟨hrate, ?_⟩
      cases register_cases hregister with
      | running hfind' hload' hne =>
          cases hfind.symm.trans hfind'
          cases hload.symm.trans hload'
          refine ⟨_, infoOf_storeInfo hfind hload hcpu fun _ => hne, rfl, hadded, ?_⟩
          obtain ⟨old, hinfo⟩ := hold (hthread ▸ hne)
          have hhandle : (info.addCall read t o).1.handle = old.handle :=
            (Prod.ext hcpu hthread : (info.addCall read t o).1.handle = info.handle).trans
              (hsame old hinfo).symm
          refine (started_iff_of_handle (by rfl) hhandle).trans
            ⟨fun hstarted old' hinfo' _ => ?_, fun hall => hall old hinfo ?_⟩
          · cases hinfo.symm.trans hinfo'
            exact hstarted
          · exact (Prod.mk.inj hhandle).2 ▸ hne
      | refused => cases hcode
      | started hfind' hload' hzero =>
          cases hfind.symm.trans hfind'
          cases hload.symm.trans hload'
          refine ⟨_, infoOf_storeInfo hfind hload hcpu fun _ => Nat.succ_ne_zero _, rfl, hadded,
            iff_of_true ⟨Nat.succ_ne_zero _, ?_⟩ fun old hinfo hne => ?_⟩
          · simp [hcpu, cpu_of_getThreadInfo hfind hload]
          · have hthread' := (Prod.mk.inj (hsame old hinfo)).2
            exact absurd (hthread'.trans (hthread.symm.trans hzero)) hne

variable [DecidableEq ρ] [DecidableEq τ]

end Create

end OverflowThread
end X86Energy
