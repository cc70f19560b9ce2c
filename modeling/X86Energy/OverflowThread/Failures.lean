import X86Energy.OverflowThread.Calls

/-!
# What a failed create leaves behind

`x86_energy_overflow_thread_create` fails at three places.  Without memory for the array of
`thread_info`s nothing has happened yet.  Without memory for the `thread_info` itself it has
been counted already, and without a thread the `thread_info` and the pair stay.
-/

namespace X86Energy
namespace OverflowThread

open Block

variable {ρ τ : Type}

/-- The pair is in the arrays. -/
def ThreadInfo.HasCall (info : ThreadInfo ρ τ) (read : ρ) (t : τ) : Prop :=
  ∃ i < info.nrFunctions, info.functions[i]? = some (some read) ∧ info.t[i]? = some (some t)

namespace Registry

/-- `x86_energy_set_internal_update_thread_rate`. -/
def setUpdateRate (r : Registry ρ τ) (time : Int) : Registry ρ τ :=
  { r with overrideUpdateRate := some time }

/-- The registries that calls can make, with any outcomes. -/
inductive Reachable [DecidableEq ρ] [DecidableEq τ] (M : Memcpy) : Registry ρ τ → Prop
  | empty : Reachable M .empty
  | step {r r' : Registry ρ τ} (call : OvCall ρ τ) (h : Reachable M r)
      (hstep : r.step M call = .ok r') : Reachable M r'
  | setUpdateRate {r : Registry ρ τ} (time : Int) (h : Reachable M r) :
      Reachable M (r.setUpdateRate time)

/-- A thread was started for the `thread_info`. -/
def Started (r : Registry ρ τ) (info : ThreadInfo ρ τ) : Prop :=
  info.thread ≠ 0 ∧ r.threads[info.thread - 1]? = some info.cpu

/-- Every index refers to a `thread_info` with a thread. -/
def Intact (r : Registry ρ τ) : Prop :=
  ∀ i < r.ov.nrThreadInfos, ∃ info, r.ov.loadInfo i = .ok info ∧ r.Started info

/-- No `thread_info` has the pair. -/
def Without (r : Registry ρ τ) (read : ρ) (t : τ) : Prop :=
  ∀ i info, i < r.ov.nrThreadInfos → r.ov.loadInfo i = .ok info → ¬ info.HasCall read t

/-- **Nothing is left of a create**: the pair is not in the registry, every `thread_info` is
initialized and has its thread, and those of other CPUs are unchanged. -/
structure Undone (cpu : Int) (read : ρ) (t : τ) (r r' : Registry ρ τ) : Prop where
  without : r'.Without read t
  intact : r'.Intact
  others : OthersKept cpu r r'

end Registry

section Sizes

/-- The array has a slot for each counted `thread_info`. -/
def OvStruct.Sized (ov : OvStruct ρ τ) : Prop :=
  (ov.threadInfos.getD []).length = ov.nrThreadInfos

variable {ov ov' : OvStruct ρ τ} {r r' : Registry ρ τ}

theorem OvStruct.Sized.storeInfo (h : ov.Sized) (i : Nat) (info : ThreadInfo ρ τ) :
    (ov.storeInfo i info).Sized := by
  unfold Sized
  rw [infos_storeInfo, List.length_set, h]
  rfl

theorem OvStruct.Sized.addThreadInfo (h : ov.Sized) (cpu usleepTime : Int) (o : CreateOutcome) :
    (ov.addThreadInfo cpu usleepTime o).1.Sized := by
  have hgrown : (OvStruct.mk (ov.nrThreadInfos + 1)
      (some (resize (ov.threadInfos.getD []) (ov.nrThreadInfos + 1)))).Sized :=
    length_resize _ _
  unfold OvStruct.addThreadInfo
  split
  · exact h
  · dsimp only
    split
    · exact hgrown
    · exact hgrown.storeInfo _ _

theorem OvStruct.Sized.ensureThreadInfo (h : ov.Sized) {cpu usleepTime : Int} {o : CreateOutcome}
    {b : Bool} (hensure : ov.ensureThreadInfo cpu usleepTime o = .ok (ov', b)) : ov'.Sized := by
  cases ensureThreadInfo_cases hensure with
  | absent _ hadd =>
      have hgrown := h.addThreadInfo cpu usleepTime o
      rwa [hadd] at hgrown
  | slower => exact h.storeInfo _ _
  | present => exact h

theorem sized_register (h : r.ov.Sized) {cpu : Int} {read : ρ} {t : τ} {o : CreateOutcome}
    {res : CreateResult} (hregister : r.register cpu read t o = .ok (r', res)) : r'.ov.Sized := by
  cases register_cases hregister with
  | running => exact h.storeInfo _ _
  | refused => exact h.storeInfo _ _
  | started => exact h.storeInfo _ _

theorem sized_create (h : r.ov.Sized) {cpu : Int} {read : ρ} {t : τ} {usleepTime : Int}
    {o : CreateOutcome} {res : CreateResult}
    (hcreate : r.create cpu read t usleepTime o = .ok (r', res)) : r'.ov.Sized := by
  cases create_cases hcreate with
  | forbidden => exact h
  | failed _ hensure => exact h.ensureThreadInfo hensure
  | @ensured _ ov _ _ hensure hregister =>
      have hov : ({ r with ov := ov } : Registry ρ τ).ov.Sized := h.ensureThreadInfo hensure
      exact sized_register hov hregister

variable [DecidableEq ρ] [DecidableEq τ]

theorem sized_removeCall (h : r.ov.Sized) {M : Memcpy} {cpu : Int} {read : ρ} {t : τ}
    (hremove : r.removeCall M cpu read t = .ok r') : r'.ov.Sized := by
  cases removeCall_cases hremove with
  | absent => exact h
  | present => exact h.storeInfo _ _

/-- **What holds of every reachable registry**: something that the two calls keep and that does
not depend on the rate. -/
theorem Registry.Reachable.invariant {M : Memcpy} {I : Registry ρ τ → Prop} (hempty : I .empty)
    (hcreate : ∀ (r r' : Registry ρ τ) cpu read t usleepTime o res, I r →
      r.create cpu read t usleepTime o = .ok (r', res) → I r')
    (hremove : ∀ (r r' : Registry ρ τ) cpu read t, I r →
      r.removeCall M cpu read t = .ok r' → I r')
    (hrate : ∀ (r : Registry ρ τ) time, I r → I (r.setUpdateRate time))
    (h : Registry.Reachable M r) : I r := by
  induction h with
  | empty => exact hempty
  | step call _ hstep ih =>
      cases call with
      | create cpu read t usleepTime o =>
          obtain ⟨⟨r', res⟩, hcreated, rfl⟩ := Partial.map_eq_ok.mp hstep
          exact hcreate _ _ cpu read t usleepTime o res ih hcreated
      | removeCall cpu read t => exact hremove _ _ cpu read t ih hstep
  | setUpdateRate time _ ih => exact hrate _ time ih

/-- In every reachable registry the array has the counted size. -/
theorem Registry.Reachable.sized {M : Memcpy} (h : Registry.Reachable M r) : r.ov.Sized :=
  h.invariant (I := fun r => r.ov.Sized) rfl
    (fun _ _ _ _ _ _ _ _ hsized hcreate => sized_create hsized hcreate)
    (fun _ _ _ _ _ hsized hremove => sized_removeCall hsized hremove) fun _ _ hsized => hsized

end Sizes

section Infos

variable {ov ov' ov'' : OvStruct ρ τ} {r r' : Registry ρ τ} {cpu usleepTime : Int}
  {info : ThreadInfo ρ τ} {i : Nat} {read : ρ} {t : τ} {o : CreateOutcome}

theorem loadSlot_eq_ok {α : Type} {block : List (Option α)} {j : Nat} {x : α} :
    loadSlot block j = .ok x ↔ block[j]? = some (some x) := by
  unfold loadSlot
  split <;> simp_all

/-- The slot after an update of its `thread_info`. -/
theorem loadInfo_storeInfo {old : ThreadInfo ρ τ} (h : ov.loadInfo i = .ok old)
    (info : ThreadInfo ρ τ) : (ov.storeInfo i info).loadInfo i = .ok info := by
  have hlt : i < (ov.threadInfos.getD []).length :=
    (List.getElem?_eq_some_iff.mp (loadSlot_eq_ok.mp h)).1
  unfold OvStruct.loadInfo
  rw [loadSlot_eq_ok, OvStruct.infos_storeInfo, List.getElem?_set_self hlt]

theorem loadInfo_storeInfo_ne {j : Nat} (hij : i ≠ j) (info : ThreadInfo ρ τ) :
    (ov.storeInfo i info).loadInfo j = ov.loadInfo j := by
  unfold OvStruct.loadInfo loadSlot
  rw [OvStruct.infos_storeInfo, List.getElem?_set_ne hij]

/-- The index that `get_thread_info` returns is below the count. -/
theorem getThreadInfo_lt (h : ov.getThreadInfo cpu = .ok (some (i, ()))) :
    i < ov.nrThreadInfos := by
  unfold OvStruct.getThreadInfo at h
  split at h
  · cases h
  · exact List.mem_range.mp (Search.judge_of_search h).1

/-- What `get_thread_info` finds is of the CPU. -/
theorem cpu_of_getThreadInfo (h : ov.getThreadInfo cpu = .ok (some (i, ())))
    (hload : ov.loadInfo i = .ok info) : info.cpu = cpu := by
  unfold OvStruct.getThreadInfo at h
  split at h
  · cases h
  · rename_i infos hinfos
    have hjudge := (Search.judge_of_search h).2
    unfold OvStruct.loadInfo at hload
    rw [hinfos, Option.getD_some] at hload
    unfold OvStruct.judgeInfo at hjudge
    simp only [hload] at hjudge
    by_contra hne
    rw [if_neg hne] at hjudge
    cases hjudge

theorem judgeInfo_ne_stop (infos : List (Option (ThreadInfo ρ τ))) (cpu : Int) (j : Nat) :
    OvStruct.judgeInfo infos cpu j ≠ .ok .stop := by
  unfold OvStruct.judgeInfo
  split
  · simp
  · split <;> simp

/-- What `add_thread_info` leaves behind when it succeeds. -/
theorem addThreadInfo_ok (h : ov.addThreadInfo cpu usleepTime o = (ov', true)) :
    ov' = ⟨ov.nrThreadInfos + 1,
      some ((resize (ov.threadInfos.getD []) (ov.nrThreadInfos + 1)).set ov.nrThreadInfos
        (some ⟨cpu, 0, .initialized, usleepTime, 0, [], []⟩))⟩ := by
  unfold OvStruct.addThreadInfo at h
  split at h
  · cases h
  · dsimp only at h
    split at h
    · cases h
    · cases h
      rfl

/-- The slots of an array that grew by one. -/
theorem loadSlot_pushed {α : Type} (block : List (Option α)) (n : Nat) (x : α) :
    loadSlot ((resize block (n + 1)).set n (some x)) n = .ok x ∧
      ∀ j < n, ∀ y, loadSlot ((resize block (n + 1)).set n (some x)) j = .ok y ↔
        loadSlot block j = .ok y := by
  constructor
  · rw [loadSlot_eq_ok, List.getElem?_set_self]
    rw [length_resize]
    exact Nat.lt_succ_self n
  · intro j hj y
    rw [loadSlot_eq_ok, List.getElem?_set_ne (by omega), getElem?_resize_iff (by omega),
      loadSlot_eq_ok]

/-- `get_thread_info` passes over every `thread_info` when it finds none. -/
theorem judgeInfo_of_getThreadInfo_none (hsized : ov.Sized) (h : ov.getThreadInfo cpu = .ok none)
    {j : Nat} (hj : j < ov.nrThreadInfos) :
    ∃ info, ov.loadInfo j = .ok info ∧ info.cpu ≠ cpu := by
  unfold OvStruct.getThreadInfo at h
  split at h
  · rename_i hnone
    unfold OvStruct.Sized at hsized
    rw [hnone, Option.getD_none, List.length_nil] at hsized
    omega
  · rename_i infos hsome
    have hnext := Search.judge_of_search_none (fun a _ => judgeInfo_ne_stop infos cpu a) h j
      (List.mem_range.mpr hj)
    unfold OvStruct.judgeInfo at hnext
    split at hnext
    · cases hnext
    · rename_i info hload
      refine ⟨info, by unfold OvStruct.loadInfo; rw [hsome]; exact hload, fun hcpu => ?_⟩
      rw [if_pos hcpu] at hnext
      cases hnext

/-- The `thread_info` that `add_thread_info` appends is found. -/
theorem getThreadInfo_addThreadInfo (hsized : ov.Sized) (h : ov.getThreadInfo cpu = .ok none)
    (hadd : ov.addThreadInfo cpu usleepTime o = (ov', true)) :
    ov'.getThreadInfo cpu = .ok (some (ov.nrThreadInfos, ())) ∧
      ov'.loadInfo ov.nrThreadInfos = .ok ⟨cpu, 0, .initialized, usleepTime, 0, [], []⟩ := by
  obtain rfl := addThreadInfo_ok hadd
  obtain ⟨hlast, hold⟩ := loadSlot_pushed (ov.threadInfos.getD []) ov.nrThreadInfos
    (⟨cpu, 0, .initialized, usleepTime, 0, [], []⟩ : ThreadInfo ρ τ)
  refine ⟨?_, hlast⟩
  unfold OvStruct.getThreadInfo
  dsimp only
  rw [List.range_succ, Search.search_append_next, Search.search]
  · unfold OvStruct.judgeInfo
    simp only [hlast, if_true]
  · intro j hj
    have hlt := List.mem_range.mp hj
    obtain ⟨info, hload, hne⟩ := judgeInfo_of_getThreadInfo_none hsized h hlt
    unfold OvStruct.judgeInfo
    simp only [(hold j hlt info).mpr hload, if_neg hne]

/-- Every `thread_info` stays where it is: it keeps its CPU, and something as its thread. -/
def OvStruct.Within (ov ov' : OvStruct ρ τ) : Prop :=
  ov.nrThreadInfos ≤ ov'.nrThreadInfos ∧
    ∀ i < ov.nrThreadInfos, ∀ info, ov.loadInfo i = .ok info → ∃ info',
      ov'.loadInfo i = .ok info' ∧ info'.cpu = info.cpu ∧ (info.thread ≠ 0 → info'.thread ≠ 0)

theorem OvStruct.Within.refl (ov : OvStruct ρ τ) : ov.Within ov :=
  ⟨Nat.le_refl _, fun _ _ info hload => ⟨info, hload, rfl, id⟩⟩

theorem OvStruct.Within.trans (h : ov.Within ov') (h' : ov'.Within ov'') : ov.Within ov'' := by
  refine ⟨h.1.trans h'.1, fun i hi info hload => ?_⟩
  obtain ⟨info', hload', hcpu', hthread'⟩ := h.2 i hi info hload
  obtain ⟨info'', hload'', hcpu'', hthread''⟩ := h'.2 i (hi.trans_le h.1) info' hload'
  exact ⟨info'', hload'', hcpu''.trans hcpu', hthread'' ∘ hthread'⟩

theorem within_storeInfo {old : ThreadInfo ρ τ} (hload : ov.loadInfo i = .ok old)
    (hcpu : info.cpu = old.cpu) (hthread : old.thread ≠ 0 → info.thread ≠ 0) :
    ov.Within (ov.storeInfo i info) := by
  refine ⟨Nat.le_refl _, fun j _ x hx => ?_⟩
  by_cases hij : i = j
  · subst hij
    rw [hload] at hx
    cases hx
    exact ⟨info, loadInfo_storeInfo hload info, hcpu, hthread⟩
  · exact ⟨x, (loadInfo_storeInfo_ne hij info).trans hx, rfl, id⟩

theorem within_addThreadInfo (ov : OvStruct ρ τ) (cpu usleepTime : Int) (o : CreateOutcome) :
    ov.Within (ov.addThreadInfo cpu usleepTime o).1 := by
  unfold OvStruct.addThreadInfo
  split
  · exact .refl ov
  · dsimp only
    split
    · refine ⟨Nat.le_succ _, fun i hi info hload => ⟨info, ?_, rfl, id⟩⟩
      unfold OvStruct.loadInfo at hload ⊢
      rw [loadSlot_eq_ok] at hload ⊢
      exact (getElem?_resize_iff (Nat.lt_succ_of_lt hi)).mpr hload
    · refine ⟨Nat.le_succ _, fun i hi info hload => ⟨info, ?_, rfl, id⟩⟩
      exact ((loadSlot_pushed (ov.threadInfos.getD []) ov.nrThreadInfos _).2 i hi info).mpr hload

/-- The first part of a create moves no `thread_info`. -/
theorem within_ensureThreadInfo {b : Bool}
    (hensure : ov.ensureThreadInfo cpu usleepTime o = .ok (ov', b)) : ov.Within ov' := by
  cases ensureThreadInfo_cases hensure with
  | absent _ hadd =>
      have hgrown := within_addThreadInfo ov cpu usleepTime o
      rwa [hadd] at hgrown
  | slower _ hload => exact within_storeInfo hload rfl id
  | present => exact .refl ov

/-- `get_thread_info` keeps what it found. -/
theorem OvStruct.Within.getThreadInfo (h : ov.Within ov')
    (hfind : ov.getThreadInfo cpu = .ok (some (i, ()))) :
    ov'.getThreadInfo cpu = .ok (some (i, ())) := by
  unfold OvStruct.getThreadInfo at hfind ⊢
  cases hinfos : ov.threadInfos with
  | none =>
      rw [hinfos] at hfind
      cases hfind
  | some infos =>
      rw [hinfos] at hfind
      have hkeep : ∀ j ∈ List.range ov.nrThreadInfos, ∀ verdict,
          judgeInfo infos cpu j = .ok verdict →
          judgeInfo (ov'.threadInfos.getD []) cpu j = .ok verdict := by
        intro j hj verdict hverdict
        unfold judgeInfo at hverdict ⊢
        split at hverdict
        · cases hverdict
        · rename_i info hload
          obtain ⟨info', hload', hcpu, _⟩ := h.2 j (List.mem_range.mp hj) info (by
            unfold OvStruct.loadInfo
            rw [hinfos]
            exact hload)
          unfold OvStruct.loadInfo at hload'
          simp only [hload', hcpu]
          exact hverdict
      obtain ⟨n, hn⟩ := Nat.exists_eq_add_of_le h.1
      have hfound := Search.search_keep hfind hkeep
        ((List.range n).map (ov.nrThreadInfos + ·))
      rw [← List.range_add, ← hn] at hfound
      cases hinfos' : ov'.threadInfos with
      | none =>
          -- the entry that was found has to be in an array
          rw [hinfos'] at hfound
          have hjudge := (Search.judge_of_search hfound).2
          cases hjudge
      | some infos' =>
          rw [hinfos'] at hfound
          exact hfound

end Infos

section Running

variable {ov : OvStruct ρ τ} {r r' : Registry ρ τ} {cpu usleepTime : Int} {read : ρ} {t : τ}
  {o : CreateOutcome}

/-- The CPU of every thread that was started has a `thread_info` with a thread. -/
def Registry.Running (r : Registry ρ τ) : Prop :=
  ∀ cpu ∈ r.threads, ∃ i info, r.ov.getThreadInfo cpu = .ok (some (i, ())) ∧
    r.ov.loadInfo i = .ok info ∧ info.thread ≠ 0

theorem Registry.Running.within (h : r.Running) (hwithin : r.ov.Within ov) :
    ({ r with ov := ov } : Registry ρ τ).Running := by
  intro cpu hcpu
  obtain ⟨i, info, hfind, hload, hthread⟩ := h cpu hcpu
  obtain ⟨info', hload', _, hthread'⟩ := hwithin.2 i (getThreadInfo_lt hfind) info hload
  exact ⟨i, info', hwithin.getThreadInfo hfind, hload', hthread' hthread⟩

theorem running_register (h : r.Running) {res : CreateResult}
    (hregister : r.register cpu read t o = .ok (r', res)) : r'.Running := by
  cases register_cases hregister with
  | @running _ info _ hload =>
      obtain ⟨hcpu, hthread⟩ := addCall_fields info read t o
      exact h.within (within_storeInfo hload hcpu fun hne => hthread.trans_ne hne)
  | @refused _ info _ hload hzero =>
      obtain ⟨hcpu, hthread⟩ := addCall_fields info read t o
      exact h.within (within_storeInfo hload hcpu fun hne => absurd (hthread.symm.trans hzero) hne)
  | @started i info hfind hload =>
      obtain ⟨hcpu, _⟩ := addCall_fields info read t o
      have hwithin : r.ov.Within (r.ov.storeInfo i
          { (info.addCall read t o).1 with thread := r.threads.length + 1 }) :=
        within_storeInfo hload hcpu fun _ => Nat.succ_ne_zero _
      intro c hc
      rcases List.mem_append.mp hc with hc | hc
      · exact h.within hwithin c hc
      · obtain rfl := List.mem_singleton.mp hc
        exact ⟨i, _, hwithin.getThreadInfo hfind, loadInfo_storeInfo hload _, Nat.succ_ne_zero _⟩

theorem running_create (h : r.Running) {res : CreateResult}
    (hcreate : r.create cpu read t usleepTime o = .ok (r', res)) : r'.Running := by
  cases create_cases hcreate with
  | forbidden => exact h
  | failed _ hensure => exact h.within (within_ensureThreadInfo hensure)
  | ensured _ hensure hregister =>
      exact running_register (h.within (within_ensureThreadInfo hensure)) hregister

variable [DecidableEq ρ] [DecidableEq τ]

theorem running_removeCall (h : r.Running) {M : Memcpy}
    (hremove : r.removeCall M cpu read t = .ok r') : r'.Running := by
  cases removeCall_cases hremove with
  | absent => exact h
  | present _ hload hinfo =>
      obtain ⟨hcpu, hthread⟩ := Prod.mk.inj (removeCall_handle hinfo)
      exact h.within (within_storeInfo hload hcpu fun hne => hthread.trans_ne hne)

/-- In every reachable registry the threads that were started have their `thread_info`. -/
theorem Registry.Reachable.running {M : Memcpy} (h : Registry.Reachable M r) : r.Running :=
  h.invariant (I := Registry.Running) (fun _ hcpu => absurd hcpu List.not_mem_nil)
    (fun _ _ _ _ _ _ _ _ hrunning hcreate => running_create hrunning hcreate)
    (fun _ _ _ _ _ hrunning hremove => running_removeCall hrunning hremove)
    fun _ _ hrunning => hrunning

end Running

section Create

variable {ov ov' : OvStruct ρ τ} {r r' : Registry ρ τ} {cpu usleepTime : Int} {read : ρ} {t : τ}
  {o : CreateOutcome} {res : CreateResult}

/-- Without memory for the array, the first part finds a `thread_info` and changes its sleep
time at most. -/
theorem ensureThreadInfo_thread (hensure : ov.ensureThreadInfo cpu usleepTime o = .ok (ov', true))
    (hinfos : o.infos = false) {j : Nat} {info : ThreadInfo ρ τ} (hload : ov'.loadInfo j = .ok info) :
    ov'.nrThreadInfos = ov.nrThreadInfos ∧
      ∃ old, ov.loadInfo j = .ok old ∧ old.thread = info.thread := by
  cases ensureThreadInfo_cases hensure with
  | absent _ hadd =>
      unfold OvStruct.addThreadInfo at hadd
      rw [hinfos] at hadd
      cases hadd
  | @slower i found _ hfound =>
      refine ⟨rfl, ?_⟩
      by_cases hij : i = j
      · subst hij
        rw [loadInfo_storeInfo hfound] at hload
        cases hload
        exact ⟨found, hfound, rfl⟩
      · rw [loadInfo_storeInfo_ne hij] at hload
        exact ⟨info, hload, rfl⟩
  | present => exact ⟨rfl, info, hload, rfl⟩

/-- No array of `thread_info`s, no `thread_info`, or no thread. -/
inductive CreateFails (r : Registry ρ τ) (cpu : Int) (read : ρ) (t : τ) (o : CreateOutcome) :
    Registry ρ τ → Prop
  | infos (h : o.infos = false) : CreateFails r cpu read t o r
  | info (h : o.infos = true) : CreateFails r cpu read t o { r with ov :=
      { nrThreadInfos := r.ov.nrThreadInfos + 1
        threadInfos := some (resize (r.ov.threadInfos.getD []) (r.ov.nrThreadInfos + 1)) } }
  | thread (ov : OvStruct ρ τ) (i : Nat) (info : ThreadInfo ρ τ)
      (hwithin : r.ov.Within ov) (hfind : ov.getThreadInfo cpu = .ok (some (i, ())))
      (hload : ov.loadInfo i = .ok info) (hzero : info.thread = 0)
      (hbefore : o.infos = false → ¬ r.Intact) :
      CreateFails r cpu read t o
        { r with ov := ov.storeInfo i { (info.addCall read t o).1 with thread := o.leftover } }

theorem addThreadInfo_fails {b : OvStruct ρ τ} (h : r.ov.addThreadInfo cpu usleepTime o = (b, false)) :
    CreateFails r cpu read t o { r with ov := b } := by
  unfold OvStruct.addThreadInfo at h
  split at h
  · rename_i hinfos
    cases h
    exact .infos (by simpa using hinfos)
  · rename_i hinfos
    dsimp only at h
    split at h
    · cases h
      exact .info (by simpa using hinfos)
    · cases h

theorem register_fails (hensure : r.ov.ensureThreadInfo cpu usleepTime o = .ok (ov, true))
    (h : ({ r with ov := ov } : Registry ρ τ).register cpu read t o = .ok (r', res))
    (hcode : res.code = 1) : CreateFails r cpu read t o r' := by
  cases register_cases h with
  | running => cases hcode
  | @refused i info hfind hload hzero =>
      rw [(addCall_fields info read t o).2] at hzero
      refine .thread ov i info (within_ensureThreadInfo hensure) hfind hload hzero
        fun hinfos hintact => ?_
      obtain ⟨hnr, old, hold, hthread⟩ := ensureThreadInfo_thread hensure hinfos hload
      obtain ⟨old', hold', hstarted, _⟩ := hintact i (hnr ▸ getThreadInfo_lt hfind)
      rw [hold] at hold'
      cases hold'
      exact hstarted (hthread.trans hzero)
  | started => cases hcode

/-- **The ways to fail.** -/
theorem create_fails (h : r.create cpu read t usleepTime o = .ok (r', res))
    (hcode : res.code = 1) : CreateFails r cpu read t o r' := by
  cases create_cases h with
  | forbidden => cases hcode
  | failed _ hensure =>
      cases ensureThreadInfo_cases hensure with
      | absent _ hadd => exact addThreadInfo_fails hadd
  | ensured _ hensure hregister => exact register_fails hensure hregister hcode

/-- A `thread_info` that could not be allocated. -/
theorem not_intact_grown (h : r.ov.Sized) :
    ¬ ({ r with ov :=
      { nrThreadInfos := r.ov.nrThreadInfos + 1
        threadInfos := some (resize (r.ov.threadInfos.getD []) (r.ov.nrThreadInfos + 1)) } } :
      Registry ρ τ).Intact := by
  intro hintact
  obtain ⟨info, hload, _⟩ := hintact r.ov.nrThreadInfos (Nat.lt_succ_self _)
  have hslot := getElem?_resize (r.ov.threadInfos.getD [])
  rw [h] at hslot
  unfold OvStruct.loadInfo loadSlot at hload
  rw [Option.getD_some, hslot] at hload
  cases hload

/-- A `thread_info` whose thread did not start: no thread was started for the CPU before. -/
theorem not_intact_thread (hrunning : r.Running) (hwithin : r.ov.Within ov) {i : Nat}
    {info old : ThreadInfo ρ τ} (hfind : ov.getThreadInfo cpu = .ok (some (i, ())))
    (hload : ov.loadInfo i = .ok old) (hzero : old.thread = 0) (hcpu : info.cpu = old.cpu) :
    ¬ ({ r with ov := ov.storeInfo i info } : Registry ρ τ).Intact := by
  intro hintact
  have hlt : i < ov.nrThreadInfos := getThreadInfo_lt hfind
  obtain ⟨info', hload', _, hthread⟩ := hintact i hlt
  cases (loadInfo_storeInfo hload info).symm.trans hload'
  rw [hcpu, cpu_of_getThreadInfo hfind hload] at hthread
  obtain ⟨j, first, hfind', hfirst, hne⟩ := hrunning cpu (List.mem_of_getElem? hthread)
  cases hfind.symm.trans (hwithin.getThreadInfo hfind')
  obtain ⟨kept, hkept, _, hne'⟩ := hwithin.2 i (getThreadInfo_lt hfind') first hfirst
  cases hload.symm.trans hkept
  exact hne' hne hzero

variable [DecidableEq ρ] [DecidableEq τ]

/-- **A create that fails leaves nothing behind** exactly if the allocation that failed was
that of the array of `thread_info`s, in a registry that was whole before. -/
theorem create_undone_iff {M : Memcpy} (hreach : Registry.Reachable M r)
    (h : r.create cpu read t usleepTime o = .ok (r', res)) (hcode : res.code = 1) :
    Registry.Undone cpu read t r r' ↔ o.infos = false ∧ r.Intact ∧ r.Without read t := by
  cases create_fails h hcode with
  | infos hinfos =>
      constructor
      · exact fun hundone => ⟨hinfos, hundone.intact, hundone.without⟩
      · exact fun ⟨_, hintact, hwithout⟩ => ⟨hwithout, hintact, OthersKept.refl cpu r⟩
  | info hinfos =>
      constructor
      · exact fun hundone => absurd hundone.intact (not_intact_grown hreach.sized)
      · rintro ⟨hrefused, _⟩
        rw [hinfos] at hrefused
        cases hrefused
  | thread ov i info hwithin hfind hload hzero hbefore =>
      have hcpu : (info.addCall read t o).1.cpu = info.cpu := (addCall_fields info read t o).1
      constructor
      · exact fun hundone => absurd hundone.intact
          (not_intact_thread hreach.running hwithin hfind hload hzero hcpu)
      · exact fun ⟨hinfos, hintact, _⟩ => absurd hintact (hbefore hinfos)

end Create

section Machines

/-- The registry after one create. -/
def oneCounter : Registry Nat Nat where
  ov.nrThreadInfos := 1
  ov.threadInfos := some [some ⟨0, 1, .initialized, 30000000, 1, [some 7], [some 1]⟩]
  threads := [0]
  overrideUpdateRate := none

/-- A second CPU, for which there is no memory. -/
theorem create_undone_oneCounter :
    oneCounter.create 1 7 2 30000000 ⟨false, true, true, true, true, 0⟩ =
        .ok (oneCounter, ⟨1, none⟩) ∧
      Registry.Undone 1 7 2 oneCounter oneCounter := by
  have hreach : Registry.Reachable backwardMemcpy oneCounter :=
    .step (createCall 1) .empty rfl
  have hcreate : oneCounter.create 1 7 2 30000000 ⟨false, true, true, true, true, 0⟩ =
      .ok (oneCounter, ⟨1, none⟩) := rfl
  refine ⟨hcreate, (create_undone_iff hreach hcreate rfl).mpr ⟨rfl, fun i hi => ?_, ?_⟩⟩
  · obtain rfl : i = 0 := Nat.lt_one_iff.mp hi
    exact ⟨_, rfl, by decide, rfl⟩
  · rintro i info hi hload ⟨j, hj, _, ht⟩
    obtain rfl : i = 0 := Nat.lt_one_iff.mp hi
    cases hload
    obtain rfl : j = 0 := Nat.lt_one_iff.mp hj
    cases ht

/-- **A thread that does not start**: the create fails, and the pair stays in the arrays. -/
theorem not_create_undone_noThread :
    ¬ ∀ (M : Memcpy) (r r' : Registry Nat Nat) (cpu : Int) (read t : Nat) (usleepTime : Int)
      (o : CreateOutcome) (res : CreateResult), Registry.Reachable M r →
      r.create cpu read t usleepTime o = .ok (r', res) → res.code = 1 →
      Registry.Undone cpu read t r r' := by
  intro h
  have hundone := h backwardMemcpy .empty _ 0 7 1 30000000 ⟨true, true, true, true, false, 0⟩ _
    .empty rfl rfl
  exact hundone.without 0 _ Nat.zero_lt_one rfl ⟨0, Nat.zero_lt_one, rfl, rfl⟩

end Machines

end OverflowThread
end X86Energy
