import Mathlib.Data.List.InsertIdx
import Mathlib.Data.List.Nodup
import Mathlib.Logic.Function.Basic
import X86Energy.Library.Partial
import X86Energy.Library.Transition
import X86Energy.OverflowThread.Registry

/-!
# The calls that the registry holds

The purpose of the registry is a list of pairs for each CPU: a create appends one, and a
removal takes out the first equal one (`Entries.step`).

Every call does this to the arrays of a `thread_info` as long as a removal moves one pair
at most.  With more behind it, the ranges of its `memcpy` overlap.
-/

namespace X86Energy
namespace OverflowThread

open Block
open Search (Verdict)

variable {ρ τ : Type}

/-- The pairs that were created for each CPU and not removed. -/
abbrev Entries (ρ τ : Type) : Type := Int → List (ρ × τ)

/-- The CPU of a call. -/
def OvCall.cpu : OvCall ρ τ → Int
  | create cpu _ _ _ _ => cpu
  | removeCall cpu _ _ => cpu

/-- All allocations of the call succeed, and its thread starts. -/
def OvCall.Succeeds : OvCall ρ τ → Prop
  | create _ _ _ _ o => o.infos ∧ o.info ∧ o.functions ∧ o.t ∧ o.thread
  | removeCall _ _ _ => True

/-- What a call does to the pairs. -/
def Entries.step [DecidableEq ρ] [DecidableEq τ] (m : Entries ρ τ) : OvCall ρ τ → Entries ρ τ
  | .create cpu read t _ _ => Function.update m cpu (m cpu ++ [(read, t)])
  | .removeCall cpu read t => Function.update m cpu ((m cpu).erase (read, t))

section Info

/-- The parallel arrays contain the pairs, in this order. -/
structure ThreadInfo.Lists (info : ThreadInfo ρ τ) (calls : List (ρ × τ)) : Prop where
  nr : info.nrFunctions = calls.length
  functions : Holds info.functions (calls.map Prod.fst)
  t : Holds info.t (calls.map Prod.snd)

theorem loadSlot_of_holds {α : Type} {block : List (Option α)} {l : List α} (h : Holds block l)
    {i : Nat} (hi : i < l.length) : loadSlot block i = .ok l[i] := by
  unfold loadSlot
  rw [h.get hi]

namespace ThreadInfo

variable {info : ThreadInfo ρ τ} {calls : List (ρ × τ)}

/-- `add_call` appends a pair. -/
theorem Lists.addCall (h : info.Lists calls) (read : ρ) (t : τ) {o : CreateOutcome}
    (hfunctions : o.functions = true) (ht : o.t = true) :
    (info.addCall read t o).1.Lists (calls ++ [(read, t)]) := by
  have hpush := h.functions.push read
  have hpusht := h.t.push t
  rw [List.length_map, ← h.nr] at hpush hpusht
  unfold ThreadInfo.addCall
  rw [hfunctions, ht]
  refine ⟨?_, ?_, ?_⟩
  · change info.nrFunctions + 1 = _
    rw [h.nr, List.length_append, List.length_singleton]
  · rw [List.map_append]
    exact hpush
  · rw [List.map_append]
    exact hpusht

variable [DecidableEq ρ] [DecidableEq τ]

theorem Lists.judgeCall (h : info.Lists calls) (read : ρ) (t : τ) {i : Nat}
    (hi : i < calls.length) :
    info.judgeCall read t i = .ok (if calls[i] == (read, t) then .found () else .next) := by
  have hf := loadSlot_of_holds h.functions (i := i) (by rwa [List.length_map])
  have ht := loadSlot_of_holds h.t (i := i) (by rwa [List.length_map])
  rw [List.getElem_map] at hf ht
  unfold ThreadInfo.judgeCall
  rw [hf, ht]
  by_cases hread : calls[i].1 = read
  · by_cases hcounter : calls[i].2 = t
    · simp [hread, hcounter, Prod.ext_iff]
    · simp [hread, hcounter, Prod.ext_iff]
  · simp [hread, Prod.ext_iff]

/-- The loop finds the first equal pair. -/
theorem Lists.findCall (h : info.Lists calls) (read : ρ) (t : τ) :
    info.findCall read t = .ok ((calls.idxOf? (read, t)).map fun i => (i, ())) := by
  unfold ThreadInfo.findCall
  rw [h.nr]
  exact Search.search_range fun i hi => h.judgeCall read t hi

/-- A removal without an equal pair. -/
theorem Lists.removeCall_absent (h : info.Lists calls) {read : ρ} {t : τ}
    (habsent : (read, t) ∉ calls) (M : Memcpy) : info.removeCall M read t = .ok info := by
  unfold ThreadInfo.removeCall
  rw [h.findCall, List.idxOf?_eq_none_iff.mpr habsent]
  rfl

/-- **A removal takes out the first equal pair** if there is at most one behind it. -/
theorem Lists.removeCall (h : info.Lists calls) (M : Memcpy) (read : ρ) (t : τ)
    (hlast : ∀ i, calls.idxOf? (read, t) = some i → calls.length ≤ i + 2) :
    ∃ info', info.removeCall M read t = .ok info' ∧ info'.Lists (calls.erase (read, t)) ∧
      info'.cpu = info.cpu ∧ info'.thread = info.thread := by
  unfold ThreadInfo.removeCall
  rw [h.findCall, List.erase_eq_eraseIdx]
  cases hidx : calls.idxOf? (read, t) with
  | none => exact ⟨info, rfl, h, rfl, rfl⟩
  | some i =>
      obtain ⟨hi, _⟩ := List.findIdx?_eq_some_iff_getElem.mp hidx
      have hlen := hlast i hidx
      have hf := M.holds_eraseIdx h.functions (i := i) (by rwa [List.length_map])
        (by rwa [List.length_map])
      have ht := M.holds_eraseIdx h.t (i := i) (by rwa [List.length_map])
        (by rwa [List.length_map])
      rw [List.length_map, ← h.nr, List.eraseIdx_map] at hf ht
      refine ⟨_, rfl, ⟨?_, hf, ht⟩, rfl, rfl⟩
      change info.nrFunctions - 1 = _
      rw [h.nr, List.length_eraseIdx_of_lt hi]

/-- After a removal a pair of slots is as it was, or as those of a listed pair were. -/
theorem Lists.removeCall_slots (h : info.Lists calls) (M : Memcpy) {read : ρ} {t : τ}
    (hlast : ∀ i, calls.idxOf? (read, t) = some i → calls.length ≤ i + 2)
    {info' : ThreadInfo ρ τ} (hremove : info.removeCall M read t = .ok info') (j : Nat) :
    ∃ j', (j' = j ∨ j' < calls.length) ∧ info'.functions[j]? = info.functions[j']? ∧
      info'.t[j]? = info.t[j']? := by
  unfold ThreadInfo.removeCall at hremove
  rw [h.findCall] at hremove
  cases hidx : calls.idxOf? (read, t) with
  | none =>
      rw [hidx] at hremove
      cases hremove
      exact ⟨j, .inl rfl, rfl, rfl⟩
  | some i =>
      obtain ⟨hi, _⟩ := List.findIdx?_eq_some_iff_getElem.mp hidx
      have hf := h.functions.length_le
      have ht := h.t.length_le
      rw [List.length_map] at hf ht
      rw [hidx] at hremove
      cases hremove
      rw [h.nr]
      refine ⟨_, ?_, M.getElem?_shift hi hf (hlast i hidx) j, M.getElem?_shift hi ht (hlast i hidx) j⟩
      split
      · exact .inr (by omega)
      · exact .inl rfl

end ThreadInfo

end Info

section Infos

variable {ov : OvStruct ρ τ} {infos : List (ThreadInfo ρ τ)}

/-- The `thread_info`s of an `ov_struct`. -/
structure OvStruct.Has (ov : OvStruct ρ τ) (infos : List (ThreadInfo ρ τ)) : Prop where
  nr : ov.nrThreadInfos = infos.length
  holds : Holds (ov.threadInfos.getD []) infos

namespace OvStruct

/-- `get_thread_info` finds the first `thread_info` of the CPU. -/
theorem Has.getThreadInfo (h : ov.Has infos) (cpu : Int) :
    ov.getThreadInfo cpu =
      .ok ((infos.findIdx? fun info => info.cpu = cpu).map fun i => (i, ())) := by
  have hholds := h.holds
  unfold OvStruct.getThreadInfo
  cases hinfos : ov.threadInfos with
  | none =>
      rw [hinfos] at hholds
      have hnil : infos = [] := List.eq_nil_of_length_eq_zero (Nat.le_zero.mp hholds.length_le)
      rw [hnil]
      rfl
  | some block =>
      rw [hinfos] at hholds
      simp only [h.nr]
      refine Search.search_range fun i hi => ?_
      have hload : loadSlot block i = .ok infos[i] := loadSlot_of_holds hholds hi
      unfold judgeInfo
      rw [hload]
      simp

theorem Has.loadInfo (h : ov.Has infos) {i : Nat} (hi : i < infos.length) :
    ov.loadInfo i = .ok infos[i] := loadSlot_of_holds h.holds hi

theorem infos_storeInfo (ov : OvStruct ρ τ) (i : Nat) (info : ThreadInfo ρ τ) :
    (ov.storeInfo i info).threadInfos.getD [] = (ov.threadInfos.getD []).set i (some info) := by
  unfold OvStruct.storeInfo
  cases ov.threadInfos <;> rfl

theorem Has.storeInfo (h : ov.Has infos) {i : Nat} (hi : i < infos.length)
    (info : ThreadInfo ρ τ) : (ov.storeInfo i info).Has (infos.set i info) := by
  refine ⟨h.nr.trans List.length_set.symm, holds_iff.mpr fun j hj => ?_⟩
  rw [List.length_set] at hj
  have hle := h.holds.length_le
  rw [infos_storeInfo, List.getElem_set]
  by_cases hij : i = j
  · subst hij
    rw [List.getElem?_set_self (by omega), if_pos rfl]
  · rw [List.getElem?_set_ne hij, if_neg hij]
    exact h.holds.get hj

/-- `add_thread_info` appends one. -/
theorem Has.addThreadInfo (h : ov.Has infos) (cpu usleepTime : Int) {o : CreateOutcome}
    (hinfos : o.infos = true) (hinfo : o.info = true) :
    ∃ ov', ov.addThreadInfo cpu usleepTime o = (ov', true) ∧
      ov'.Has (infos ++ [⟨cpu, 0, .initialized, usleepTime, 0, [], []⟩]) := by
  refine ⟨_, by rw [OvStruct.addThreadInfo, hinfos, hinfo]; rfl, ?_, ?_⟩
  · rw [List.length_append, List.length_singleton, ← h.nr]
    rfl
  · have hpush := h.holds.push ⟨cpu, 0, .initialized, usleepTime, 0, [], []⟩
    rw [← h.nr] at hpush
    exact hpush

end OvStruct

/-- The `thread_info` of a CPU is at one place. -/
theorem findIdx_cpu (hnodup : (infos.map ThreadInfo.cpu).Nodup) {i : Nat} (hi : i < infos.length) :
    (infos.findIdx? fun info => info.cpu = infos[i].cpu) = some i := by
  refine List.findIdx?_eq_some_iff_getElem.mpr ⟨hi, by simp, fun j hj => ?_⟩
  rw [decide_eq_true_eq]
  intro hsame
  have hji : j = i := by
    have hj' : j < (infos.map ThreadInfo.cpu).length := by rw [List.length_map]; omega
    have hi' : i < (infos.map ThreadInfo.cpu).length := by rwa [List.length_map]
    rwa [← @List.Nodup.getElem_inj_iff _ _ hnodup j hj' i hi', List.getElem_map,
      List.getElem_map]
  omega

theorem exists_place {cpu : Int} (h : cpu ∈ infos.map ThreadInfo.cpu) :
    ∃ i, ∃ hi : i < infos.length, infos[i].cpu = cpu := by
  obtain ⟨info, hinfo, rfl⟩ := List.mem_map.mp h
  obtain ⟨i, hi, rfl⟩ := List.getElem_of_mem hinfo
  exact ⟨i, hi, rfl⟩

/-- Two places have different CPUs. -/
theorem cpu_ne (hnodup : (infos.map ThreadInfo.cpu).Nodup) {i j : Nat} (hi : i < infos.length)
    (hj : j < infos.length) (hij : i ≠ j) : infos[j].cpu ≠ infos[i].cpu := by
  intro hsame
  have hidx := findIdx_cpu hnodup hj
  rw [hsame, findIdx_cpu hnodup hi] at hidx
  exact hij (Option.some.inj hidx)

theorem cpus_set {i : Nat} (hi : i < infos.length) {info : ThreadInfo ρ τ}
    (hcpu : info.cpu = infos[i].cpu) :
    (infos.set i info).map ThreadInfo.cpu = infos.map ThreadInfo.cpu := by
  have hlen : i < (infos.map ThreadInfo.cpu).length := by rwa [List.length_map]
  have hget : (infos.map ThreadInfo.cpu)[i] = infos[i].cpu := List.getElem_map _
  rw [List.map_set, hcpu, ← hget, List.set_getElem_self]

theorem findIdx_none {cpu : Int} :
    (infos.findIdx? fun info => info.cpu = cpu) = none ↔ cpu ∉ infos.map ThreadInfo.cpu := by
  rw [List.findIdx?_eq_none_iff]
  simp

end Infos

/-- The arrays of an `ov_struct` hold the pairs: each CPU has one `thread_info` at most, and its
arrays contain the pairs of the CPU. -/
structure OvStruct.Listed (ov : OvStruct ρ τ) (infos : List (ThreadInfo ρ τ)) (m : Entries ρ τ) :
    Prop where
  has : ov.Has infos
  cpus : (infos.map ThreadInfo.cpu).Nodup
  lists : ∀ info ∈ infos, info.Lists (m info.cpu)
  absent : ∀ cpu ∉ infos.map ThreadInfo.cpu, m cpu = []

/-- **The registry holds the pairs**: each CPU has one `thread_info` at most, its thread
was started once, and its arrays contain the pairs of the CPU. -/
structure Registered (r : Registry ρ τ) (infos : List (ThreadInfo ρ τ)) (m : Entries ρ τ) :
    Prop extends r.ov.Listed infos m where
  threads : r.threads = infos.map ThreadInfo.cpu
  running : ∀ i (hi : i < infos.length), infos[i].thread = i + 1
  rate : r.overrideUpdateRate = none

/-- The `thread_info`s of other CPUs are unchanged. -/
def OthersKept (cpu : Int) (r r' : Registry ρ τ) : Prop :=
  ∀ i info, i < r.ov.nrThreadInfos → r.ov.loadInfo i = .ok info → info.cpu ≠ cpu →
    i < r'.ov.nrThreadInfos ∧ r'.ov.loadInfo i = .ok info

/-- The CPU of a `thread_info`, and what it holds as its thread. -/
def ThreadInfo.handle (info : ThreadInfo ρ τ) : Int × Nat := (info.cpu, info.thread)

section Listed

variable {ov : OvStruct ρ τ} {r r' : Registry ρ τ} {infos infos' : List (ThreadInfo ρ τ)}
  {m m' : Entries ρ τ}

theorem listed_empty : (Registry.empty : Registry ρ τ).ov.Listed [] fun _ => [] where
  has := ⟨rfl, holds_nil _⟩
  cpus := List.nodup_nil
  lists _ hinfo := absurd hinfo List.not_mem_nil
  absent _ _ := rfl

theorem OthersKept.refl (cpu : Int) (r : Registry ρ τ) : OthersKept cpu r r :=
  fun _ _ hi hload _ => ⟨hi, hload⟩

theorem OthersKept.trans {cpu : Int} {r'' : Registry ρ τ} (h : OthersKept cpu r r')
    (h' : OthersKept cpu r' r'') : OthersKept cpu r r'' := by
  intro i info hi hload hne
  obtain ⟨hi', hload'⟩ := h i info hi hload hne
  exact h' i info hi' hload' hne

theorem othersKept_of_has {cpu : Int} (h : r.ov.Has infos) (h' : r'.ov.Has infos')
    (hkept : ∀ i (hi : i < infos.length), infos[i].cpu ≠ cpu → infos'[i]? = some infos[i]) :
    OthersKept cpu r r' := by
  intro i info hi hload hne
  rw [h.nr] at hi
  rw [h.loadInfo hi] at hload
  cases hload
  obtain ⟨hi', hget⟩ := List.getElem?_eq_some_iff.mp (hkept i hi hne)
  refine ⟨by rwa [h'.nr], ?_⟩
  rw [h'.loadInfo hi', hget]

/-- An update of one `thread_info` touches no other CPU. -/
theorem othersKept_set (h : r.ov.Has infos) {i : Nat} (hi : i < infos.length)
    {info : ThreadInfo ρ τ} (h' : r'.ov.Has (infos.set i info)) :
    OthersKept infos[i].cpu r r' := by
  refine othersKept_of_has h h' fun j hj hne => ?_
  rw [List.getElem?_set_ne, List.getElem?_eq_getElem hj]
  rintro rfl
  exact hne rfl

/-- A new `thread_info` touches no other CPU. -/
theorem othersKept_append (h : r.ov.Has infos) {cpu : Int} {info : ThreadInfo ρ τ}
    (h' : r'.ov.Has (infos ++ [info])) : OthersKept cpu r r' := by
  refine othersKept_of_has h h' fun j hj _ => ?_
  rw [List.getElem?_append_left hj, List.getElem?_eq_getElem hj]

namespace OvStruct

/-- The `thread_info` of one CPU is replaced by one with other pairs. -/
theorem Listed.set (h : ov.Listed infos m) {i : Nat} (hi : i < infos.length)
    {info : ThreadInfo ρ τ} (hcpu : info.cpu = infos[i].cpu) {calls : List (ρ × τ)}
    (hlists : info.Lists calls) :
    (ov.storeInfo i info).Listed (infos.set i info) (Function.update m infos[i].cpu calls) := by
  have hcpus := cpus_set hi hcpu
  refine ⟨h.has.storeInfo hi info, ?_, ?_, ?_⟩
  · rw [hcpus]
    exact h.cpus
  · intro x hx
    obtain ⟨j, hj, rfl⟩ := List.getElem_of_mem hx
    rw [List.length_set] at hj
    by_cases hij : i = j
    · subst hij
      rw [List.getElem_set_self, hcpu, Function.update_self]
      exact hlists
    · rw [List.getElem_set_ne hij, Function.update_of_ne]
      · exact h.lists _ (List.getElem_mem hj)
      · exact cpu_ne h.cpus hi hj hij
  · intro cpu hcpu'
    rw [hcpus] at hcpu'
    rw [Function.update_of_ne, h.absent cpu hcpu']
    rintro rfl
    exact hcpu' (List.mem_map_of_mem (List.getElem_mem hi))

/-- A `thread_info` for a new CPU. -/
theorem Listed.append (h : ov.Listed infos m) {info : ThreadInfo ρ τ}
    (hnew : info.cpu ∉ infos.map ThreadInfo.cpu) {ov' : OvStruct ρ τ}
    (hhas : ov'.Has (infos ++ [info])) {calls : List (ρ × τ)} (hlists : info.Lists calls) :
    ov'.Listed (infos ++ [info]) (Function.update m info.cpu calls) := by
  have hcpus : (infos ++ [info]).map ThreadInfo.cpu = infos.map ThreadInfo.cpu ++ [info.cpu] := by
    rw [List.map_append, List.map_singleton]
  refine ⟨hhas, ?_, ?_, ?_⟩
  · rw [hcpus]
    refine List.nodup_append.mpr ⟨h.cpus, List.nodup_singleton _, fun a ha b hb hab => ?_⟩
    rw [List.mem_singleton.mp hb] at hab
    exact hnew (hab ▸ ha)
  · intro x hx
    rcases List.mem_append.mp hx with hx | hx
    · rw [Function.update_of_ne]
      · exact h.lists x hx
      · exact fun hsame => hnew (hsame ▸ List.mem_map_of_mem hx)
    · rw [List.mem_singleton.mp hx, Function.update_self]
      exact hlists
  · intro c hc
    rw [hcpus, List.mem_append, List.mem_singleton, not_or] at hc
    rw [Function.update_of_ne hc.2]
    exact h.absent c hc.1

/-- The first part of a create for a CPU with a `thread_info` may lower its sleep time. -/
theorem Listed.ensureThreadInfo (h : ov.Listed infos m) {i : Nat} (hi : i < infos.length)
    (usleepTime : Int) (o : CreateOutcome) :
    ∃ ov' info, ov.ensureThreadInfo infos[i].cpu usleepTime o = .ok (ov', true) ∧
      ov'.Listed (infos.set i info) m ∧ info.handle = infos[i].handle ∧
      info.nrFunctions = infos[i].nrFunctions ∧ info.functions = infos[i].functions ∧
      info.t = infos[i].t := by
  unfold OvStruct.ensureThreadInfo
  rw [h.has.getThreadInfo, findIdx_cpu h.cpus hi]
  simp only [Option.map_some, h.has.loadInfo hi]
  by_cases htime : infos[i].usleepTime > usleepTime
  · have hlists : ({ infos[i] with usleepTime := usleepTime } : ThreadInfo ρ τ).Lists
        (m infos[i].cpu) := by
      obtain ⟨hnr, hf, ht⟩ := h.lists _ (List.getElem_mem hi)
      exact ⟨hnr, hf, ht⟩
    have hcpu : ({ infos[i] with usleepTime := usleepTime } : ThreadInfo ρ τ).cpu =
        infos[i].cpu := rfl
    have hset := h.set hi hcpu hlists
    rw [Function.update_eq_self] at hset
    exact ⟨_, _, if_pos htime, hset, rfl, rfl, rfl, rfl⟩
  · refine ⟨ov, infos[i], if_neg htime, ?_, rfl, rfl, rfl, rfl⟩
    rw [List.set_getElem_self]
    exact h

/-- The first part of a create for a new CPU. -/
theorem Listed.addThreadInfo (h : ov.Listed infos m) {cpu : Int}
    (hnew : cpu ∉ infos.map ThreadInfo.cpu) (usleepTime : Int) {o : CreateOutcome}
    (hinfos : o.infos = true) (hinfo : o.info = true) :
    ∃ ov', ov.ensureThreadInfo cpu usleepTime o = .ok (ov', true) ∧
      ov'.Listed (infos ++ [⟨cpu, 0, .initialized, usleepTime, 0, [], []⟩]) m := by
  obtain ⟨ov', hadd, hhas⟩ := h.has.addThreadInfo cpu usleepTime hinfos hinfo
  have hlists : (⟨cpu, 0, .initialized, usleepTime, 0, [], []⟩ : ThreadInfo ρ τ).Lists [] :=
    ⟨rfl, holds_nil _, holds_nil _⟩
  have happend := h.append hnew hhas hlists
  rw [← h.absent cpu hnew, Function.update_eq_self] at happend
  refine ⟨ov', ?_, happend⟩
  unfold OvStruct.ensureThreadInfo
  rw [h.has.getThreadInfo, findIdx_none.mpr hnew]
  simp only [Option.map_none, hadd]

end OvStruct

end Listed

section Lookup

variable {r : Registry ρ τ} {infos : List (ThreadInfo ρ τ)} {m : Entries ρ τ} {cpu : Int}
  {info : ThreadInfo ρ τ}

namespace OvStruct

theorem Listed.infoOf_getElem (h : r.ov.Listed infos m) {i : Nat} (hi : i < infos.length) :
    r.infoOf infos[i].cpu = .ok infos[i] := by
  unfold Registry.infoOf
  rw [h.has.getThreadInfo, findIdx_cpu h.cpus hi]
  exact h.has.loadInfo hi

theorem Listed.infoOf_some (h : r.ov.Listed infos m) (hinfo : r.infoOf cpu = .ok info) :
    ∃ i, ∃ hi : i < infos.length, infos[i] = info ∧ info.cpu = cpu := by
  by_cases hmem : cpu ∈ infos.map ThreadInfo.cpu
  · obtain ⟨i, hi, rfl⟩ := exists_place hmem
    rw [h.infoOf_getElem hi] at hinfo
    cases hinfo
    exact ⟨i, hi, rfl, rfl⟩
  · unfold Registry.infoOf at hinfo
    rw [h.has.getThreadInfo, findIdx_none.mpr hmem] at hinfo
    cases hinfo

/-- The arrays of a CPU list its pairs. -/
theorem Listed.infoOf_lists (h : r.ov.Listed infos m) (hinfo : r.infoOf cpu = .ok info) :
    info.Lists (m cpu) := by
  obtain ⟨i, hi, rfl, rfl⟩ := h.infoOf_some hinfo
  exact h.lists _ (List.getElem_mem hi)

/-- A call for another CPU leaves the `thread_info` alone. -/
theorem Listed.infoOf_othersKept (h : r.ov.Listed infos m) {r' : Registry ρ τ}
    {infos' : List (ThreadInfo ρ τ)} {m' : Entries ρ τ} (h' : r'.ov.Listed infos' m')
    {other : Int} (hothers : OthersKept other r r') (hne : cpu ≠ other)
    (hinfo : r.infoOf cpu = .ok info) : r'.infoOf cpu = .ok info := by
  obtain ⟨i, hi, rfl, rfl⟩ := h.infoOf_some hinfo
  obtain ⟨hi', hload⟩ := hothers i _ (by rw [h.has.nr]; exact hi) (h.has.loadInfo hi) hne
  rw [h'.has.nr] at hi'
  rw [h'.has.loadInfo hi'] at hload
  have hget : infos'[i] = infos[i] := Except.ok.inj hload
  rw [← hget]
  exact h'.infoOf_getElem hi'

theorem Has.mapM_loadSlot {ov : OvStruct ρ τ} (h : ov.Has infos)
    {block : List (Option (ThreadInfo ρ τ))} (hblock : ov.threadInfos = some block) :
    (List.range ov.nrThreadInfos).mapM (loadSlot block) = .ok infos := by
  have hholds := h.holds
  rw [hblock] at hholds
  rw [h.nr, List.range_eq_range']
  refine Partial.mapM_range' fun i hi => ?_
  rw [Nat.zero_add]
  exact loadSlot_of_holds hholds hi

/-- `killall` cancels the thread of every `thread_info`, if there is one. -/
theorem Has.killall (h : r.ov.Has infos)
    (hthreads : ∀ info ∈ infos, r.cancel info.thread = .ok info.cpu) :
    r.killall = .ok (infos.map ThreadInfo.cpu) := by
  have hholds := h.holds
  unfold Registry.killall
  cases hblock : r.ov.threadInfos with
  | none =>
      rw [hblock] at hholds
      have hnil : infos = [] := List.eq_nil_of_length_eq_zero (Nat.le_zero.mp hholds.length_le)
      rw [hnil]
      rfl
  | some block =>
      rw [hblock, Option.getD_some] at hholds
      simp only [h.nr, List.range_eq_range']
      have hlen : (infos.map ThreadInfo.cpu).length = infos.length := List.length_map _
      rw [← hlen]
      refine Partial.mapM_range' fun i hi => ?_
      rw [hlen] at hi
      rw [Nat.zero_add, List.getElem_map]
      unfold Registry.cancelInfo
      rw [loadSlot_of_holds hholds hi]
      exact hthreads _ (List.getElem_mem hi)

/-- `freeall` frees every `thread_info`. -/
theorem Has.freeall (h : r.ov.Has infos) :
    ∃ r', r.freeall = .ok r' ∧ r'.ov.threadInfos = none := by
  unfold Registry.freeall
  cases hblock : r.ov.threadInfos with
  | none => exact ⟨r, rfl, hblock⟩
  | some block =>
      simp only [h.mapM_loadSlot hblock]
      exact ⟨_, rfl, rfl⟩

end OvStruct

/-- Storing what was loaded. -/
theorem storeInfo_self {ov : OvStruct ρ τ} {i : Nat} {info : ThreadInfo ρ τ}
    (h : ov.loadInfo i = .ok info) : ov.storeInfo i info = ov := by
  unfold OvStruct.loadInfo loadSlot at h
  unfold OvStruct.storeInfo
  cases hinfos : ov.threadInfos with
  | none =>
      rw [hinfos] at h
      cases h
  | some block =>
      rw [hinfos, Option.getD_some] at h
      have hget : block[i]? = some (some info) := by
        split at h
        · cases h
        · cases h
        · rename_i hget
          cases h
          exact hget
      obtain ⟨hi, hget⟩ := List.getElem?_eq_some_iff.mp hget
      rw [Option.map_some, ← hget, List.set_getElem_self, ← hinfos]

end Lookup

section Register

variable {r : Registry ρ τ} {infos : List (ThreadInfo ρ τ)} {m : Entries ρ τ}

/-- `register` on a CPU that has a `thread_info`. -/
theorem register_eq (h : r.ov.Has infos) {cpu : Int} {i : Nat} (hi : i < infos.length)
    (hidx : (infos.findIdx? fun info => info.cpu = cpu) = some i) (read : ρ) (t : τ)
    (o : CreateOutcome) :
    r.register cpu read t o =
      let info := (infos[i].addCall read t o).1
      if info.thread ≠ 0 then
        .ok ({ r with ov := r.ov.storeInfo i info }, ⟨0, some (info.thread, info.mutex)⟩)
      else if !o.thread then
        .ok ({ r with ov := r.ov.storeInfo i { info with thread := o.leftover } }, ⟨1, none⟩)
      else
        let info := { info with thread := r.threads.length + 1 }
        .ok ({ r with ov := r.ov.storeInfo i info, threads := r.threads ++ [cpu] },
          ⟨0, some (info.thread, info.mutex)⟩) := by
  unfold Registry.register
  rw [h.getThreadInfo, hidx]
  simp only [Option.map_some, h.loadInfo hi]

theorem addCall_fields (info : ThreadInfo ρ τ) (read : ρ) (t : τ) (o : CreateOutcome) :
    (info.addCall read t o).1.cpu = info.cpu ∧
      (info.addCall read t o).1.thread = info.thread := by
  unfold ThreadInfo.addCall
  split
  · exact ⟨rfl, rfl⟩
  · dsimp only
    split <;> exact ⟨rfl, rfl⟩

/-- The pair that `add_call` appends, if it gets its memory. -/
def CreateOutcome.added (o : CreateOutcome) (read : ρ) (t : τ) : List (ρ × τ) :=
  if o.functions ∧ o.t then [(read, t)] else []

/-- `add_call` without its memory leaves the pairs. -/
theorem ThreadInfo.Lists.addCall_added {info : ThreadInfo ρ τ} {calls : List (ρ × τ)}
    (h : info.Lists calls) (read : ρ) (t : τ) (o : CreateOutcome) :
    (info.addCall read t o).1.Lists (calls ++ o.added read t) := by
  unfold CreateOutcome.added
  by_cases ho : o.functions = true ∧ o.t = true
  · rw [if_pos ho]
    exact h.addCall read t ho.1 ho.2
  · rw [if_neg ho, List.append_nil]
    unfold ThreadInfo.addCall
    cases hfunctions : o.functions with
    | false => exact h
    | true =>
        have ht : o.t = false := by simpa [hfunctions] using ho
        rw [ht]
        refine ⟨h.nr, holds_iff.mpr fun i hi => ?_, h.t⟩
        refine (getElem?_resize_iff ?_).mpr (h.functions.get hi)
        rw [List.length_map, ← h.nr] at hi
        exact Nat.lt_succ_of_lt hi

/-- What a create makes of the thread of its CPU, which is `old` before: it hands it out, gets
none, or starts one. -/
def Starts (o : CreateOutcome) (cpu : Int) (old new : Nat) (threads threads' : List Int)
    (code : Int) : Prop :=
  old ≠ 0 ∧ new = old ∧ threads' = threads ∧ code = 0 ∨
    old = 0 ∧ o.thread = false ∧ threads' = threads ∧ code = 1 ∨
    old = 0 ∧ o.thread = true ∧ new = threads.length + 1 ∧ threads' = threads ++ [cpu] ∧ code = 0

/-- **The second part of a create** on the `thread_info` of the CPU. -/
theorem OvStruct.Listed.register (h : r.ov.Listed infos m) {i : Nat} (hi : i < infos.length)
    (read : ρ) (t : τ) (o : CreateOutcome) :
    ∃ info threads res, r.register infos[i].cpu read t o =
        .ok ({ r with ov := r.ov.storeInfo i info, threads := threads }, res) ∧
      (r.ov.storeInfo i info).Listed (infos.set i info)
        (Function.update m infos[i].cpu (m infos[i].cpu ++ o.added read t)) ∧
      info = { (infos[i].addCall read t o).1 with thread := info.thread } ∧
      Starts o infos[i].cpu infos[i].thread info.thread r.threads threads res.code := by
  obtain ⟨hcpu, hthread⟩ := addCall_fields infos[i] read t o
  obtain ⟨hnr, hf, ht⟩ := (h.lists _ (List.getElem_mem hi)).addCall_added read t o
  have hlisted : ∀ info : ThreadInfo ρ τ,
      info = { (infos[i].addCall read t o).1 with thread := info.thread } →
      (r.ov.storeInfo i info).Listed (infos.set i info)
        (Function.update m infos[i].cpu (m infos[i].cpu ++ o.added read t)) := by
    intro info hinfo
    refine h.set hi ?_ ?_
    · rw [hinfo, hcpu]
    · rw [hinfo]
      exact ⟨hnr, hf, ht⟩
  rw [register_eq h.has hi (findIdx_cpu h.cpus hi)]
  dsimp only
  by_cases hrunning : infos[i].thread ≠ 0
  · rw [if_pos (by rwa [hthread])]
    exact ⟨_, r.threads, _, rfl, hlisted _ rfl, rfl, .inl ⟨hrunning, hthread, rfl, rfl⟩⟩
  · rw [if_neg (by rwa [hthread])]
    have hzero : infos[i].thread = 0 := not_not.mp hrunning
    cases ho : o.thread with
    | false =>
        exact ⟨_, r.threads, _, rfl, hlisted _ rfl, rfl, .inr (.inl ⟨hzero, ho, rfl, rfl⟩)⟩
    | true => exact ⟨_, _, _, rfl, hlisted _ rfl, rfl, .inr (.inr ⟨hzero, ho, rfl, rfl, rfl⟩)⟩

theorem sleepTime_none (h : r.overrideUpdateRate = none) (usleepTime : Int) :
    r.sleepTime usleepTime = some usleepTime := by
  unfold Registry.sleepTime
  rw [h]

/-- `add_call` looks at the arrays only. -/
theorem addCall_arrays {info info' : ThreadInfo ρ τ} (hnr : info'.nrFunctions = info.nrFunctions)
    (hf : info'.functions = info.functions) (ht : info'.t = info.t) (read : ρ) (t : τ)
    (o : CreateOutcome) :
    (info'.addCall read t o).1.functions = (info.addCall read t o).1.functions ∧
      (info'.addCall read t o).1.t = (info.addCall read t o).1.t := by
  unfold ThreadInfo.addCall
  rw [hnr, hf, ht]
  split
  · exact ⟨hf, ht⟩
  · dsimp only
    split
    · exact ⟨rfl, rfl⟩
    · exact ⟨rfl, rfl⟩

/-- **A create for a CPU with a `thread_info`**, whatever happens. -/
theorem OvStruct.Listed.create (h : r.ov.Listed infos m) (hrate : r.overrideUpdateRate = none)
    {i : Nat} (hi : i < infos.length) (read : ρ) (t : τ) (usleepTime : Int) (o : CreateOutcome) :
    ∃ ov info threads res, r.create infos[i].cpu read t usleepTime o =
        .ok ({ r with ov := ov, threads := threads }, res) ∧
      ov.Listed (infos.set i info)
        (Function.update m infos[i].cpu (m infos[i].cpu ++ o.added read t)) ∧
      info.cpu = infos[i].cpu ∧ info.functions = (infos[i].addCall read t o).1.functions ∧
      info.t = (infos[i].addCall read t o).1.t ∧
      Starts o infos[i].cpu infos[i].thread info.thread r.threads threads res.code := by
  obtain ⟨ov, kept, hensure, hlisted, hhandle, hnr, hf, ht⟩ := h.ensureThreadInfo hi usleepTime o
  have hi' : i < (infos.set i kept).length := by rwa [List.length_set]
  have hget : (infos.set i kept)[i] = kept := List.getElem_set_self _
  obtain ⟨info, threads, res, hregister, hlisted', hinfo, hstarts⟩ :=
    OvStruct.Listed.register (r := { r with ov := ov }) hlisted hi' read t o
  obtain ⟨hcpu, hthread⟩ := Prod.mk.inj hhandle
  rw [hget] at hregister hlisted' hinfo hstarts
  rw [hcpu] at hregister hlisted' hstarts
  rw [hthread] at hstarts
  rw [List.set_set] at hlisted'
  obtain ⟨hfunctions, hcounters⟩ := addCall_arrays hnr hf ht read t o
  refine ⟨_, info, threads, res, ?_, hlisted', ?_, ?_, ?_, hstarts⟩
  · unfold Registry.create
    rw [sleepTime_none hrate]
    simp only [hensure]
    exact hregister
  · rw [hinfo]
    exact (addCall_fields kept read t o).1.trans hcpu
  · rw [hinfo, ← hfunctions]
  · rw [hinfo, ← hcounters]

/-- **A create for a new CPU** that gets its `thread_info`. -/
theorem OvStruct.Listed.create_new (h : r.ov.Listed infos m)
    (hrate : r.overrideUpdateRate = none) {cpu : Int} (hnew : cpu ∉ infos.map ThreadInfo.cpu)
    (read : ρ) (t : τ) (usleepTime : Int) {o : CreateOutcome} (hoinfos : o.infos = true)
    (hoinfo : o.info = true) :
    ∃ ov info threads res, r.create cpu read t usleepTime o =
        .ok ({ r with ov := ov, threads := threads }, res) ∧
      ov.Listed (infos ++ [info]) (Function.update m cpu (m cpu ++ o.added read t)) ∧
      info.cpu = cpu ∧ Starts o cpu 0 info.thread r.threads threads res.code := by
  obtain ⟨ov, hensure, hlisted⟩ := h.addThreadInfo hnew usleepTime hoinfos hoinfo
  obtain ⟨fresh, hfresh⟩ : ∃ fresh : ThreadInfo ρ τ,
      fresh = ⟨cpu, 0, .initialized, usleepTime, 0, [], []⟩ := ⟨_, rfl⟩
  rw [← hfresh] at hlisted
  have hcpu : fresh.cpu = cpu := congrArg ThreadInfo.cpu hfresh
  have hthread : fresh.thread = 0 := congrArg ThreadInfo.thread hfresh
  have hlast : infos.length < (infos ++ [fresh]).length := by simp
  obtain ⟨info, threads, res, hregister, hlisted', hinfo, hstarts⟩ :=
    OvStruct.Listed.register (r := { r with ov := ov }) hlisted hlast read t o
  rw [List.getElem_concat_length rfl] at hregister hlisted' hinfo hstarts
  rw [hcpu] at hregister hlisted' hstarts
  rw [hthread] at hstarts
  rw [List.set_append_right _ _ (Nat.le_refl _), Nat.sub_self, List.set_cons_zero] at hlisted'
  refine ⟨_, info, threads, res, ?_, hlisted', ?_, hstarts⟩
  · unfold Registry.create
    rw [sleepTime_none hrate]
    simp only [hensure]
    exact hregister
  · rw [hinfo]
    exact (addCall_fields fresh read t o).1.trans hcpu

/-- A create for a new CPU without memory for the array does nothing. -/
theorem OvStruct.Listed.create_refused (h : r.ov.Listed infos m)
    (hrate : r.overrideUpdateRate = none) {cpu : Int} (hnew : cpu ∉ infos.map ThreadInfo.cpu)
    (read : ρ) (t : τ) (usleepTime : Int) {o : CreateOutcome} (hoinfos : o.infos = false) :
    r.create cpu read t usleepTime o = .ok (r, ⟨1, none⟩) := by
  unfold Registry.create OvStruct.ensureThreadInfo OvStruct.addThreadInfo
  rw [sleepTime_none hrate]
  simp only [h.has.getThreadInfo, findIdx_none.mpr hnew, Option.map_none, hoinfos]
  rfl

end Register

section Calls

variable {r : Registry ρ τ} {infos : List (ThreadInfo ρ τ)} {m : Entries ρ τ}

theorem registered_empty : Registered (Registry.empty : Registry ρ τ) [] fun _ => [] where
  toListed := listed_empty
  threads := rfl
  running _ hi := absurd hi (Nat.not_lt_zero _)
  rate := rfl

/-- A call that keeps the threads. -/
theorem Registered.of_listed (h : Registered r infos m) {ov : OvStruct ρ τ}
    {infos' : List (ThreadInfo ρ τ)} {m' : Entries ρ τ} (hlisted : ov.Listed infos' m')
    (hhandles : infos'.map ThreadInfo.handle = infos.map ThreadInfo.handle) :
    Registered { r with ov := ov } infos' m' := by
  have hget : ∀ i (hi : i < infos'.length), ∃ hi' : i < infos.length,
      infos'[i].handle = infos[i].handle := by
    intro i hi
    have hlen : infos'.length = infos.length := by simpa using congrArg List.length hhandles
    refine ⟨hlen ▸ hi, ?_⟩
    have hsame := List.getElem_of_eq hhandles (i := i) (by rwa [List.length_map])
    rwa [List.getElem_map, List.getElem_map] at hsame
  refine ⟨hlisted, ?_, fun i hi => ?_, h.rate⟩
  · have hcpus := congrArg (List.map Prod.fst) hhandles
    rw [List.map_map, List.map_map] at hcpus
    exact h.threads.trans hcpus.symm
  · obtain ⟨hi', hsame⟩ := hget i hi
    exact (Prod.mk.inj hsame).2.trans (h.running i hi')

theorem handles_set {i : Nat} (hi : i < infos.length) {info : ThreadInfo ρ τ}
    (hhandle : info.handle = infos[i].handle) :
    (infos.set i info).map ThreadInfo.handle = infos.map ThreadInfo.handle := by
  have hlen : i < (infos.map ThreadInfo.handle).length := by rwa [List.length_map]
  have hget : (infos.map ThreadInfo.handle)[i] = infos[i].handle := List.getElem_map _
  rw [List.map_set, hhandle, ← hget, List.set_getElem_self]

/-- **A create** appends its pair to the CPU. -/
theorem Registered.create (h : Registered r infos m) (cpu : Int) (read : ρ) (t : τ)
    (usleepTime : Int) {o : CreateOutcome}
    (ho : (OvCall.create cpu read t usleepTime o).Succeeds) :
    ∃ r' infos', (r.create cpu read t usleepTime o).map Prod.fst = .ok r' ∧
      Registered r' infos' (Function.update m cpu (m cpu ++ [(read, t)])) ∧
      OthersKept cpu r r' := by
  obtain ⟨hoinfos, hoinfo, hofunctions, hot, hothread⟩ := ho
  have hadded : o.added read t = [(read, t)] := if_pos ⟨hofunctions, hot⟩
  by_cases hmem : cpu ∈ infos.map ThreadInfo.cpu
  · obtain ⟨i, hi, rfl⟩ := exists_place hmem
    obtain ⟨ov, info, threads, res, hcreate, hlisted, hcpu, _, _, hstarts⟩ :=
      h.toListed.create h.rate hi read t usleepTime o
    have hrunning := h.running i hi
    rcases hstarts with ⟨_, hthread, rfl, _⟩ | ⟨hzero, _⟩ | ⟨hzero, _⟩
    · rw [hadded] at hlisted
      rw [hcreate]
      exact ⟨_, _, rfl, h.of_listed hlisted (handles_set hi (Prod.ext hcpu hthread)),
        othersKept_set h.has hi hlisted.has⟩
    · rw [hzero] at hrunning
      cases hrunning
    · rw [hzero] at hrunning
      cases hrunning
  · obtain ⟨ov, info, threads, res, hcreate, hlisted, hcpu, hstarts⟩ :=
      h.toListed.create_new h.rate hmem read t usleepTime hoinfos hoinfo
    rcases hstarts with ⟨hne, _⟩ | ⟨_, hrefused, _⟩ | ⟨_, _, hthread, rfl, _⟩
    · exact absurd rfl hne
    · rw [hothread] at hrefused
      cases hrefused
    · rw [hadded] at hlisted
      rw [hcreate]
      refine ⟨_, _, rfl, ⟨hlisted, ?_, fun i hi => ?_, h.rate⟩, othersKept_append h.has hlisted.has⟩
      · rw [List.map_append, List.map_singleton, hcpu, ← h.threads]
      · rw [List.length_append, List.length_singleton] at hi
        by_cases hlt : i < infos.length
        · rw [List.getElem_append_left hlt]
          exact h.running i hlt
        · obtain rfl : i = infos.length := by omega
          rw [List.getElem_append_right (Nat.le_refl _)]
          simp [hthread, h.threads]

section Remove

variable [DecidableEq ρ] [DecidableEq τ]

/-- At most one pair is behind the first one that is equal to the pair of a removal. -/
def RemoveFine (r : Registry ρ τ) : OvCall ρ τ → Prop
  | .create _ _ _ _ _ => True
  | .removeCall cpu read t => ∀ info k, r.infoOf cpu = .ok info →
      info.findCall read t = .ok (some (k, ())) → info.nrFunctions ≤ k + 2

theorem OvStruct.Listed.last_of_fine (h : r.ov.Listed infos m) {cpu : Int} {read : ρ} {t : τ}
    (hfine : RemoveFine r (.removeCall cpu read t)) {info : ThreadInfo ρ τ}
    (hinfo : r.infoOf cpu = .ok info) {k : Nat} (hk : (m cpu).idxOf? (read, t) = some k) :
    (m cpu).length ≤ k + 2 := by
  have hlists := h.infoOf_lists hinfo
  rw [← hlists.nr]
  refine hfine info k hinfo ?_
  rw [hlists.findCall, hk]
  rfl

/-- **A removal** takes out the first equal pair of the CPU. -/
theorem OvStruct.Listed.removeCall (h : r.ov.Listed infos m) (M : Memcpy) {cpu : Int} {read : ρ}
    {t : τ} (hfine : RemoveFine r (.removeCall cpu read t)) :
    ∃ ov infos', r.removeCall M cpu read t = .ok { r with ov := ov } ∧
      ov.Listed infos' (Function.update m cpu ((m cpu).erase (read, t))) ∧
      infos'.map ThreadInfo.handle = infos.map ThreadInfo.handle ∧
      OthersKept cpu r { r with ov := ov } := by
  unfold Registry.removeCall
  by_cases hmem : cpu ∈ infos.map ThreadInfo.cpu
  · obtain ⟨i, hi, rfl⟩ := exists_place hmem
    obtain ⟨info', hremove, hlists', hcpu, hthread⟩ :=
      (h.lists _ (List.getElem_mem hi)).removeCall M read t
        fun k hk => h.last_of_fine hfine (h.infoOf_getElem hi) hk
    rw [h.has.getThreadInfo, findIdx_cpu h.cpus hi]
    simp only [Option.map_some, h.has.loadInfo hi, hremove]
    have hset := h.set hi hcpu hlists'
    exact ⟨_, _, rfl, hset, handles_set hi (Prod.ext hcpu hthread), othersKept_set h.has hi hset.has⟩
  · rw [h.has.getThreadInfo, findIdx_none.mpr hmem]
    refine ⟨r.ov, infos, rfl, ?_, rfl, OthersKept.refl _ r⟩
    rw [h.absent cpu hmem, List.erase_nil, ← h.absent cpu hmem, Function.update_eq_self]
    exact h

/-- A removal without an equal pair changes nothing. -/
theorem Registered.removeCall_absent (h : Registered r infos m) (M : Memcpy) {cpu : Int}
    {read : ρ} {t : τ} (habsent : (read, t) ∉ m cpu) : r.removeCall M cpu read t = .ok r := by
  unfold Registry.removeCall
  by_cases hmem : cpu ∈ infos.map ThreadInfo.cpu
  · obtain ⟨i, hi, rfl⟩ := exists_place hmem
    have hlists := h.lists _ (List.getElem_mem hi)
    rw [h.has.getThreadInfo, findIdx_cpu h.cpus hi]
    simp only [Option.map_some, h.has.loadInfo hi, hlists.removeCall_absent habsent M,
      storeInfo_self (h.has.loadInfo hi)]
  · rw [h.has.getThreadInfo, findIdx_none.mpr hmem]
    rfl

section OfInfo

variable {cpu : Int} {info : ThreadInfo ρ τ}

theorem removeCall_handle {M : Memcpy} {read : ρ} {t : τ} {info' : ThreadInfo ρ τ}
    (h : info.removeCall M read t = .ok info') : info'.handle = info.handle := by
  unfold ThreadInfo.removeCall at h
  split at h
  · cases h
  · cases h
    rfl
  · cases h
    rfl

/-- A removal for a CPU acts on its `thread_info`. -/
theorem OvStruct.Listed.infoOf_removeCall (h : r.ov.Listed infos m) {M : Memcpy} {read : ρ} {t : τ}
    {r' : Registry ρ τ} (hremove : r.removeCall M cpu read t = .ok r')
    (hinfo : r.infoOf cpu = .ok info) :
    ∃ info', info.removeCall M read t = .ok info' ∧ r'.infoOf cpu = .ok info' := by
  obtain ⟨i, hi, rfl, rfl⟩ := h.infoOf_some hinfo
  unfold Registry.removeCall at hremove
  rw [h.has.getThreadInfo, findIdx_cpu h.cpus hi] at hremove
  simp only [Option.map_some, h.has.loadInfo hi] at hremove
  split at hremove
  · cases hremove
  · rename_i info' hinfo'
    cases hremove
    have hcpu := (Prod.mk.inj (removeCall_handle hinfo')).1
    have hcpus := cpus_set hi hcpu
    have hi' : i < (infos.set i info').length := by rwa [List.length_set]
    have hhas := h.has.storeInfo hi info'
    have hidx := findIdx_cpu (by rw [hcpus]; exact h.cpus) hi'
    rw [List.getElem_set_self, hcpu] at hidx
    refine ⟨info', hinfo', ?_⟩
    unfold Registry.infoOf
    simp only [hhas.getThreadInfo, hidx, Option.map_some, hhas.loadInfo hi',
      List.getElem_set_self]

end OfInfo

/-- Every call does to the arrays what it does to the pairs. -/
theorem Registered.step (h : Registered r infos m) (M : Memcpy) {call : OvCall ρ τ}
    (hsucceeds : call.Succeeds) (hfine : RemoveFine r call) :
    ∃ r' infos', r.step M call = .ok r' ∧ Registered r' infos' (m.step call) ∧
      OthersKept call.cpu r r' := by
  cases call with
  | create cpu read t usleepTime o => exact h.create cpu read t usleepTime hsucceeds
  | removeCall cpu read t =>
      obtain ⟨ov, infos', hremove, hlisted, hhandles, hothers⟩ := h.toListed.removeCall M hfine
      exact ⟨_, infos', hremove, h.of_listed hlisted hhandles, hothers⟩

/-- **The registry in every run**: as long as a removal has at most one pair behind it, the
registry holds the pairs after every call, no call touches another CPU, and a removal
without an equal pair does nothing. -/
theorem registered_run (M : Memcpy) {calls : List (OvCall ρ τ)}
    (hsucceed : ∀ call ∈ calls, call.Succeeds)
    (hfine : Transition.Meets (Registry.step M) RemoveFine .empty calls)
    {before : List (OvCall ρ τ)} (hbefore : before <+: calls) :
    ∃ r infos, Transition.run (Registry.step M) .empty before = .ok r ∧
      Registered r infos (before.foldl Entries.step fun _ => []) ∧
      ∀ call, before ++ [call] <+: calls → ∃ r', r.step M call = .ok r' ∧
        OthersKept call.cpu r r' ∧
        ∀ cpu read t, call = .removeCall cpu read t →
          (read, t) ∉ (before.foldl Entries.step fun _ => []) cpu → r' = r := by
  have hmeets : ∀ part, part <+: calls →
      Transition.Meets (Registry.step M) RemoveFine .empty part := by
    rintro part ⟨rest, rfl⟩
    exact hfine.append_left
  obtain ⟨r, hrun, infos, hreg⟩ := Transition.run_refines (R := fun r m => ∃ infos,
      Registered r infos m) Entries.step
    (fun r call hcall m ⟨infos, hreg⟩ hG => by
      obtain ⟨r', infos', hstep, hreg', _⟩ :=
        hreg.step M (hsucceed call (hbefore.subset hcall)) hG
      exact ⟨r', hstep, infos', hreg'⟩)
    ⟨[], registered_empty⟩ (hmeets before hbefore)
  refine ⟨r, infos, hrun, hreg, fun call hcall => ?_⟩
  have hlast : RemoveFine r call := (hmeets _ hcall).last hrun
  obtain ⟨r', infos', hstep, _, hothers⟩ :=
    hreg.step M (hsucceed call (hcall.subset (by simp))) hlast
  refine ⟨r', hstep, hothers, ?_⟩
  rintro cpu read t rfl habsent
  have hsame := hreg.removeCall_absent M habsent
  exact Except.ok.inj (hstep.symm.trans hsame)

end Remove

end Calls

section Machines

/-- Copy `n` slots from the last to the first. -/
def copyBackward {α : Type} (block : List α) (dst src : Nat) : Nat → List α
  | 0 => block
  | n + 1 =>
      match block[src + n]? with
      | none => block
      | some x => copyBackward (block.set (dst + n) x) dst src n

/-- A `memcpy` that copies overlapping ranges from the back. -/
def backwardMemcpy : Memcpy where
  copy block dst src n :=
    if dst + n ≤ src ∨ src + n ≤ dst then
      block.take dst ++ (block.drop src).take n ++ block.drop (dst + n)
    else copyBackward block dst src n
  copies _ _ _ _ _ _ hdisjoint := if_pos hdisjoint

/-- A create for CPU 0 with the read function 7. -/
def createCall (t : Nat) : OvCall Nat Nat := .create 0 7 t 30000000 allCreated

def removal (t : Nat) : OvCall Nat Nat := .removeCall 0 7 t

theorem registered_run_twoCalls :
    ∃ r infos, Transition.run (Registry.step backwardMemcpy) .empty
        [createCall 1, createCall 2, removal 1] = .ok r ∧
      Registered r infos ([createCall 1, createCall 2, removal 1].foldl Entries.step
        fun _ => []) := by
  have hsucceed : ∀ call ∈ [createCall 1, createCall 2, removal 1], call.Succeeds := by
    simp [createCall, removal, allCreated, OvCall.Succeeds]
  have hfine : Transition.Meets (Registry.step backwardMemcpy) RemoveFine .empty
      [createCall 1, createCall 2, removal 1] := by
    refine ⟨trivial, fun r hr => ⟨trivial, fun r' hr' => ⟨?_, fun _ _ => trivial⟩⟩⟩
    cases hr
    cases hr'
    intro info k hinfo hfind
    cases hinfo
    cases hfind
    decide
  obtain ⟨r, infos, hrun, hreg, _⟩ := registered_run backwardMemcpy hsucceed hfine List.prefix_rfl
  exact ⟨r, infos, hrun, hreg⟩

/-- The registry after three creates and the removal of the first pair. -/
def lostCall : Registry Nat Nat where
  ov.nrThreadInfos := 1
  ov.threadInfos := some [some ⟨0, 1, .initialized, 30000000, 2,
    [some 7, some 7, some 7], [some 3, some 3, some 3]⟩]
  threads := [0]
  overrideUpdateRate := none

/-- **Two pairs behind the removed one**: with a `memcpy` that copies from the back the
second pair is lost and the third is there twice. -/
theorem not_registered_threeCalls :
    Transition.run (Registry.step backwardMemcpy) .empty
        [createCall 1, createCall 2, createCall 3, removal 1] = .ok lostCall ∧
      ∀ infos, ¬ Registered lostCall infos ([createCall 1, createCall 2, createCall 3,
        removal 1].foldl Entries.step fun _ => []) := by
  refine ⟨rfl, fun infos hreg => ?_⟩
  have hlen : 0 < infos.length := by
    rw [← hreg.has.nr]
    decide
  have hload := hreg.has.loadInfo hlen
  have hlists := hreg.lists _ (List.getElem_mem hlen)
  generalize infos[0] = info at hload hlists
  cases hload
  have ht := hlists.t
  revert ht
  decide

end Machines

end OverflowThread
end X86Energy
