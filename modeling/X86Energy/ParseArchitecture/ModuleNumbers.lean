import Mathlib.Data.Finset.Card
import X86Energy.ParseArchitecture.Spanning

/-!
# The numbers of the MODULEs

A MODULE gets the number of children that its DIE has when the MODULE is made.  With the
leaders of the L2 groups first these are the MODULEs and COREs of the CPUs listed before
(`dieBlock_heads`), so the numbers of the MODULEs can be read off the cpulist.  They
differ within a DIE; nothing makes them differ between two DIEs.
-/

namespace X86Energy
namespace ParseArchitecture

open CInt ArchNode GroupCover

/-- What a child of a DIE stands for: an L2 group or a core id. -/
inductive DieChild
  | module (group : List Int)
  | core (id : Int)
deriving DecidableEq, Repr

section Numbers

variable (S : Snapshot)

/-- The child of its DIE that a CPU belongs to: the MODULE of its L2 group if a member of
the group makes one, else the CORE with its core id. -/
def Snapshot.dieChild (cpu : Int) : DieChild :=
  if ∃ m ∈ S.sharedL2 cpu, S.Modular m then .module (S.sharedL2 cpu) else .core (S.coreOf cpu)

/-- How many children of a DIE the CPUs belong to. -/
def Snapshot.childCount (cpus : List Int) : Nat := (cpus.map S.dieChild).dedup.length

/-- A CPU that makes a MODULE: its L2 group is larger than its L1 group, and no member of
the group is listed before. -/
def Snapshot.Leads (pre : List Int) (cpu : Int) : Prop :=
  S.Modular cpu ∧ ∀ m ∈ pre, m ∉ S.sharedL2 cpu

instance (pre : List Int) (cpu : Int) : Decidable (S.Leads pre cpu) :=
  inferInstanceAs (Decidable (_ ∧ _))

/-- The numbers of the MODULEs for the CPUs behind `pre`. -/
def Snapshot.moduleNumbersFrom : List Int → List Int → List Nat
  | _, [] => []
  | pre, cpu :: post =>
      (if S.Leads pre cpu then [S.childCount pre] else []) ++
        moduleNumbersFrom (pre ++ [cpu]) post

/-- The numbers of the MODULEs for a cpulist. -/
def Snapshot.moduleNumbers (cpus : List Int) : List Nat := S.moduleNumbersFrom [] cpus

/-- The MODULEs of different NUMA nodes have different numbers. -/
def ModulesApart : Prop :=
  ∀ n ∈ S.nodes, ∀ n' ∈ S.nodes, n ≠ n' →
    ∀ k ∈ S.moduleNumbers (S.cpulist n), k ∉ S.moduleNumbers (S.cpulist n')

instance : Decidable (ModulesApart S) :=
  inferInstanceAs (Decidable (∀ n ∈ S.nodes, ∀ n' ∈ S.nodes, n ≠ n' → ∀ k ∈ _, k ∉ _))

variable {S}

theorem moduleNumbers_append_singleton (pre : List Int) (cpu : Int) :
    S.moduleNumbers (pre ++ [cpu]) =
      S.moduleNumbers pre ++ if S.Leads pre cpu then [S.childCount pre] else [] := by
  have hfrom : ∀ l start, S.moduleNumbersFrom start (l ++ [cpu]) = S.moduleNumbersFrom start l ++
      if S.Leads (start ++ l) cpu then [S.childCount (start ++ l)] else [] := by
    intro l
    induction l with
    | nil => intro start; simp [Snapshot.moduleNumbersFrom]
    | cons c l ih =>
        intro start
        rw [List.cons_append, Snapshot.moduleNumbersFrom, Snapshot.moduleNumbersFrom, ih]
        simp
  exact hfrom pre []

theorem childCount_append_singleton (pre : List Int) (cpu : Int) :
    S.childCount (pre ++ [cpu]) =
      if S.dieChild cpu ∈ pre.map S.dieChild then S.childCount pre else S.childCount pre + 1 := by
  unfold Snapshot.childCount
  rw [List.map_append, List.map_singleton, ← List.card_toFinset, ← List.card_toFinset,
    List.toFinset_append, List.toFinset_cons, List.toFinset_nil, Finset.union_insert,
    Finset.union_empty]
  split
  · rename_i hmem
    rw [Finset.insert_eq_of_mem (List.mem_toFinset.mpr hmem)]
  · rename_i hmem
    rw [Finset.card_insert_of_notMem fun h => hmem (List.mem_toFinset.mp h)]

theorem childCount_le (cpus : List Int) : S.childCount cpus ≤ cpus.length := by
  have hle := (List.dedup_sublist (cpus.map S.dieChild)).length_le
  rwa [List.length_map] at hle

end Numbers

section Groups

variable {S : Snapshot} {dom : List Int} (h : IsGrouping S.sharedL2 dom) {pre : List Int} {cpu : Int}
include h

theorem dieChild_modular {c : Int} (hc : c ∈ dom) (hmod : S.Modular c) :
    S.dieChild c = .module (S.sharedL2 c) :=
  if_pos ⟨c, h.self c hc, hmod⟩

/-- The members of the L2 group of a MODULE belong to it. -/
theorem dieChild_of_mem_group {m c : Int} (hm : m ∈ dom) (hmod : S.Modular m)
    (hc : c ∈ S.sharedL2 m) : S.dieChild c = S.dieChild m := by
  have hsame := h.same m hm c hc
  rw [dieChild_modular h hm hmod, Snapshot.dieChild, hsame]
  exact if_pos ⟨m, h.self m hm, hmod⟩

variable (hpre : ∀ c ∈ pre, c ∈ dom) (hcpu : cpu ∈ dom)
include hpre

/-- A CPU that is covered belongs to a child that is there. -/
theorem dieChild_of_cover (hcover : cpu ∈ cover S.sharedL2 S.Modular pre) :
    S.dieChild cpu ∈ pre.map S.dieChild := by
  rcases (mem_cover h hpre).mp hcover with hmem | ⟨m, hm, hmod, hgroup⟩
  · exact List.mem_map_of_mem hmem
  · rw [dieChild_of_mem_group h (hpre m hm) hmod hgroup]
    exact List.mem_map_of_mem hm

include hcpu

/-- It makes no MODULE. -/
theorem not_leads_of_cover (hcover : cpu ∈ cover S.sharedL2 S.Modular pre) :
    ¬ S.Leads pre cpu := by
  rintro ⟨_, hfirst⟩
  rcases (mem_cover h hpre).mp hcover with hmem | ⟨m, hm, _, hgroup⟩
  · exact hfirst cpu hmem (h.self cpu hcpu)
  · exact hfirst m hm ((h.mem_comm (hpre m hm) hcpu).mp hgroup)

/-- The MODULE of a CPU that makes one is new. -/
theorem dieChild_of_leads (hleads : S.Leads pre cpu) : S.dieChild cpu ∉ pre.map S.dieChild := by
  rw [dieChild_modular h hcpu hleads.1, List.mem_map]
  rintro ⟨c, hc, hchild⟩
  unfold Snapshot.dieChild at hchild
  split at hchild
  · have hgroup : S.sharedL2 c = S.sharedL2 cpu := DieChild.module.inj hchild
    exact hleads.2 c hc (hgroup ▸ h.self c (hpre c hc))
  · cases hchild

omit hcpu

/-- The children are made one at a time, so no two MODULEs of a DIE have the same number. -/
theorem moduleNumbers_lt :
    (S.moduleNumbers pre).Nodup ∧ ∀ k ∈ S.moduleNumbers pre, k < S.childCount pre := by
  induction pre using List.reverseRecOn with
  | nil => simp [Snapshot.moduleNumbers, Snapshot.moduleNumbersFrom]
  | append_singleton pre cpu ih =>
      have hpre' : ∀ c ∈ pre, c ∈ dom := fun c hc => hpre c (by simp [hc])
      obtain ⟨hnodup, hlt⟩ := ih hpre'
      rw [moduleNumbers_append_singleton, childCount_append_singleton]
      by_cases hleads : S.Leads pre cpu
      · have hnew := dieChild_of_leads h hpre' (hpre cpu (by simp)) hleads
        rw [if_pos hleads, if_neg hnew, List.nodup_append]
        refine ⟨⟨hnodup, List.nodup_singleton _, fun k hk k' hk' heq => ?_⟩, fun k hk => ?_⟩
        · rw [heq, List.mem_singleton.mp hk'] at hk
          exact absurd (hlt _ hk) (Nat.lt_irrefl _)
        · rcases List.mem_append.mp hk with hk | hk
          · exact Nat.lt_succ_of_lt (hlt k hk)
          · rw [List.mem_singleton.mp hk]
            exact Nat.lt_succ_self _
      · rw [if_neg hleads, List.append_nil]
        refine ⟨hnodup, fun k hk => ?_⟩
        have hk := hlt k hk
        split <;> omega

variable {post : List Int} (hfirst : LeaderFirst S.sharedL2 S.Modular (pre ++ cpu :: post))
  (hnot : cpu ∉ cover S.sharedL2 S.Modular pre)
include hcpu hfirst hnot

/-- A CPU with a larger L2 group that is not covered makes a MODULE. -/
theorem leads_of_modular (hmod : S.Modular cpu) : S.Leads pre cpu := by
  refine ⟨hmod, hfirst pre cpu post rfl hmod fun m hm hwhole hgroup => hnot ?_⟩
  exact (mem_cover h hpre).mpr
    (.inr ⟨m, hm, hwhole, (h.mem_comm (hpre m hm) hcpu).mpr hgroup⟩)

/-- A CPU without one that is not covered makes a CORE or joins one: the leader of its group
would have come first. -/
theorem dieChild_of_plain (hmod : ¬ S.Modular cpu) (hall : ∀ c ∈ dom, c ∈ pre ++ cpu :: post) :
    S.dieChild cpu = .core (S.coreOf cpu) := by
  refine if_neg ?_
  rintro ⟨m, hm, hwhole⟩
  have hbefore : ∀ c ∈ pre, S.Modular c → c ∉ S.sharedL2 cpu := fun c hc hw hgroup =>
    hnot ((mem_cover h hpre).mpr (.inr ⟨c, hc, hw, (h.mem_comm (hpre c hc) hcpu).mpr hgroup⟩))
  have hpost : m ∈ post := by
    rcases List.mem_append.mp (hall m (h.closed cpu hcpu m hm)) with hpre | hpost
    · exact absurd hm (hbefore m hpre hwhole)
    · rcases List.mem_cons.mp hpost with rfl | hpost
      · exact absurd hwhole hmod
      · exact hpost
  obtain ⟨before, x, rest, rfl, hbetween, hx⟩ :=
    exists_first (P := fun c => ¬ (S.Modular c ∧ c ∈ S.sharedL2 cpu)) ⟨m, hpost, not_not.mpr ⟨hwhole, hm⟩⟩
  obtain ⟨hxwhole, hxgroup⟩ := not_not.mp hx
  have hsame := h.same cpu hcpu x hxgroup
  refine hfirst (pre ++ cpu :: before) x rest (by simp) hxwhole (fun c hc hw => ?_) cpu (by simp)
    (hsame ▸ h.self cpu hcpu)
  rw [hsame]
  rcases List.mem_append.mp hc with hc | hc
  · exact hbefore c hc hw
  · rcases List.mem_cons.mp hc with rfl | hc
    · exact absurd hw hmod
    · exact fun hgroup => hbetween c hc ⟨hw, hgroup⟩

end Groups

section Heads

/-- Granularity and id of the nodes of an array. -/
def heads (cs : List ArchNode) : List (Granularity × Int) :=
  cs.map fun c => (c.granularity, c.id)

theorem id_withThread (cpu : Int) (c : ArchNode) : (withThread cpu c).id = c.id := by
  unfold withThread
  cases findChild (c.children.map ArchNode.id) cpu <;> simp

theorem map_modify_same {α β : Type*} {f : α → β} {g : α → α} (h : ∀ x, f (g x) = f x)
    (l : List α) (k : Nat) : (l.modify k g).map f = l.map f := by
  induction l generalizing k with
  | nil => simp
  | cons a l ih =>
      cases k with
      | zero => simp [h]
      | succ k => simp [ih]

theorem heads_placeThread (children : List ArchNode) (core cpu : Int) :
    heads (placeThread children core cpu) =
      if core ∈ children.map ArchNode.id then heads children
      else heads children ++ [(.core, toInt32 core)] := by
  unfold placeThread heads
  cases hfind : findChild (children.map ArchNode.id) core with
  | none =>
      rw [if_neg (findChild_eq_none.mp hfind), List.map_append]
      rfl
  | some k =>
      rw [if_pos (List.mem_of_getElem? (findChild_some hfind))]
      exact map_modify_same (fun c => by rw [granularity_withThread, id_withThread]) children k

theorem heads_module (children : List ArchNode) (position : Nat) (cs : List ArchNode) :
    heads (children ++ [moduleNode position cs]) =
      heads children ++ [(.module, toInt32 position)] := by
  have hid : (moduleNode position cs).id = toInt32 position := by rw [moduleNode, id_node]
  have hg : (moduleNode position cs).granularity = .module := by rw [moduleNode, granularity_node]
  rw [heads, List.map_append, List.map_singleton, hid, hg, heads]

/-- The ids of the MODULEs below a DIE. -/
theorem idsAt_module {cs : List ArchNode} (h : DieLayer cs) :
    cs.flatMap (idsAt .module) =
      ((heads cs).filter fun head => head.1 = .module).map Prod.snd := by
  induction cs with
  | nil => rfl
  | cons c cs ih =>
      have hrest := ih fun x hx => h x (by simp [hx])
      have hnone : ∀ x : ArchNode, x.IsCore → idsAt .module x = [] := by
        intro x hx
        rw [idsAt_of_ne (by rw [hx.1]; decide), List.flatMap_eq_nil_iff]
        intro t ht
        rw [idsAt_of_ne (by rw [(hx.2.2 t ht).1]; decide), (hx.2.2 t ht).2]
        rfl
      rw [List.flatMap_cons, hrest]
      unfold heads
      rw [List.map_cons, List.filter_cons]
      rcases h c (by simp) with hmodule | hcore
      · have hbelow : c.children.flatMap (idsAt .module) = [] :=
          List.flatMap_eq_nil_iff.mpr fun x hx => hnone x (hmodule.2.2 x hx)
        rw [idsAt_eq, if_pos hmodule.1, hbelow, if_pos (by simpa using hmodule.1)]
        rfl
      · rw [hnone c hcore, if_neg (by simp [hcore.1])]
        rfl

/-- The children of a DIE, as far as the CPUs of a list tell them. -/
structure DieHeads (S : Snapshot) (pre : List Int) (hs : List (Granularity × Int)) : Prop where
  count : hs.length = S.childCount pre
  cores : ∀ k, (.core, k) ∈ hs ↔ .core k ∈ pre.map S.dieChild
  modules : (hs.filter fun head => head.1 = .module).map Prod.snd =
    (S.moduleNumbers pre).map fun k : Nat => toInt32 k

variable {S : Snapshot} {pre : List Int} {hs : List (Granularity × Int)} {cpu : Int}

/-- A CPU that makes no MODULE and whose child is there changes nothing. -/
theorem DieHeads.stay (h : DieHeads S pre hs) (hchild : S.dieChild cpu ∈ pre.map S.dieChild)
    (hleads : ¬ S.Leads pre cpu) : DieHeads S (pre ++ [cpu]) hs where
  count := by rw [childCount_append_singleton, if_pos hchild, h.count]
  cores k := by
    rw [h.cores, List.map_append, List.map_singleton, List.mem_append, List.mem_singleton]
    exact ⟨.inl, fun hk => hk.elim id fun heq => heq ▸ hchild⟩
  modules := by rw [moduleNumbers_append_singleton, if_neg hleads, List.append_nil, h.modules]

/-- A new child, with what it adds to the numbers of the MODULEs. -/
theorem DieHeads.push (h : DieHeads S pre hs) {head : Granularity × Int}
    (hnew : S.dieChild cpu ∉ pre.map S.dieChild)
    (hhead : ∀ k, (.core, k) = head ↔ .core k = S.dieChild cpu)
    (hmodules : ([head].filter fun head => head.1 = .module).map Prod.snd =
      ((if S.Leads pre cpu then [hs.length] else []).map fun k : Nat => toInt32 k)) :
    DieHeads S (pre ++ [cpu]) (hs ++ [head]) where
  count := by
    rw [childCount_append_singleton, if_neg hnew, List.length_append, List.length_singleton,
      h.count]
  cores k := by
    rw [List.map_append, List.map_singleton, List.mem_append, List.mem_append, List.mem_singleton,
      List.mem_singleton, h.cores, hhead]
  modules := by
    rw [moduleNumbers_append_singleton, List.filter_append, List.map_append, List.map_append,
      h.modules, hmodules, h.count]

/-- A new CORE. -/
theorem DieHeads.core (h : DieHeads S pre hs) (hchild : S.dieChild cpu = .core (S.coreOf cpu))
    (hnew : S.dieChild cpu ∉ pre.map S.dieChild) (hleads : ¬ S.Leads pre cpu) :
    DieHeads S (pre ++ [cpu]) (hs ++ [(.core, S.coreOf cpu)]) := by
  refine h.push hnew (fun k => ?_) ?_
  · rw [hchild]
    simp
  · rw [if_neg hleads]
    rfl

/-- A new MODULE. -/
theorem DieHeads.module (h : DieHeads S pre hs)
    (hchild : S.dieChild cpu = .module (S.sharedL2 cpu))
    (hnew : S.dieChild cpu ∉ pre.map S.dieChild) (hleads : S.Leads pre cpu) :
    DieHeads S (pre ++ [cpu]) (hs ++ [(.module, toInt32 hs.length)]) := by
  refine h.push hnew (fun k => ?_) ?_
  · rw [hchild]
    simp
  · rw [if_pos hleads]
    simp

/-- The core id of a CPU is taken exactly if a CORE has it, as no MODULE is found by it. -/
theorem coreOf_mem_ids_iff {cs : List ArchNode} (hlayer : DieLayer cs) (hplain : ¬ S.Modular cpu)
    (hfree : ¬ FindsModule S cs cpu) :
    S.coreOf cpu ∈ cs.map ArchNode.id ↔ (.core, S.coreOf cpu) ∈ heads cs := by
  rw [heads, List.mem_map, List.mem_map]
  constructor
  · intro hmem
    cases hfound : findChild (cs.map ArchNode.id) (S.coreOf cpu) with
    | none => exact absurd (List.mem_map.mpr hmem) (findChild_eq_none.mp hfound)
    | some k =>
        obtain ⟨c, hk, hid⟩ := findChild_map_some hfound
        have hc := List.mem_of_getElem? hk
        refine ⟨c, hc, ?_⟩
        rcases hlayer c hc with hmodule | hcore
        · exact absurd ⟨hplain, k, c, hfound, hk, hmodule.1⟩ hfree
        · rw [hcore.1, hid]
  · rintro ⟨c, hc, heq⟩
    exact ⟨c, hc, (Prod.mk.inj heq).2⟩

/-- **The children of a DIE that is built on its own**, when the leaders come first. -/
theorem dieBlock_heads (hS : Consistent S) (hcore : ∀ cpu ∈ S.online, IsInt32 (S.coreOf cpu))
    (havoid : AvoidsModules S) {n : Int} (hn : n ∈ S.nodes)
    (hfirst : LeaderFirst S.sharedL2 S.Modular (S.cpulist n)) (pre post : List Int)
    (hsplit : S.cpulist n = pre ++ post) : DieHeads S pre (heads (dieBlock S pre)) := by
  induction pre using List.reverseRecOn generalizing post with
  | nil => exact ⟨rfl, by simp [dieBlock, heads], rfl⟩
  | append_singleton pre cpu ih =>
      rw [List.append_assoc, List.singleton_append] at hsplit
      have ih := ih (cpu :: post) hsplit
      obtain ⟨hlayer, hthreads⟩ := dieBlock_threads hS havoid hn pre (cpu :: post) hsplit
      have hgroups := hS.groups n hn
      have hpre : ∀ c ∈ pre, c ∈ S.cpulist n := fun c hc => by rw [hsplit]; simp [hc]
      have hcpu : cpu ∈ S.cpulist n := by rw [hsplit]; simp
      have hfind : findCpuAny (toInt32 cpu) (dieBlock S pre) = true ↔
          cpu ∈ cover S.sharedL2 S.Modular pre := by
        rw [toInt32_of_isInt32 (hS.cpuInt cpu (mem_online hn hcpu)), hlayer.findCpuAny_iff,
          hthreads.mem_iff]
      rw [dieBlock_append_singleton, dieStep]
      by_cases hthere : cpu ∈ cover S.sharedL2 S.Modular pre
      · rw [if_pos (hfind.mpr hthere)]
        exact ih.stay (dieChild_of_cover hgroups hpre hthere)
          (not_leads_of_cover hgroups hpre hcpu hthere)
      · have hnot : findCpuAny (toInt32 cpu) (dieBlock S pre) = false :=
          Bool.eq_false_iff.mpr fun h => hthere (hfind.mp h)
        rw [if_neg (by simp [hnot])]
        rw [hsplit] at hfirst
        by_cases hmod : S.Modular cpu
        · have hleads := leads_of_modular hgroups hpre hcpu hfirst hthere hmod
          have hlen : (heads (dieBlock S pre)).length = (dieBlock S pre).length :=
            List.length_map _
          rw [place_modular hmod, heads_module, ← hlen]
          exact ih.module (dieChild_modular hgroups hcpu hmod)
            (dieChild_of_leads hgroups hpre hcpu hleads) hleads
        · have hchild := dieChild_of_plain hgroups hpre hcpu hfirst hthere hmod
            fun c hc => hsplit ▸ hc
          have hleads : ¬ S.Leads pre cpu := fun h => hmod h.1
          have hids : S.coreOf cpu ∈ (dieBlock S pre).map ArchNode.id ↔
              S.dieChild cpu ∈ pre.map S.dieChild := by
            rw [coreOf_mem_ids_iff hlayer hmod (havoid n hn pre cpu post hsplit hnot), ih.cores,
              hchild]
          rw [place_plain hmod, heads_placeThread]
          by_cases htaken : S.coreOf cpu ∈ (dieBlock S pre).map ArchNode.id
          · rw [if_pos htaken]
            exact ih.stay (hids.mp htaken) hleads
          · rw [if_neg htaken, toInt32_of_isInt32 (hcore cpu (mem_online hn hcpu))]
            exact ih.core hchild (fun h => htaken (hids.mpr h)) hleads

end Heads

end ParseArchitecture
end X86Energy
