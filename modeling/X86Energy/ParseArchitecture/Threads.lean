import X86Energy.ParseArchitecture.Layering

/-!
# The THREADs of a tree

`threads` lists the numbers of the THREADs of a tree.  The counting functions of
the library agree with it when THREADs are leaves, sorting permutes it, the
renumbering of a layered tree keeps it, and a round that finds no MODULE adds
exactly the CPUs it is meant to add.
-/

namespace X86Energy

open CInt

namespace ArchNode

section Levels

/-- The nodes of one granularity, in the order of the tree. -/
def level (g : Granularity) (t : ArchNode) : List ArchNode :=
  t.preorder.filter fun x => x.granularity = g

theorem mem_level {g : Granularity} {t x : ArchNode} :
    x ∈ level g t ↔ x ∈ t.preorder ∧ x.granularity = g := by
  rw [level, List.mem_filter, decide_eq_true_eq]

theorem level_eq (g : Granularity) (t : ArchNode) :
    level g t = (if t.granularity = g then [t] else []) ++ t.children.flatMap (level g) := by
  unfold level
  rw [preorder_eq_cons, List.filter_cons, List.filter_flatMap]
  by_cases h : t.granularity = g
  · simp [h]
  · simp [h]

theorem level_of_ne {g : Granularity} {t : ArchNode} (h : t.granularity ≠ g) :
    level g t = t.children.flatMap (level g) := by
  rw [level_eq, if_neg h, List.nil_append]

/-- The ids of the nodes of one granularity, in the order of the tree. -/
def idsAt (g : Granularity) (t : ArchNode) : List Int := (level g t).map ArchNode.id

theorem idsAt_eq (g : Granularity) (t : ArchNode) :
    idsAt g t = (if t.granularity = g then [t.id] else []) ++ t.children.flatMap (idsAt g) := by
  unfold idsAt
  rw [level_eq, List.map_append, List.map_flatMap]
  by_cases h : t.granularity = g
  · simp [h]
  · simp [h]

theorem idsAt_node (g g' : Granularity) (i : Int) (n : Option String) (cs : List ArchNode) :
    idsAt g (node g' i n cs) = (if g' = g then [i] else []) ++ cs.flatMap (idsAt g) :=
  idsAt_eq g (node g' i n cs)

theorem idsAt_of_ne {g : Granularity} {t : ArchNode} (h : t.granularity ≠ g) :
    idsAt g t = t.children.flatMap (idsAt g) := by
  rw [idsAt_eq, if_neg h, List.nil_append]

/-- No node of granularity `g` lies below another one. -/
def Unnested (g : Granularity) (t : ArchNode) : Prop :=
  ∀ x ∈ t.preorder, x.granularity = g → ∀ c ∈ x.children, level g c = []

theorem Unnested.child {g : Granularity} {t c : ArchNode} (h : t.Unnested g)
    (hc : c ∈ t.children) : c.Unnested g :=
  fun x hx => h x (mem_preorder_of_mem_children hc hx)

/-- `x86_energy_arch_count` counts a level if it does not have to look below its
nodes. -/
theorem archCount_eq_length {g : Granularity} {t : ArchNode} (h : t.Unnested g) :
    archCount g t = (level g t).length := by
  induction t using induct with
  | h g' i n cs ih =>
      rw [archCount, level_eq, granularity_node, children_node]
      by_cases hg : g' = g
      · have hnil : cs.flatMap (level g) = [] :=
          List.flatMap_eq_nil_iff.mpr fun c hc => h _ (self_mem_preorder _) hg c hc
        simp [hg, hnil]
      · rw [if_neg hg, if_neg hg, List.nil_append, archCountSum_eq_sum, List.length_flatMap]
        congr 1
        apply List.map_congr_left
        exact fun c hc => ih c hc (h.child hc)

end Levels

/-- The numbers of the THREADs of a tree. -/
def threads (t : ArchNode) : List Int :=
  (t.preorder.filter (fun x => x.granularity = .thread)).map ArchNode.id

/-- The THREADs below an array of children. -/
def blockThreads (cs : List ArchNode) : List Int := cs.flatMap threads

theorem threads_eq (t : ArchNode) :
    t.threads = (if t.granularity = .thread then [t.id] else []) ++ blockThreads t.children :=
  idsAt_eq .thread t

theorem threads_of_ne {t : ArchNode} (h : t.granularity ≠ .thread) :
    t.threads = blockThreads t.children := by
  rw [threads_eq, if_neg h, List.nil_append]

theorem IsThread.threads {t : ArchNode} (h : t.IsThread) : t.threads = [t.id] := by
  rw [threads_eq, if_pos h.1, h.2]
  rfl

theorem IsCore.ne_thread {t : ArchNode} (h : t.IsCore) : t.granularity ≠ .thread := by
  rw [h.1]
  decide

theorem IsModule.ne_thread {t : ArchNode} (h : t.IsModule) : t.granularity ≠ .thread := by
  rw [h.1]
  decide

theorem blockThreads_eq_map {cs : List ArchNode} (h : ∀ c ∈ cs, c.IsThread) :
    blockThreads cs = cs.map ArchNode.id := by
  induction cs with
  | nil => rfl
  | cons c cs ih =>
      unfold blockThreads at ih ⊢
      rw [List.flatMap_cons, (h c (by simp)).threads, ih (fun x hx => h x (by simp [hx]))]
      rfl

theorem IsCore.threads {t : ArchNode} (h : t.IsCore) :
    t.threads = t.children.map ArchNode.id := by
  rw [threads_of_ne h.ne_thread, blockThreads_eq_map h.2.2]

@[simp] theorem blockThreads_nil : blockThreads [] = [] := rfl

@[simp] theorem blockThreads_append (cs ds : List ArchNode) :
    blockThreads (cs ++ ds) = blockThreads cs ++ blockThreads ds := by
  simp [blockThreads]

@[simp] theorem blockThreads_singleton (c : ArchNode) : blockThreads [c] = c.threads := by
  simp [blockThreads]

theorem mem_blockThreads {cs : List ArchNode} {cpu : Int} :
    cpu ∈ blockThreads cs ↔ ∃ c ∈ cs, cpu ∈ c.threads := List.mem_flatMap

theorem blockThreads_perm {cs ds : List ArchNode} (h : cs.Perm ds) :
    (blockThreads cs).Perm (blockThreads ds) := h.flatMap_right _

section Leaves

/-- The THREADs of the tree have no children. -/
def ThreadsAreLeaves (t : ArchNode) : Prop :=
  ∀ x ∈ t.preorder, x.granularity = .thread → x.children = []

theorem ThreadsAreLeaves.child {g : Granularity} {i : Int} {n : Option String}
    {cs : List ArchNode} (h : ThreadsAreLeaves (node g i n cs)) {c : ArchNode} (hc : c ∈ cs) :
    c.ThreadsAreLeaves :=
  fun x hx => h x (mem_preorder_of_mem_children (by simpa using hc) hx)

/-- `find_cpu` looks for a THREAD. -/
theorem findCpu_iff {t : ArchNode} (h : t.ThreadsAreLeaves) (cpu : Int) :
    findCpu cpu t = true ↔ cpu ∈ t.threads := by
  induction t using induct with
  | h g i n cs ih =>
      rw [findCpu, threads_eq, granularity_node, children_node, id_node]
      by_cases hg : g = .thread
      · have hnil : cs = [] := h _ (self_mem_preorder _) hg
        simp [hg, hnil, eq_comm]
      · rw [if_neg hg, if_neg hg, List.nil_append, mem_blockThreads, findCpuAny_eq_any,
          List.any_eq_true]
        constructor
        · rintro ⟨c, hc, hfind⟩
          exact ⟨c, hc, (ih c hc (h.child hc)).mp hfind⟩
        · rintro ⟨c, hc, hmem⟩
          exact ⟨c, hc, (ih c hc (h.child hc)).mpr hmem⟩

/-- `x86_energy_arch_count` counts the THREADs. -/
theorem archCount_thread {t : ArchNode} (h : t.ThreadsAreLeaves) :
    archCount .thread t = t.threads.length := by
  have hnested : t.Unnested .thread := by
    intro x hx hg c hc
    rw [h x hx hg] at hc
    cases hc
  rw [archCount_eq_length hnested, threads, List.length_map, level]

theorem IsThread.leaves {t : ArchNode} (h : t.IsThread) : t.ThreadsAreLeaves := by
  intro x hx _
  rw [preorder_eq_cons, h.2] at hx
  rw [List.mem_singleton.mp hx]
  exact h.2

/-- THREADs are leaves if the node is not a THREAD and they are below each child. -/
theorem leaves_of_children {t : ArchNode} (hne : t.granularity ≠ .thread)
    (h : ∀ c ∈ t.children, c.ThreadsAreLeaves) : t.ThreadsAreLeaves := by
  intro x hx hthread
  rw [preorder_eq_cons] at hx
  rcases List.mem_cons.mp hx with rfl | hx
  · exact absurd hthread hne
  · obtain ⟨c, hc, hxc⟩ := List.mem_flatMap.mp hx
    exact h c hc x hxc hthread

theorem IsCore.leaves {t : ArchNode} (h : t.IsCore) : t.ThreadsAreLeaves :=
  leaves_of_children h.ne_thread fun c hc => (h.2.2 c hc).leaves

theorem IsModule.leaves {t : ArchNode} (h : t.IsModule) : t.ThreadsAreLeaves :=
  leaves_of_children h.ne_thread fun c hc => (h.2.2 c hc).leaves

theorem DieLayer.leaves {cs : List ArchNode} (h : DieLayer cs) :
    ∀ c ∈ cs, c.ThreadsAreLeaves := by
  intro c hc
  rcases h c hc with hm | hcore
  · exact hm.leaves
  · exact hcore.leaves

/-- `find_cpu` in an array. -/
theorem findCpuAny_iff {cpu : Int} {cs : List ArchNode}
    (hleaves : ∀ c ∈ cs, c.ThreadsAreLeaves) :
    findCpuAny cpu cs = true ↔ cpu ∈ blockThreads cs := by
  rw [findCpuAny_eq_any, List.any_eq_true, mem_blockThreads]
  constructor
  · rintro ⟨c, hc, hfind⟩
    exact ⟨c, hc, (findCpu_iff (hleaves c hc) cpu).mp hfind⟩
  · rintro ⟨c, hc, hmem⟩
    exact ⟨c, hc, (findCpu_iff (hleaves c hc) cpu).mpr hmem⟩

theorem DieLayer.findCpuAny_iff {cs : List ArchNode} (h : DieLayer cs) (cpu : Int) :
    findCpuAny cpu cs = true ↔ cpu ∈ blockThreads cs :=
  ArchNode.findCpuAny_iff h.leaves

theorem Layered.leaves {t : ArchNode} (h : t.Layered) : t.ThreadsAreLeaves := by
  refine leaves_of_children (by rw [h.1]; decide) fun s hs => ?_
  refine leaves_of_children (by rw [(h.2 s hs).1]; decide) fun d hd => ?_
  have hdie := (h.2 s hs).2.2 d hd
  exact leaves_of_children (by rw [hdie.1]; decide) hdie.2.2.leaves

/-- In a layered tree the SOCKETs are the children of the root. -/
theorem Layered.archCount_socket {t : ArchNode} (h : t.Layered) :
    archCount .socket t = t.children.length := by
  cases t with
  | node g i n cs =>
      obtain ⟨hg, hsockets⟩ := h
      have hg : g = .system := hg
      have hone : ∀ c ∈ cs, archCount .socket c = 1 := by
        intro c hc
        cases c with
        | node g' i' n' cs' =>
            have hg' : g' = .socket := (hsockets _ hc).1
            rw [archCount, if_pos hg']
      rw [archCount, if_neg (by rw [hg]; decide), archCountSum_eq_sum,
        List.map_congr_left hone]
      simp

end Leaves

/-- Sorting permutes every level. -/
theorem idsAt_sortChildrenRecursive (g : Granularity) (t : ArchNode) :
    (idsAt g (sortChildrenRecursive t)).Perm (idsAt g t) := by
  induction t using induct with
  | h g' i n cs ih =>
      rw [sortChildrenRecursive_node, idsAt_node, idsAt_node]
      apply List.Perm.append_left
      refine ((sortBlock_perm cs).flatMap_right _).trans ?_
      rw [List.flatMap_map]
      exact List.Perm.flatMap_left _ ih

/-- Sorting permutes the THREADs. -/
theorem threads_sortChildrenRecursive (t : ArchNode) :
    (sortChildrenRecursive t).threads.Perm t.threads :=
  idsAt_sortChildrenRecursive .thread t

theorem threads_sortBlock (cs : List ArchNode) :
    (blockThreads (sortBlock cs)).Perm (blockThreads cs) := by
  refine (blockThreads_perm (sortBlock_perm cs)).trans ?_
  unfold blockThreads
  rw [List.flatMap_map]
  exact List.Perm.flatMap_left _ fun c _ => threads_sortChildrenRecursive c

end ArchNode

namespace ParseArchitecture

open ArchNode

section Place

@[simp] theorem threads_threadNode (cpu : Int) : (threadNode cpu).threads = [toInt32 cpu] :=
  (threadNode_isThread cpu).threads

@[simp] theorem threads_coreNode (core cpu : Int) :
    (coreNode core cpu).threads = [toInt32 cpu] := by
  rw [(coreNode_isCore core cpu).threads]
  rfl

theorem threads_moduleNode (position : Nat) (cs : List ArchNode) :
    (moduleNode position cs).threads = blockThreads cs :=
  threads_of_ne (t := moduleNode position cs) (by simp [moduleNode])

theorem mem_blockThreads_of_core {cs : List ArchNode} {core : ArchNode} (hc : core ∈ cs)
    (hcore : core.IsCore) {cpu : Int} (h : cpu ∈ core.children.map ArchNode.id) :
    cpu ∈ blockThreads cs :=
  mem_blockThreads.mpr ⟨core, hc, by rwa [hcore.threads]⟩

theorem blockThreads_modify {cs : List ArchNode} {k : Nat} {c : ArchNode} (hk : cs[k]? = some c)
    {f : ArchNode → ArchNode} {new : List Int} (hf : (f c).threads = c.threads ++ new) :
    (blockThreads (cs.modify k f)).Perm (blockThreads cs ++ new) := by
  obtain ⟨hlt, rfl⟩ := List.getElem?_eq_some_iff.mp hk
  rw [List.modify_eq_take_cons_drop hlt]
  have hsplit : cs = cs.take k ++ [cs[k]] ++ cs.drop (k + 1) := by simp
  have hold : blockThreads cs = blockThreads (cs.take k) ++ (cs[k]).threads ++
      blockThreads (cs.drop (k + 1)) := by
    conv_lhs => rw [hsplit]
    rw [blockThreads_append, blockThreads_append, blockThreads_singleton]
  rw [hold, blockThreads_append, ← List.singleton_append, blockThreads_append,
    blockThreads_singleton, hf]
  simp only [List.append_assoc]
  exact ((List.perm_append_comm).append_left _).append_left _

/-- A CPU that is not there yet is added if the node found for its core is a CORE. -/
theorem placeThread_threads {children : List ArchNode} (core : Int) {cpu : Int}
    (hcpu : IsInt32 cpu) (hnot : cpu ∉ blockThreads children)
    (hfound : ∀ k found, findChild (children.map ArchNode.id) core = some k →
      children[k]? = some found → found.IsCore) :
    (blockThreads (placeThread children core cpu)).Perm (blockThreads children ++ [cpu]) := by
  unfold placeThread
  cases hfind : findChild (children.map ArchNode.id) core with
  | none => simp [toInt32_of_isInt32 hcpu]
  | some k =>
      obtain ⟨found, hk, _⟩ := findChild_map_some hfind
      have hcore := hfound k found hfind hk
      apply blockThreads_modify hk
      have hnone : findChild (found.children.map ArchNode.id) cpu = none :=
        findChild_eq_none.mpr fun hmem =>
          hnot (mem_blockThreads_of_core (List.mem_of_getElem? hk) hcore hmem)
      rw [(withThread_isCore hcore).threads, hcore.threads]
      unfold withThread
      rw [hnone, children_setChildren, List.map_append]
      simp [threadNode, toInt32_of_isInt32 hcpu]

/-- A group of distinct CPUs is added as it is. -/
theorem placeGroup_threads (coreOf : Int → Int) {cpus : List Int}
    (hcpus : ∀ cpu ∈ cpus, IsInt32 cpu) (hnodup : cpus.Nodup) {children : List ArchNode}
    (hcores : ∀ c ∈ children, c.IsCore) (hnew : ∀ cpu ∈ cpus, cpu ∉ blockThreads children) :
    (blockThreads (placeGroup coreOf children cpus)).Perm (blockThreads children ++ cpus) := by
  induction cpus generalizing children with
  | nil => simp [placeGroup]
  | cons cpu cpus ih =>
      obtain ⟨hcpu, hnodup⟩ := List.nodup_cons.mp hnodup
      have hplace := placeThread_threads (coreOf cpu) (hcpus cpu (by simp))
        (hnew cpu (by simp)) (fun _ found _ hk => hcores found (List.mem_of_getElem? hk))
      have hrest : ∀ c ∈ cpus, c ∉ blockThreads (placeThread children (coreOf cpu) cpu) := by
        intro c hc hmem
        rcases List.mem_append.mp (hplace.mem_iff.mp hmem) with hmem | hmem
        · exact hnew c (by simp [hc]) hmem
        · rw [List.mem_singleton.mp hmem] at hc
          exact hcpu hc
      have hgroup := ih (fun c hc => hcpus c (by simp [hc])) hnodup
        (placeThread_isCore hcores (coreOf cpu) cpu) hrest
      have hsplit : cpu :: cpus = [cpu] ++ cpus := rfl
      rw [hsplit, ← List.append_assoc]
      exact hgroup.trans (hplace.append_right cpus)

/-- The round of a plain CPU finds a MODULE by the id of the CPU's core. -/
def FindsModule (S : Snapshot) (children : List ArchNode) (cpu : Int) : Prop :=
  ¬ S.Modular cpu ∧ ∃ k found, findChild (children.map ArchNode.id) (S.coreOf cpu) = some k ∧
    children[k]? = some found ∧ found.granularity = .module

instance (S : Snapshot) (children : List ArchNode) (cpu : Int) :
    Decidable (FindsModule S children cpu) :=
  decidable_of_iff (¬ S.Modular cpu ∧
      ((findChild (children.map ArchNode.id) (S.coreOf cpu)).bind fun k =>
        children[k]?).map ArchNode.granularity = some .module) (by
    unfold FindsModule
    simp only [Option.map_eq_some_iff, Option.bind_eq_some_iff]
    constructor
    · rintro ⟨hmod, found, ⟨k, hfind, hk⟩, hg⟩
      exact ⟨hmod, k, found, hfind, hk, hg⟩
    · rintro ⟨hmod, k, found, hfind, hk, hg⟩
      exact ⟨hmod, found, ⟨k, hfind, hk⟩, hg⟩)

theorem HitsModule.findsModule {S : Snapshot} {children : List ArchNode} {cpu : Int}
    (h : HitsModule S children cpu) : FindsModule S children cpu := by
  obtain ⟨hmod, k, found, hfind, hk, hmodule, _⟩ := h
  exact ⟨hmod, k, found, hfind, hk, hmodule⟩

/-- **The CPUs that a round adds**: the L2 group of the CPU if it makes a MODULE, else
the CPU. -/
theorem place_threads {S : Snapshot} {children : List ArchNode} {cpu : Int}
    (hlayer : DieLayer children) (hmodule : ¬ FindsModule S children cpu)
    (hcpu : IsInt32 cpu) (hgroup : ∀ c ∈ S.sharedL2 cpu, IsInt32 c)
    (hnodup : (S.sharedL2 cpu).Nodup) (hnot : cpu ∉ blockThreads children) :
    (blockThreads (S.place children cpu)).Perm
      (blockThreads children ++ if S.Modular cpu then S.sharedL2 cpu else [cpu]) := by
  by_cases hmod : S.Modular cpu
  · rw [place_modular hmod, if_pos hmod, blockThreads_append, blockThreads_singleton,
      threads_moduleNode]
    apply List.Perm.append_left
    exact placeGroup_threads S.coreOf hgroup hnodup (by simp) (by simp)
  · rw [place_plain hmod, if_neg hmod]
    apply placeThread_threads _ hcpu hnot
    intro k found hfind hk
    rcases hlayer found (List.mem_of_getElem? hk) with hm | hcore
    · exact absurd ⟨hmod, k, found, hfind, hk, hm.1⟩ hmodule
    · exact hcore

end Place

end ParseArchitecture

end X86Energy
