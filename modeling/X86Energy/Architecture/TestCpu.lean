import X86Energy.Architecture.Mechanism
import X86Energy.ParseArchitecture.Shape
import X86Energy.ParseArchitecture.Spanning

/-!
# Which indices of a granularity work

A client runs over the indices below `x86_energy_arch_count`, while `get_test_cpu`
searches the tree for the id of a node.  On a finished tree without a repeated CPU the two
fit together at a granularity exactly if its nodes have the ids 0, 1, … (`worksAt_iff`).  The
COREs are renumbered for this; the SOCKETs keep the numbers of the kernel.
-/

namespace X86Energy

open CInt

namespace ArchNode

section Enumeration

/-- The ids of a level, as `find_node_internal` compares them. -/
def levelIds (g : Granularity) (t : ArchNode) : List Nat :=
  (level g t).map fun x => toSize x.id

/-- Every number below the count of a granularity is the id of one of its nodes. -/
def Numbered (t : ArchNode) (g : Granularity) : Prop :=
  ∀ index < archCount g t, ∃ x ∈ t.preorder, x.granularity = g ∧ toSize x.id = index

/-- A list that contains the numbers below its length consists of them. -/
theorem perm_range_iff {l : List Nat} :
    l.Perm (List.range l.length) ↔ ∀ i < l.length, i ∈ l := by
  constructor
  · exact fun h i hi => h.mem_iff.mpr (List.mem_range.mpr hi)
  · intro h
    have hsub : List.Subperm (List.range l.length) l :=
      List.nodup_range.subperm fun i hi => h i (List.mem_range.mp hi)
    exact (hsub.perm_of_length_le (by rw [List.length_range])).symm

theorem numbered_iff {g : Granularity} {t : ArchNode} (h : t.Unnested g) :
    Numbered t g ↔ (levelIds g t).Perm (List.range (levelIds g t).length) := by
  rw [perm_range_iff, Numbered, archCount_eq_length h, levelIds, List.length_map]
  simp only [List.mem_map, mem_level, and_assoc]

/-- The ids of a numbered level are distinct. -/
theorem Numbered.nodup {g : Granularity} {t : ArchNode} (h : t.Unnested g)
    (hnumbered : Numbered t g) : (levelIds g t).Nodup :=
  ((numbered_iff h).mp hnumbered).nodup_iff.mpr List.nodup_range

end Enumeration

section TestCpu

theorem preorder_trans {t x y : ArchNode} (hx : x ∈ t.preorder) (hy : y ∈ x.preorder) :
    y ∈ t.preorder := by
  induction t using induct with
  | h g i n cs ih =>
      rw [preorder_eq_cons] at hx
      rcases List.mem_cons.mp hx with rfl | hx
      · exact hy
      · obtain ⟨c, hc, hxc⟩ := List.mem_flatMap.mp hx
        exact mem_preorder_of_mem_children hc (ih c hc hxc)

theorem mem_threads {t : ArchNode} {cpu : Int} :
    cpu ∈ t.threads ↔ ∃ x ∈ t.preorder, x.granularity = .thread ∧ x.id = cpu := by
  simp only [threads, List.mem_map, List.mem_filter, decide_eq_true_eq, and_assoc]

/-- `get_test_cpu` with an id that exists: a CPU below a node with this id. -/
theorem getTestCpu_spec {t : ArchNode} (h : t.Populated) {g : Granularity} {index : Nat}
    (hid : ∃ x ∈ t.preorder, x.granularity = g ∧ toSize x.id = index) :
    ∃ found ∈ t.preorder, found.granularity = g ∧ toSize found.id = index ∧
      ∃ cpu, getTestCpu t g index = some cpu ∧ cpu ∈ found.threads ∧ cpu ∈ t.threads := by
  obtain ⟨x, hx, hg, hxid⟩ := hid
  obtain ⟨found, hfind⟩ := findNodeInternal_isSome hx hg hxid
  obtain ⟨hfound, hfg, hfid⟩ := findNodeInternal_some hfind
  obtain ⟨cpu, hcpu⟩ := (h.of_mem_preorder hfound).firstThread_isSome
  obtain ⟨y, hy, hthread, hyid⟩ := firstThread_some hcpu
  refine ⟨found, hfound, hfg, hfid, cpu, ?_, mem_threads.mpr ⟨y, hy, hthread, hyid⟩,
    mem_threads.mpr ⟨y, preorder_trans hfound hy, hthread, hyid⟩⟩
  unfold getTestCpu
  rw [hfind]
  exact hcpu

/-- `get_test_cpu` with an id that does not exist. -/
theorem getTestCpu_missing {t : ArchNode} {g : Granularity} {index : Nat}
    (hid : ¬ ∃ x ∈ t.preorder, x.granularity = g ∧ toSize x.id = index) :
    getTestCpu t g index = some (-1) := by
  unfold getTestCpu
  cases hfind : findNodeInternal g index t with
  | none => rfl
  | some found => exact absurd ⟨found, findNodeInternal_some hfind⟩ hid

/-- A CPU that `get_test_cpu` finds lies below a node with the id, in any tree. -/
theorem getTestCpu_found {t : ArchNode} {g : Granularity} {index : Nat} {cpu : Int}
    (h : getTestCpu t g index = some cpu) (hpos : ¬ cpu < 0) :
    ∃ found ∈ t.preorder, found.granularity = g ∧ toSize found.id = index ∧
      cpu ∈ found.threads := by
  unfold getTestCpu at h
  cases hfind : findNodeInternal g index t with
  | none =>
      rw [hfind] at h
      cases h
      exact absurd (by decide) hpos
  | some found =>
      rw [hfind] at h
      obtain ⟨hfound, hg, hid⟩ := findNodeInternal_some hfind
      exact ⟨found, hfound, hg, hid, mem_threads.mpr (firstThread_some h)⟩

/-- **The indices of a granularity work**: each below the count gives a CPU that lies below a
node, and no node has the CPUs of two of them. -/
structure WorksAt (arch : ArchNode) (g : Granularity) : Prop where
  cpu : ∀ index < archCount g arch, ∃ cpu, getTestCpu arch g index = some cpu ∧ 0 ≤ cpu ∧
    ∃ x ∈ arch.preorder, x.granularity = g ∧ cpu ∈ x.threads
  apart : ∀ index < archCount g arch, ∀ index' < archCount g arch, index ≠ index' →
    ∀ cpu cpu', getTestCpu arch g index = some cpu → getTestCpu arch g index' = some cpu' →
      ∀ x ∈ arch.preorder, x.granularity = g → ¬ (cpu ∈ x.threads ∧ cpu' ∈ x.threads)

theorem WorksAt.numbered {t : ArchNode} {g : Granularity} (h : WorksAt t g) : Numbered t g := by
  intro index hindex
  by_contra hid
  obtain ⟨cpu, hcpu, hpos, _⟩ := h.cpu index hindex
  rw [getTestCpu_missing hid] at hcpu
  cases hcpu
  exact absurd hpos (by decide)

end TestCpu

section Apart

theorem flatMap_sublist {α β : Type*} {l : List α} {f f' : α → List β}
    (h : ∀ x ∈ l, List.Sublist (f x) (f' x)) : List.Sublist (l.flatMap f) (l.flatMap f') := by
  induction l with
  | nil => exact List.Sublist.refl _
  | cons x l ih =>
      rw [List.flatMap_cons, List.flatMap_cons]
      exact (h x (by simp)).append (ih fun y hy => h y (by simp [hy]))

/-- The THREADs below the nodes of one granularity. -/
theorem flatMap_threads_level {g : Granularity} {t : ArchNode} (h : t.Unnested g) :
    List.Sublist ((level g t).flatMap threads) t.threads := by
  induction t using induct with
  | h g' i n cs ih =>
      rw [level_eq, granularity_node, children_node]
      by_cases hg : g' = g
      · have hnil : cs.flatMap (level g) = [] :=
          List.flatMap_eq_nil_iff.mpr fun c hc => h _ (self_mem_preorder _) hg c hc
        simp [hg, hnil]
      · rw [if_neg hg, List.nil_append, List.flatMap_assoc, threads_eq, children_node]
        refine List.Sublist.trans ?_ (List.sublist_append_right _ _)
        exact flatMap_sublist fun c hc => ih c hc (h.child hc)

/-- Two nodes of one granularity share no CPU if no CPU is there twice. -/
theorem eq_of_mem_threads {g : Granularity} {t : ArchNode} (h : t.Unnested g)
    (hnodup : t.threads.Nodup) {x y : ArchNode} (hx : x ∈ level g t) (hy : y ∈ level g t)
    {cpu : Int} (hxcpu : cpu ∈ x.threads) (hycpu : cpu ∈ y.threads) : x = y := by
  have hdisjoint := (List.nodup_flatMap.mp ((flatMap_threads_level h).nodup hnodup)).2
  have : Std.Symm (Function.onFun List.Disjoint threads) := ⟨fun _ _ hab => hab.symm⟩
  by_contra hne
  exact hdisjoint.forall hx hy hne hxcpu hycpu

/-- On a tree without repeated CPUs no node contains the CPUs of two indices. -/
theorem getTestCpu_apart {g : Granularity} {t : ArchNode} (h : t.Populated) (hun : t.Unnested g)
    (hnodup : t.threads.Nodup) (hnumbered : Numbered t g) {index index' : Nat}
    (hindex : index < archCount g t) (hindex' : index' < archCount g t) (hne : index ≠ index')
    {cpu cpu' : Int} (hcpu : getTestCpu t g index = some cpu)
    (hcpu' : getTestCpu t g index' = some cpu') {x : ArchNode} (hx : x ∈ t.preorder)
    (hg : x.granularity = g) : ¬ (cpu ∈ x.threads ∧ cpu' ∈ x.threads) := by
  rintro ⟨hmem, hmem'⟩
  have hxl := mem_level.mpr ⟨hx, hg⟩
  have hfind : ∀ i < archCount g t, ∀ c, getTestCpu t g i = some c → c ∈ x.threads →
      toSize x.id = i := by
    intro i hi c hc hcx
    obtain ⟨y, hy, hyg, hyid, c', hc', hmem, _⟩ := getTestCpu_spec h (hnumbered i hi)
    rw [hc] at hc'
    cases hc'
    rw [eq_of_mem_threads hun hnodup hxl (mem_level.mpr ⟨hy, hyg⟩) hcx hmem]
    exact hyid
  exact hne ((hfind index hindex cpu hcpu hmem).symm.trans
    (hfind index' hindex' cpu' hcpu' hmem'))

/-- **An index works if and only if it is an id**, on a tree where every descent ends and no CPU
is there twice. -/
theorem worksAt_iff {g : Granularity} {t : ArchNode} (h : t.Populated) (hun : t.Unnested g)
    (hnodup : t.threads.Nodup) (hpos : ∀ cpu ∈ t.threads, 0 ≤ cpu) :
    WorksAt t g ↔ Numbered t g := by
  refine ⟨WorksAt.numbered, fun hnumbered => ⟨fun index hindex => ?_, ?_⟩⟩
  · obtain ⟨x, hx, hg, _, cpu, hcpu, hmem, hthread⟩ := getTestCpu_spec h (hnumbered index hindex)
    exact ⟨cpu, hcpu, hpos cpu hthread, x, hx, hg, hmem⟩
  · intro index hindex index' hindex' hne cpu cpu' hcpu hcpu' x hx hg
    exact getTestCpu_apart h hun hnodup hnumbered hindex hindex' hne hcpu hcpu' hx hg

end Apart

end ArchNode

namespace Architecture

open ArchNode ParseArchitecture

section Layers

theorem graded_of_mixed {t : ArchNode} (h : IsMixed t) : t.Graded := by
  refine graded_of_children fun c hc => ?_
  rcases h.2.2 c hc with hcore | hthread
  · exact ⟨by rw [h.1, hcore.1]; decide, hcore.graded⟩
  · exact ⟨by rw [h.1, hthread.1]; decide, hthread.graded⟩

theorem loose_of_dieLayer {cs : List ArchNode} (h : DieLayer cs) : LooseLayer cs := by
  intro c hc
  refine (h c hc).imp (fun hmod => ?_) id
  obtain ⟨core, hcore⟩ := List.exists_mem_of_ne_nil _ hmod.2.1
  exact ⟨hmod.1, ⟨core, hcore, hmod.2.2 core hcore⟩, fun x hx => .inl (hmod.2.2 x hx)⟩

theorem graded_of_loose {t : ArchNode} (hg : t.granularity = .die) (h : LooseLayer t.children) :
    t.Graded := by
  refine graded_of_children fun c hc => ?_
  rcases h c hc with hmixed | hcore
  · exact ⟨by rw [hg, hmixed.1]; decide, graded_of_mixed hmixed⟩
  · exact ⟨by rw [hg, hcore.1]; decide, hcore.graded⟩

theorem graded_of_layered {t : ArchNode} (h : t.Layered) : t.Graded := by
  refine graded_of_children fun s hs => ⟨by rw [h.1, (h.2 s hs).1]; decide, ?_⟩
  refine graded_of_children fun d hd => ?_
  have hdie := (h.2 s hs).2.2 d hd
  exact ⟨by rw [(h.2 s hs).1, hdie.1]; decide,
    graded_of_loose hdie.1 (loose_of_dieLayer hdie.2.2)⟩

theorem graded_viewTree {b : Build} (hostname : Option String)
    (h : ∀ die ∈ b.dies, LooseLayer (b.viewBlock die)) : (b.viewTree hostname).Graded := by
  refine graded_of_children fun s hs => ?_
  obtain ⟨socket, hsocket, rfl⟩ := List.mem_map.mp hs
  refine ⟨by simp [Build.viewTree, Build.viewSocket, Granularity.value], ?_⟩
  refine graded_of_children fun d hd => ?_
  obtain ⟨die, hdie, rfl⟩ := List.mem_map.mp hd
  exact ⟨by simp [Build.viewDie, Build.viewSocket, Granularity.value],
    graded_of_loose rfl (h die (Build.mem_dies hsocket hdie))⟩

theorem length_flatMap_le_mul {α β γ : Type*} {l : List α} {f : α → List β} {f' : α → List γ}
    {k : Nat} (h : ∀ x ∈ l, (f x).length ≤ (f' x).length * k) :
    (l.flatMap f).length ≤ (l.flatMap f').length * k := by
  induction l with
  | nil => simp
  | cons x l ih =>
      have hx := h x (by simp)
      have hl := ih fun y hy => h y (by simp [hy])
      rw [List.flatMap_cons, List.flatMap_cons, List.length_append, List.length_append,
        Nat.add_mul]
      omega

/-- There are at most as many COREs as THREADs. -/
theorem coreIds_length_le {t : ArchNode} (h : t.Layered) :
    t.coreIds.length ≤ t.threads.length := by
  have hcore : ∀ c : ArchNode, c.IsCore → c.coreIds.length ≤ c.threads.length := by
    intro c hc
    rw [hc.coreShape.coreIds, hc.threads, List.length_map]
    exact List.length_pos_iff.mpr hc.2.1
  have hbelow : ∀ c : ArchNode, c.granularity ≠ .core → c.granularity ≠ .thread →
      (∀ x ∈ c.children, x.coreIds.length ≤ x.threads.length) →
      c.coreIds.length ≤ c.threads.length := by
    intro c hne hne' hall
    rw [coreIds_of_ne hne, threads_of_ne hne', ← Nat.mul_one (blockThreads _).length]
    exact length_flatMap_le_mul fun x hx => by rw [Nat.mul_one]; exact hall x hx
  refine hbelow t (by rw [h.1]; decide) (by rw [h.1]; decide) fun s hs => ?_
  refine hbelow s (by rw [(h.2 s hs).1]; decide) (by rw [(h.2 s hs).1]; decide) fun d hd => ?_
  have hdie := (h.2 s hs).2.2 d hd
  refine hbelow d (by rw [hdie.1]; decide) (by rw [hdie.1]; decide) fun c hc => ?_
  rcases hdie.2.2 c hc with hmod | hcorec
  · exact hbelow c (by rw [hmod.1]; decide) hmod.ne_thread fun x hx => hcore x (hmod.2.2 x hx)
  · exact hcore c hcorec

end Layers

section Numbering

/-- The root is the only SYSTEM node. -/
theorem level_system {t : ArchNode} (h : t.Layered) : level .system t = [t] := by
  have hun := (graded_of_layered h).unnested .system
  rw [level_eq, if_pos h.1, List.flatMap_eq_nil_iff.mpr fun c hc =>
    hun t (self_mem_preorder t) h.1 c hc, List.append_nil]

theorem numbered_system {t : ArchNode} (h : t.Layered) (hid : t.id = 0) : Numbered t .system := by
  have hun := (graded_of_layered h).unnested .system
  rw [numbered_iff hun, levelIds, level_system h, List.map_cons, List.map_nil, hid]
  exact List.Perm.refl _

/-- The SOCKETs of a layered tree. -/
theorem level_socket {t : ArchNode} (h : t.Layered) : level .socket t = t.children := by
  have hun := (graded_of_layered h).unnested .socket
  rw [level_of_ne (by rw [h.1]; decide)]
  have hone : ∀ s ∈ t.children, level .socket s = [s] := by
    intro s hs
    have hs' := mem_preorder_of_mem_children hs (self_mem_preorder s)
    rw [level_eq, if_pos (h.2 s hs).1, List.flatMap_eq_nil_iff.mpr fun c hc =>
      hun s hs' (h.2 s hs).1 c hc, List.append_nil]
  rw [List.flatMap_congr hone, List.flatMap_singleton']

/-- The ids of the SOCKETs of a layered tree. -/
theorem levelIds_socket {t : ArchNode} (h : t.Layered) :
    levelIds .socket t = (t.children.map ArchNode.id).map toSize := by
  rw [levelIds, level_socket h, List.map_map]
  rfl

/-- The ids of the COREs of a tree. -/
theorem levelIds_core (t : ArchNode) : levelIds .core t = t.coreIds.map toSize := by
  rw [levelIds, coreIds, List.map_map]
  rfl

/-- Distinct `int` ids enumerate the indices exactly if they are 0, 1, … -/
theorem perm_range_toSize_iff {l : List Int} (hnodup : l.Nodup) (hint : ∀ x ∈ l, IsInt32 x) :
    (l.map toSize).Perm (List.range l.length) ↔ ∀ k : Int, k ∈ l ↔ 0 ≤ k ∧ k < l.length := by
  have hlen := length_le_of_isInt32 hnodup hint
  have hsize : ∀ x ∈ l, toSize x < l.length → (toSize x : Int) = x := by
    intro x hx hlt
    obtain ⟨hlo, hhi⟩ := hint x hx
    unfold intMin at hlo
    unfold intMax at hhi
    unfold toSize at hlt ⊢
    omega
  constructor
  · intro h k
    constructor
    · intro hk
      have hmem := h.mem_iff.mp (List.mem_map_of_mem hk)
      have hlt := List.mem_range.mp hmem
      have hsame := hsize k hk hlt
      omega
    · rintro ⟨hk0, hk⟩
      have hmem : k.toNat ∈ l.map toSize := h.mem_iff.mpr (List.mem_range.mpr (by omega))
      obtain ⟨x, hx, hxk⟩ := List.mem_map.mp hmem
      have hsame := hsize x hx (by omega)
      have heq : x = k := by omega
      exact heq ▸ hx
  · intro h
    have hmap : (l.map toSize).length = l.length := List.length_map _
    rw [← hmap, perm_range_iff, hmap]
    intro i hi
    have hmem : (i : Int) ∈ l := (h i).mpr (by omega)
    exact List.mem_map.mpr ⟨i, hmem, toSize_natCast (by omega)⟩

/-- The COREs of a finished tree are numbered as long as the numbers fit. -/
theorem numbered_core {t : ArchNode} (h : t.Layered)
    (hlen : t.threads.length ≤ 18446744073709551616) : Numbered (finish t) .core := by
  have hfinished := h.finished
  obtain ⟨n, hids⟩ := h.coreIds_finish
  have hbound : n ≤ 18446744073709551616 := by
    have hle := coreIds_length_le hfinished
    rw [h.threads_finish.length_eq, hids, numbers, List.length_map, List.length_range] at hle
    omega
  have hrange : levelIds .core (finish t) = List.range n := by
    rw [levelIds_core, hids, numbers, List.map_map]
    conv_rhs => rw [← List.map_id (List.range n)]
    apply List.map_congr_left
    intro i hi
    have hi := List.mem_range.mp hi
    rw [Function.comp_apply, Int.zero_add, toSize_natCast (by omega)]
    rfl
  rw [numbered_iff ((graded_of_layered hfinished).unnested _), hrange, List.length_range]

end Numbering

section Main

/-- Every index a client is told to use works, on every host with these topology files. -/
def IndexesWork (S : Snapshot) : Prop :=
  (∃ arch, initArchitectureNodes S = .ok arch) ∧
    ∀ host arch m, getAvailMechanism host S = .ok (arch, m) →
      ∀ counter, m.sourceGranularities counter ≠ .size →
        WorksAt arch (m.sourceGranularities counter)

/-- The packages of the machine are numbered 0, 1, … without a gap. -/
def PackagesNumbered (S : Snapshot) : Prop :=
  ∀ k : Int, k ∈ S.online.map S.packageOf ↔
    0 ≤ k ∧ k < ((S.online.map S.packageOf).dedup.length : Int)

/-- A host of AMD family 17h: it counts by SOCKET and by CORE. -/
def family17h : Host where
  ebx := 0x68747541
  edx := 0x69746e65
  ecx := 0x444d4163
  eax := 0x00800f00
  selectedSource := none
  useLikwid := false
  useX86Adapt := false
  memoryMechanism := true
  memorySources := true

theorem detectMechanism_family17h :
    ∃ m, detectMechanism family17h = some m ∧ m.sourceGranularities .pckg = .socket ∧
      m.sourceGranularities .singleCore = .core :=
  ⟨_, rfl, rfl, rfl⟩

theorem getAvailMechanism_ok {host : Host} {S : Snapshot} {arch : ArchNode} {m : Mechanism}
    (hinit : initArchitectureNodes S = .ok arch) (hcount : archCount .socket arch ≠ 0)
    (hm : detectMechanism host = some m) : getAvailMechanism host S = .ok (arch, m) := by
  unfold getAvailMechanism
  rw [hinit]
  simp only [if_neg hcount, hm]

theorem getAvailMechanism_success {host : Host} {S : Snapshot} {arch : ArchNode} {m : Mechanism}
    (h : getAvailMechanism host S = .ok (arch, m)) :
    initArchitectureNodes S = .ok arch ∧ archCount .socket arch ≠ 0 ∧
      detectMechanism host = some m := by
  unfold getAvailMechanism at h
  cases hinit : initArchitectureNodes S with
  | error e =>
      rw [hinit] at h
      cases h
  | ok t =>
      rw [hinit] at h
      simp only at h
      split at h
      · cases h
      · rename_i hcount
        cases hm : detectMechanism host with
        | none =>
            rw [hm] at h
            cases h
        | some m' =>
            rw [hm] at h
            cases h
            exact ⟨rfl, hcount, rfl⟩

/-- A family 17h host shows that SOCKETs and COREs have to be numbered. -/
theorem IndexesWork.numbered {S : Snapshot} (h : IndexesWork S) {arch : ArchNode}
    (hinit : initArchitectureNodes S = .ok arch) (hcount : archCount .socket arch ≠ 0) :
    Numbered arch .socket ∧ Numbered arch .core := by
  obtain ⟨m, hm, hpckg, hcore⟩ := detectMechanism_family17h
  have hworks := h.2 family17h arch m (getAvailMechanism_ok hinit hcount hm)
  constructor
  · have hat := hworks .pckg (by rw [hpckg]; decide)
    rw [hpckg] at hat
    exact hat.numbered
  · have hat := hworks .singleCore (by rw [hcore]; decide)
    rw [hcore] at hat
    exact hat.numbered

variable {S : Snapshot} (hS : Consistent S)
include hS

/-- On a machine with a node that spans packages a CORE index fails. -/
theorem not_indexesWork_of_spanning (hspan : ¬ NoSpan S) : ¬ IndexesWork S := by
  intro h
  obtain ⟨t, hinit⟩ := h.1
  obtain ⟨hostname, b, b', hrun, hfinish, ht⟩ := initArchitectureNodes_ok hinit
  obtain ⟨hthreaded, hruined⟩ := processNodes_ruined hS hspan hrun
  obtain ⟨b₂, rfl, hblocks, hshared⟩ := hruined.shared hthreaded hfinish ht
  have hgraded := graded_viewTree hostname fun die hd => (hblocks die hd).1
  have hcount : archCount .socket (b₂.viewTree hostname) ≠ 0 := by
    have hne : b₂.dies ≠ [] := by
      intro hnil
      rw [hnil] at hshared
      exact hshared List.nodup_nil
    obtain ⟨die, hd⟩ := List.exists_mem_of_ne_nil _ hne
    obtain ⟨socket, hs, _⟩ := List.mem_flatMap.mp hd
    rw [archCount_eq_length (hgraded.unnested _), ← Nat.pos_iff_ne_zero, List.length_pos_iff]
    exact List.ne_nil_of_mem (mem_level.mpr
      ⟨mem_preorder_of_mem_children (List.mem_map_of_mem hs) (self_mem_preorder _), rfl⟩)
  have hnodup := (h.numbered hinit hcount).2.nodup (hgraded.unnested _)
  rw [levelIds, Build.level_viewTree b₂ hostname (by decide), List.map_flatMap] at hnodup
  refine Build.shared_not_nodup (f := fun cs => (cs.flatMap (level .core)).map fun x => toSize x.id)
    hshared (fun die hd => ?_) hnodup
  obtain ⟨hloose, hne⟩ := hblocks die hd
  obtain ⟨c, hc⟩ := List.exists_mem_of_ne_nil _ hne
  obtain ⟨core, hcore, hg⟩ : ∃ core ∈ c.preorder, core.granularity = .core := by
    rcases hloose c hc with hmixed | hcore
    · obtain ⟨core, hmem, hcore⟩ := hmixed.2.1
      exact ⟨core, mem_preorder_of_mem_children hmem (self_mem_preorder core), hcore.1⟩
    · exact ⟨c, self_mem_preorder c, hcore.1⟩
  rw [ne_eq, List.map_eq_nil_iff]
  exact List.ne_nil_of_mem (List.mem_flatMap.mpr ⟨c, hc, mem_level.mpr ⟨hcore, hg⟩⟩)

section SinglePackage

variable (havoid : AvoidsModules S) {b : Build}
  (h : Clean b (busy S S.nodes) S.nodePackage fun n => dieBlock S (S.cpulist n))
include havoid h

/-- The COREs of the tree can be numbered with an `unsigned long`. -/
theorem threads_length_le :
    (b.viewTree S.hostname).threads.length ≤ 18446744073709551616 := by
  have hcover : ∀ n ∈ S.nodes, (GroupCover.cover S.sharedL2 S.Modular (S.cpulist n)).length ≤
      (S.cpulist n).length * 4294967296 := by
    intro n hn
    refine GroupCover.length_cover_le (by decide) fun cpu hcpu => ?_
    have hgroups := hS.groups n hn
    exact length_le_of_isInt32 (hgroups.nodup cpu hcpu) fun c hc =>
      hS.cpuInt c (mem_online hn (hgroups.closed cpu hcpu c hc))
  have hsum := length_flatMap_le_mul hcover
  have honline : S.online.length ≤ 4294967296 := length_le_of_isInt32 hS.nodup hS.cpuInt
  have hthreads := (layered_of_noSpan hS havoid h).threads_finish.length_eq
  rw [(threads_of_noSpan hS havoid h).length_eq] at hthreads
  unfold Snapshot.online at honline
  omega

variable (hspan : NoSpan S)
include hspan

/-- The SOCKETs are numbered exactly if the packages of the machine are. -/
theorem numbered_socket_iff :
    Numbered (finish (b.viewTree S.hostname)) .socket ↔ PackagesNumbered S := by
  have hlayered := (layered_of_noSpan hS havoid h).finished
  have hids := (socketIds_of_noSpan hS havoid h hspan).map toSize
  have hint : ∀ x ∈ (S.online.map S.packageOf).dedup, IsInt32 x := by
    intro x hx
    obtain ⟨cpu, hcpu, rfl⟩ := List.mem_map.mp (List.mem_dedup.mp hx)
    exact hS.packageInt cpu hcpu
  have hlen := hids.length_eq.trans (List.length_map _)
  rw [numbered_iff ((graded_of_layered hlayered).unnested _), levelIds_socket hlayered, hlen]
  refine Iff.trans ⟨hids.symm.trans, hids.trans⟩ ?_
  rw [perm_range_toSize_iff (List.nodup_dedup _) hint]
  simp only [PackagesNumbered, List.mem_dedup]

/-- Every granularity of a mechanism works if the packages are numbered. -/
theorem numbered_of_noSpan (hpackages : PackagesNumbered S) {host : Host} {m : Mechanism}
    (hm : detectMechanism host = some m) (counter : Counter)
    (hsize : m.sourceGranularities counter ≠ .size) :
    Numbered (finish (b.viewTree S.hostname)) (m.sourceGranularities counter) := by
  have hlayered := layered_of_noSpan hS havoid h
  have hg := (detectMechanism_granularities hm).2 counter
  simp only [List.mem_cons, List.not_mem_nil, or_false] at hg
  rcases hg with hg | hg | hg | hg
  · rw [hg]
    exact numbered_system hlayered.finished (by rw [id_finish]; rfl)
  · rw [hg]
    exact (numbered_socket_iff hS havoid h hspan).mpr hpackages
  · rw [hg]
    exact numbered_core hlayered (threads_length_le hS havoid h)
  · exact absurd hg hsize

end SinglePackage

end Main

section Machines

theorem twoPackages_avoidsModules : AvoidsModules twoPackages :=
  avoidsModules_of_take (by decide)

/-- Two CPUs in the packages 0 and 2. -/
def gappedPackages : Snapshot :=
  .ofMachine [[0], [1]] fun cpu => ⟨2 * cpu, 0, [cpu], [cpu]⟩

def gappedTree : ArchNode :=
  .node .system 0 (some "host")
    [.node .socket 0 (some "Processor 0")
      [.node .die 0 (some "0") [.node .core 0 (some "Core 0") [.node .thread 0 (some "CPU 0") []]]],
    .node .socket 2 (some "Processor 2")
      [.node .die 1 (some "1") [.node .core 1 (some "Core 0") [.node .thread 1 (some "CPU 1") []]]]]

end Machines

end Architecture

end X86Energy
