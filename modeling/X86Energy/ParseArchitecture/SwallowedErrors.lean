import X86Energy.ParseArchitecture.AnyBuild

/-!
# Errors that `process_node` swallows

`process_node` ignores what `add_cpu_and_core_to_node` returns.  So a CPU whose `core_id`
cannot be read, or for which memory is refused, is left out of a tree that is returned all
the same, and a MODULE, a DIE or a CORE may be left without children.

`Heeded` says that a round does not depend on a call that fails.  If all rounds are heeded,
every tree that is returned is complete, whatever other files or requests failed.
-/

namespace X86Energy
namespace ParseArchitecture

open CInt ArchNode

/-- Every CPU of the cpulists is there as a leaf, and the nodes between the SYSTEM node and
the THREADs have children. -/
structure Complete (S : Snapshot) (t : ArchNode) : Prop where
  threads : ∀ n ∈ S.nodes, ∀ cpu ∈ S.cpulist n, ∃ x ∈ t.preorder,
    x.granularity = .thread ∧ x.id = toInt32 cpu ∧ x.children = []
  filled : ∀ x ∈ t.preorder, x.granularity ≠ .system → x.granularity ≠ .thread →
    x.children ≠ []

section Guard

variable (S : Snapshot)

/-- The calls for an L2 group leave no empty CORE, and the one for the CPU itself succeeds. -/
def GroupHeeded (mem : InsertSite → Bool) (cpu : Int) : Prop :=
  (∀ before c later, S.sharedL2 cpu = before ++ c :: later →
    ¬ LeavesEmptyCore S mem before.length (addGroup S mem 0 before []) c) ∧
  ∃ before later, S.sharedL2 cpu = before ++ cpu :: later ∧
    CallSucceeds S mem before.length (addGroup S mem 0 before []) cpu

/-- A round that places a CPU on these children: no call fails that has to succeed for the
CPU to get into the tree. -/
structure Heeded (mem : InsertSite → Bool) (children : List ArchNode) (cpu : Int) : Prop where
  group : S.Modular cpu → GroupHeeded S mem cpu
  alone : ¬ S.Modular cpu → CallSucceeds S mem 0 children cpu ∧ ¬ FindsModule S children cpu

variable (G : (InsertSite → Bool) → List ArchNode → Int → Prop)

/-- The round meets `G` if it places the CPU. -/
def RoundMeets (mem : InsertSite → Bool) (st : NodeLoop) (cpu : Int) : Prop :=
  ∀ st₁ children, locateDie S mem st cpu = .ok (some st₁) →
    st₁.build.loadChildren st₁.deref = some children → G mem children cpu

def NodeMeets (b : Build) (node : DieNode × Nat) : Prop :=
  Transition.Meets (fun st round => processCpu S (S.memory node.2 round.2) st round.1)
    (fun st round => RoundMeets S G (S.memory node.2 round.2) st round.1)
    ⟨b, node.1, .scratch⟩ (S.cpulist node.1.id).zipIdx

/-- Every round of the build that places a CPU meets `G`. -/
def EveryRound : Prop :=
  Transition.Meets (processNode S) (NodeMeets S G) .empty (getNodes S.nodeDir).zipIdx

end Guard

section Placing

variable {S : Snapshot} {mem : InsertSite → Bool}

/-- An array with the layers, whose THREADs have ids that fit. -/
structure FineBlock (cs : List ArchNode) : Prop where
  layer : DieLayer cs
  int : ∀ x ∈ blockThreads cs, IsInt32 x

theorem fineBlock_nil : FineBlock [] :=
  ⟨fun _ h => absurd h List.not_mem_nil, fun _ h => absurd h List.not_mem_nil⟩

/-- A CPU that is placed beside COREs is there afterwards. -/
theorem mem_placeThread {children : List ArchNode} {core cpu : Int}
    (hint : ∀ x ∈ blockThreads children, IsInt32 x)
    (hfound : ∀ k found, findChild (children.map ArchNode.id) core = some k →
      children[k]? = some found → found.IsCore) :
    toInt32 cpu ∈ blockThreads (placeThread children core cpu) := by
  obtain ⟨new, _, hperm⟩ := placeThread_added children core cpu
  cases hfind : findChild (children.map ArchNode.id) core with
  | none => simp [placeThread, hfind]
  | some k =>
      obtain ⟨found, hk, _⟩ := findChild_map_some hfind
      have hcore := hfound k found hfind hk
      cases hcpu : findChild (found.children.map ArchNode.id) cpu with
      | some j =>
          -- the CORE has a THREAD with this number already
          have hthread : cpu ∈ blockThreads children :=
            mem_blockThreads_of_core (List.mem_of_getElem? hk) hcore
              (List.mem_of_getElem? (findChild_some hcpu))
          rw [hperm.mem_iff, toInt32_of_isInt32 (hint cpu hthread)]
          exact List.mem_append_left _ hthread
      | none =>
          have hwith : (withThread cpu found).threads = found.threads ++ [toInt32 cpu] := by
            rw [(withThread_isCore hcore).threads, hcore.threads]
            unfold withThread
            rw [hcpu, children_setChildren, List.map_append]
            simp [threadNode]
          unfold placeThread
          rw [hfind, (blockThreads_modify hk hwith).mem_iff]
          simp

theorem placeThread_int {children : List ArchNode} (core cpu : Int)
    (hint : ∀ x ∈ blockThreads children, IsInt32 x) :
    ∀ x ∈ blockThreads (placeThread children core cpu), IsInt32 x := by
  intro x hx
  obtain ⟨new, hnew, hperm⟩ := placeThread_added children core cpu
  rcases List.mem_append.mp (hperm.mem_iff.mp hx) with hx | hx
  · exact hint x hx
  · rw [hnew x hx]
    exact toInt32_isInt32 cpu

theorem mem_placeThread_of_mem {children : List ArchNode} (core cpu : Int) {x : Int}
    (hx : x ∈ blockThreads children) : x ∈ blockThreads (placeThread children core cpu) := by
  obtain ⟨new, _, hperm⟩ := placeThread_added children core cpu
  exact hperm.mem_iff.mpr (List.mem_append_left _ hx)

/-- The calls for a group, one after the other. -/
theorem addGroup_append (j : Nat) (cpus more : List Int) (children : List ArchNode) :
    addGroup S mem j (cpus ++ more) children =
      addGroup S mem (j + cpus.length) more (addGroup S mem j cpus children) := by
  induction cpus generalizing j children with
  | nil => rfl
  | cons cpu cpus ih =>
      rw [List.cons_append, addGroup, ih, addGroup, List.length_cons]
      congr 1
      omega

theorem addGroup_append_singleton (cpus : List Int) (cpu : Int) :
    addGroup S mem 0 (cpus ++ [cpu]) [] =
      (addCpuAndCoreToNode S mem cpus.length (addGroup S mem 0 cpus []) cpu).2 := by
  rw [addGroup_append, Nat.zero_add]
  rfl

/-- When memory is granted no call leaves an empty CORE. -/
theorem not_leavesEmptyCore (hmem : ∀ site, mem site = true) (j : Nat)
    (children : List ArchNode) (cpu : Int) : ¬ LeavesEmptyCore S mem j children cpu := by
  rintro ⟨_, _, _, _, hrefused⟩
  rw [hmem] at hrefused
  cases hrefused

/-- What a call keeps that leaves no empty CORE. -/
theorem addCpuAndCoreToNode_keeps {P : List ArchNode → Prop} {j : Nat}
    {children : List ArchNode} {cpu : Int} (hfine : ¬ LeavesEmptyCore S mem j children cpu)
    (hplace : ∀ core, S.readLong (.coreId cpu) = some core → P (placeThread children core cpu))
    (h : P children) : P (addCpuAndCoreToNode S mem j children cpu).2 := by
  rcases addCpuAndCoreToNode_cases hfine with ⟨core, hcore, hcall⟩ | ⟨_, hcall⟩
  · rw [hcall]
    exact hplace core hcore
  · rw [hcall]
    exact h

/-- What the calls for a group keep that leave no empty CORE. -/
theorem addGroup_keeps {P : List ArchNode → Prop}
    (hplace : ∀ children core cpu, S.readLong (.coreId cpu) = some core → P children →
      P (placeThread children core cpu)) (hnil : P []) {cpus : List Int}
    (hfine : ∀ before c later, cpus = before ++ c :: later →
      ¬ LeavesEmptyCore S mem before.length (addGroup S mem 0 before []) c) :
    P (addGroup S mem 0 cpus []) := by
  induction cpus using List.reverseRecOn with
  | nil => exact hnil
  | append_singleton cpus cpu ih =>
      rw [addGroup_append_singleton]
      have hbefore := ih fun before c later hsplit =>
        hfine before c (later ++ [cpu]) (by rw [hsplit]; simp)
      exact addCpuAndCoreToNode_keeps (hfine cpus cpu [] rfl)
        (fun core hcore => hplace _ core cpu hcore hbefore) hbefore

/-- What is left of the group below its MODULE, and the CPU is in it. -/
theorem addGroup_heeded {cpu : Int} (h : GroupHeeded S mem cpu) :
    (∀ c ∈ addGroup S mem 0 (S.sharedL2 cpu) [], c.IsCore) ∧
      (∀ x ∈ blockThreads (addGroup S mem 0 (S.sharedL2 cpu) []), IsInt32 x) ∧
      toInt32 cpu ∈ blockThreads (addGroup S mem 0 (S.sharedL2 cpu) []) := by
  let P : List ArchNode → Prop :=
    fun cs => (∀ c ∈ cs, c.IsCore) ∧ ∀ x ∈ blockThreads cs, IsInt32 x
  have hplace : ∀ children core cpu, S.readLong (.coreId cpu) = some core → P children →
      P (placeThread children core cpu) :=
    fun _ core cpu _ hP => ⟨placeThread_isCore hP.1 core cpu, placeThread_int core cpu hP.2⟩
  have hnil : P [] := ⟨by simp, by simp⟩
  obtain ⟨hfine, before, later, hsplit, core, hcore, hmem⟩ := h
  have hall : P (addGroup S mem 0 (S.sharedL2 cpu) []) := addGroup_keeps hplace hnil hfine
  refine ⟨hall.1, hall.2, ?_⟩
  rw [hsplit] at hfine ⊢
  clear hsplit
  -- the call for the CPU adds it, and the calls after it keep it
  induction later using List.reverseRecOn with
  | nil =>
      have hbefore : P (addGroup S mem 0 before []) :=
        addGroup_keeps hplace hnil fun before' c later hb =>
          hfine before' c (later ++ [cpu]) (by rw [hb]; simp)
      rw [addGroup_append_singleton, addCpuAndCoreToNode_ok hcore hmem]
      exact mem_placeThread hbefore.2 fun k found _ hk =>
        hbefore.1 found (List.mem_of_getElem? hk)
  | append_singleton later c ih =>
      have hassoc : before ++ cpu :: (later ++ [c]) = (before ++ cpu :: later) ++ [c] := by simp
      rw [hassoc] at hfine ⊢
      rw [addGroup_append_singleton]
      have hthere := ih fun before' c' later' hb =>
        hfine before' c' (later' ++ [c]) (by rw [hb]; simp)
      exact addCpuAndCoreToNode_keeps (P := fun cs => toInt32 cpu ∈ blockThreads cs)
        (hfine _ c [] rfl) (fun core _ => mem_placeThread_of_mem core c hthere) hthere

/-- **What a heeded round makes of the children of its DIE**: the layers stay, no THREAD is
lost and the CPU is there. -/
theorem placeCpu_heeded {children children' : List ArchNode} {cpu : Int}
    (hfine : FineBlock children) (h : Heeded S mem children cpu)
    (hplace : placeCpu S mem children cpu (S.sharedL2 cpu) (S.sharedL1 cpu) = some children') :
    FineBlock children' ∧ toInt32 cpu ∈ blockThreads children' ∧
      ∀ x ∈ blockThreads children, x ∈ blockThreads children' := by
  rcases placeCpu_cases hplace with ⟨hmod, _, rfl⟩ | ⟨hmod, rfl⟩
  · obtain ⟨hcores, hint, hcpu⟩ := addGroup_heeded (h.group hmod)
    have hthreads : ∀ x, x ∈ blockThreads (children ++
        [moduleNode children.length (addGroup S mem 0 (S.sharedL2 cpu) [])]) ↔
          x ∈ blockThreads children ∨ x ∈ blockThreads (addGroup S mem 0 (S.sharedL2 cpu) []) := by
      intro x
      rw [blockThreads_append, blockThreads_singleton, threads_moduleNode, List.mem_append]
    refine ⟨⟨fun c hc => ?_, fun x hx => ?_⟩, (hthreads _).mpr (.inr hcpu),
      fun x hx => (hthreads x).mpr (.inl hx)⟩
    · rcases List.mem_append.mp hc with hc | hc
      · exact hfine.layer c hc
      · rw [List.mem_singleton.mp hc]
        refine .inl ⟨rfl, fun hnil => ?_, hcores⟩
        have hnil : addGroup S mem 0 (S.sharedL2 cpu) [] = [] := hnil
        rw [hnil] at hcpu
        exact absurd hcpu List.not_mem_nil
    · exact ((hthreads x).mp hx).elim (hfine.int x) (hint x)
  · obtain ⟨⟨core, hcore, hmem⟩, hmodule⟩ := h.alone hmod
    have hown : S.coreOf cpu = core := by
      rw [Snapshot.coreOf, hcore]
      rfl
    rw [addCpuAndCoreToNode_ok hcore hmem]
    have hlayer : DieLayer (placeThread children core cpu) := by
      rw [← hown, ← place_plain hmod]
      exact place_dieLayer hfine.layer fun hhit => hmodule hhit.findsModule
    refine ⟨⟨hlayer, placeThread_int core cpu hfine.int⟩, mem_placeThread hfine.int ?_,
      fun x => mem_placeThread_of_mem core cpu⟩
    intro k found hfind hk
    refine (hfine.layer found (List.mem_of_getElem? hk)).resolve_left fun hm => ?_
    exact hmodule ⟨hmod, k, found, by rw [hown]; exact hfind, hk, hm.1⟩

end Placing

section Rounds

variable {S : Snapshot} {mem : InsertSite → Bool}

/-- The CPU is in some array. -/
def Placed (cpu : Int) (b : Build) : Prop :=
  b.Somewhere fun cs => toInt32 cpu ∈ blockThreads cs

/-- The builds whose rounds are heeded: every DIE has children, and every package a DIE. -/
structure FineBuild (b : Build) : Prop where
  arrays : b.EachArray fun cs => FineBlock cs ∧ cs ≠ []
  packages : ∀ p, p < b.sockets.length → b.addrAt p 0 ≠ none

theorem FineBuild.empty : FineBuild .empty := by
  refine ⟨fun p d ptr h => ?_, fun p h => absurd h (Nat.not_lt_zero p)⟩
  simp [Build.addrAt, Build.getDie, Build.empty] at h

/-- A new package changes no array. -/
theorem Build.EachArray.openPackage {Q : List ArchNode → Prop} {st : NodeLoop}
    (h : st.build.EachArray Q) (packageId : Int) :
    (st.openPackage packageId).build.EachArray Q := by
  intro p d ptr haddr
  unfold NodeLoop.openPackage at haddr ⊢
  rw [openPackage_addrAt] at haddr
  rw [openPackage_next, openPackage_heap]
  exact h p d ptr haddr

/-- A CPU that `find_cpu` finds is in the tree. -/
theorem placed_of_found {st : NodeLoop} (hok : st.Ok) (hfine : FineBuild st.build) {cpu : Int}
    {present : List ArchNode} (hload : st.build.loadChildren st.deref = some present)
    (hfind : findCpuAny (toInt32 cpu) present = true) : Placed cpu st.build := by
  rw [Build.loadChildren_eq_loadAddr] at hload
  rcases hok.deref_children with hnone | ⟨p, d, _, haddr⟩
  · rw [hnone] at hload
    cases hload
    cases hfind
  · obtain ⟨a, ha, _, hblock⟩ := hfine.arrays p d _ haddr
    rw [ha] at hload haddr
    have hheap : st.build.heap a = some present := hload
    refine ⟨p, d, a, haddr, fun cs hcs => ?_⟩
    rw [hheap] at hcs
    cases hcs
    exact ((hblock present hheap).1.layer.findCpuAny_iff _).mp hfind

/-- **A heeded round** keeps the build fine and the CPUs that are there, and adds its own. -/
theorem processCpu_heeded {st st' : NodeLoop} (hok : st.Ok) (hfine : FineBuild st.build)
    {cpu : Int} (hheeded : RoundMeets S (Heeded S) mem st cpu)
    (hstep : processCpu S mem st cpu = .ok st') :
    (st'.Ok ∧ FineBuild st'.build) ∧ Placed cpu st'.build ∧
      ∀ c, Placed c st.build → Placed c st'.build := by
  rcases processCpu_cases hstep with ⟨hlocate, rfl⟩ | ⟨st₁, children, children', hlocate, _, _,
    hload, hplace, rfl⟩
  · obtain ⟨present, hpresent, hfind⟩ := locateDie_found hlocate
    exact ⟨⟨hok, hfine⟩, placed_of_found hok hfine hpresent hfind, fun _ => id⟩
  · obtain ⟨d, ptr, hloc⟩ := locateDie_located hok hlocate
    have hopen := hok.openPackage (S.packageOf cpu)
    have harrays := hfine.arrays.openPackage (S.packageOf cpu)
    have hread := hloc.loadChildren.symm.trans hload
    have hblock : FineBlock children := by
      rcases harrays.loaded (hopen.pointer hloc.source) hread with rfl | hblock
      · exact fineBlock_nil
      · exact hblock.1
    obtain ⟨hblock', hcpu, hkept⟩ :=
      placeCpu_heeded hblock (hheeded st₁ children hlocate hload) hplace
    have hne : children' ≠ [] := by
      rintro rfl
      exact absurd hcpu List.not_mem_nil
    have hround := (hloc.round hread hne).of_openPackage
    have hall := hfine.arrays.allocated
    refine ⟨⟨hround.ok, hround.eachArray hok hne ⟨hblock', hne⟩ hfine.arrays,
      hround.packages_ne_none hfine.packages⟩, ?_,
      fun c hc => hround.somewhere hne hall (hkept _) hc⟩
    obtain ⟨a, haddr, hheap⟩ := hround.stored hne
    refine ⟨_, d, a, haddr, fun cs hcs => ?_⟩
    rw [hheap] at hcs
    cases hcs
    exact hcpu

/-- A node whose rounds are heeded has all its CPUs in the tree. -/
theorem processNode_heeded {b b' : Build} (hfine : FineBuild b) {node : DieNode × Nat}
    (hnode : node.1 ∈ getNodes S.nodeDir) (hmeets : NodeMeets S (Heeded S) b node)
    (hstep : processNode S b node = .ok b') :
    (FineBuild b' ∧ ∀ cpu ∈ S.cpulist node.1.id, Placed cpu b') ∧
      ∀ c, Placed c b → Placed c b' := by
  obtain ⟨_, st, hrun, rfl⟩ := processNode_ok hstep
  have hround : ∀ (s : NodeLoop) (round : Int × Nat) s', s.Ok ∧ FineBuild s.build →
      RoundMeets S (Heeded S) (S.memory node.2 round.2) s round.1 →
      processCpu S (S.memory node.2 round.2) s round.1 = .ok s' →
      (s'.Ok ∧ FineBuild s'.build) ∧ Placed round.1 s'.build ∧
        ∀ c, Placed c s.build → Placed c s'.build :=
    fun s round s' hs hG h => processCpu_heeded hs.1 hs.2 hG h
  have hstart : NodeLoop.Ok ⟨b, node.1, .scratch⟩ ∧ FineBuild b := ⟨nodeLoop_ok hnode b, hfine⟩
  constructor
  · obtain ⟨hend, hplaced⟩ := Transition.Meets.run_collects
      (I := fun s : NodeLoop => s.Ok ∧ FineBuild s.build)
      (D := fun (round : Int × Nat) (s : NodeLoop) => Placed round.1 s.build)
      (fun s round _ s' hs hG h => ⟨(hround s round s' hs hG h).1, (hround s round s' hs hG h).2.1⟩)
      (fun s round _ s' hs hG h c => (hround s round s' hs hG h).2.2 c.1) hmeets hstart hrun
    refine ⟨hend.2, fun cpu hcpu => ?_⟩
    obtain ⟨i, hi⟩ := List.mem_iff_getElem?.mp hcpu
    exact hplaced (cpu, i) (List.mem_zipIdx_iff_getElem?.mpr hi)
  · intro c hc
    exact (Transition.Meets.run_invariant
      (I := fun s : NodeLoop => (s.Ok ∧ FineBuild s.build) ∧ Placed c s.build)
      (fun s round _ s' hs hG h =>
        ⟨(hround s round s' hs.1 hG h).1, (hround s round s' hs.1 hG h).2.2 c hs.2⟩)
      hmeets ⟨hstart, hc⟩ hrun).2

/-- **A build whose rounds are heeded has every CPU in the tree.** -/
theorem processNodes_heeded (hmeets : EveryRound S (Heeded S)) {b : Build}
    (hrun : processNodes S = .ok b) :
    FineBuild b ∧ ∀ n ∈ S.nodes, ∀ cpu ∈ S.cpulist n, Placed cpu b := by
  obtain ⟨hfine, hplaced⟩ := Transition.Meets.run_collects (I := FineBuild)
    (D := fun (node : DieNode × Nat) b => ∀ cpu ∈ S.cpulist node.1.id, Placed cpu b)
    (fun b node hnode b' hb hG h =>
      (processNode_heeded hb (List.fst_mem_of_mem_zipIdx hnode) hG h).1)
    (fun b node hnode b' hb hG h other hother cpu hcpu =>
      (processNode_heeded hb (List.fst_mem_of_mem_zipIdx hnode) hG h).2 cpu (hother cpu hcpu))
    hmeets FineBuild.empty hrun
  refine ⟨hfine, fun n hn cpu hcpu => ?_⟩
  rw [← map_zipIdx_nodes] at hn
  obtain ⟨node, hnode, rfl⟩ := List.mem_map.mp hn
  exact hplaced node hnode cpu hcpu

end Rounds

section Finish

theorem sortBlock_dieLayer {cs : List ArchNode} (h : DieLayer cs) : DieLayer (sortBlock cs) :=
  sortBlock_layer (M := IsModule) (C := IsCore) (fun _ => IsModule.sort) (fun _ => IsCore.sort) h

theorem sortBlock_fine {cs : List ArchNode} (h : FineBlock cs ∧ cs ≠ []) :
    FineBlock (sortBlock cs) ∧ sortBlock cs ≠ [] := by
  refine ⟨⟨sortBlock_dieLayer h.1.layer, fun x hx => ?_⟩, ?_⟩
  · exact h.1.int x ((threads_sortBlock cs).mem_iff.mp hx)
  · obtain ⟨c, hc⟩ := List.exists_mem_of_ne_nil _ h.2
    exact List.ne_nil_of_mem (mem_sortBlock.mpr ⟨c, hc, rfl⟩)

theorem renumberDieChildren_fine (k : Int) {cs : List ArchNode} (h : FineBlock cs ∧ cs ≠ []) :
    FineBlock (renumberDieChildren k cs).2 ∧ (renumberDieChildren k cs).2 ≠ [] := by
  obtain ⟨hlayer, hthreads⟩ := renumberDieChildren_layered k h.1.layer
  refine ⟨⟨hlayer, by rw [hthreads]; exact h.1.int⟩, ?_⟩
  rw [← List.length_pos_iff, renumberDieChildren_length]
  exact List.length_pos_iff.mpr h.2

/-- Sorting keeps the DIEs of every package. -/
theorem children_ne_nil_sortUpper {b : Build} (h : ∀ socket ∈ b.sockets, socket.children ≠ [])
    {socket : SocketNode} (hs : socket ∈ b.sortUpper.sockets) : socket.children ≠ [] := by
  obtain ⟨old, hold, rfl⟩ := List.mem_map.mp hs
  have hmem : old ∈ b.sockets :=
    (BubbleSort.bubbleSort_perm SocketNode.id b.sockets).mem_iff.mp hold
  obtain ⟨die, hdie⟩ := List.exists_mem_of_ne_nil _ (h old hmem)
  exact List.ne_nil_of_mem
    ((BubbleSort.bubbleSort_perm DieNode.id old.children).mem_iff.mpr hdie)

/-- The finished tree of a fine build has the layers and the CPUs that were placed. -/
theorem FineBuild.tree {b b' : Build} (h : FineBuild b) (hfinish : b.finish = some b')
    {hostname : Option String} {t : ArchNode} (ht : b'.tree hostname = some t) :
    t.Layered ∧ ∀ cpu, Placed cpu b → toInt32 cpu ∈ t.threads := by
  obtain ⟨rfl, hall⟩ := Build.EachArray.finish (Q := fun cs => FineBlock cs ∧ cs ≠ [])
    (fun _ => sortBlock_fine) (fun k _ => renumberDieChildren_fine k) h.arrays hfinish ht
  constructor
  · refine Build.viewTree_layered (fun socket hs => ?_) (fun die hd => ?_) hostname
    · rw [(Build.finish_some (P := fun _ => True) (fun _ _ => trivial) (fun _ _ _ => trivial)
        hfinish).1] at hs
      exact children_ne_nil_sortUpper (fun _ => Build.children_ne_nil h.packages) hs
    · obtain ⟨_, _, _, hblock, hne⟩ := hall die hd
      exact ⟨hne, hblock.layer⟩
  · rintro cpu ⟨p, d, a, haddr, hthere⟩
    obtain ⟨hsockets, hkeep, hlive⟩ := Build.finish_some
      (P := fun cs => DieLayer cs ∧ toInt32 cpu ∈ blockThreads cs)
      (fun cs hcs => ⟨sortBlock_dieLayer hcs.1, (threads_sortBlock cs).mem_iff.mpr hcs.2⟩)
      (fun k cs hcs => by
        obtain ⟨hlayer, hthreads⟩ := renumberDieChildren_layered k hcs.1
        exact ⟨hlayer, by rw [hthreads]; exact hcs.2⟩) hfinish
    obtain ⟨socket, hs, die, hd, hptr⟩ := Build.mem_of_addrAt haddr
    have hdie := Build.mem_dies hs hd
    obtain ⟨cs, hcs⟩ := Option.ne_none_iff_exists'.mp (hlive die hdie a hptr)
    obtain ⟨a', ha', _, hblock⟩ := h.arrays p d _ haddr
    cases ha'
    obtain ⟨cs', hcs', _, hmem⟩ := hkeep a cs hcs ⟨(hblock cs hcs).1.layer, hthere cs hcs⟩
    rw [Build.threads_viewTree, List.mem_flatMap]
    refine ⟨die, (Build.mem_dies_finish hsockets).mpr hdie, ?_⟩
    rw [(Build.loadChildren_eq_view hptr hcs').2]
    exact hmem

/-- **A tree is complete if no round depends on a call that fails**, whatever else cannot
be read or is refused. -/
theorem complete_of_heeded {S : Snapshot} (hmeets : EveryRound S (Heeded S)) {t : ArchNode}
    (h : initArchitectureNodes S = .ok t) : Complete S t := by
  obtain ⟨hostname, b, b', hrun, hfinish, htree⟩ := initArchitectureNodes_ok h
  obtain ⟨hfine, hplaced⟩ := processNodes_heeded hmeets hrun
  obtain ⟨hlayered, hthreads⟩ := hfine.tree hfinish htree
  constructor
  · intro n hn cpu hcpu
    obtain ⟨x, hx, hid⟩ := List.mem_map.mp (hthreads cpu (hplaced n hn cpu hcpu))
    obtain ⟨hmem, hthread⟩ := mem_level.mp hx
    exact ⟨x, hmem, hthread, hid, hlayered.leaves x hmem hthread⟩
  · intro x hx hsystem hthread
    rw [preorder_eq_cons] at hx
    rcases List.mem_cons.mp hx with rfl | hx
    · exact absurd hlayered.1 hsystem
    · obtain ⟨s, hs, hxs⟩ := List.mem_flatMap.mp hx
      exact populated_of_socket (hlayered.2 s hs) x hxs hthread

end Finish

section FilesOnly

variable {S : Snapshot} {mem : InsertSite → Bool}

/-- The files that can be read let a CPU be found again: an L2 group that gets a MODULE
contains the CPU, and a core does not have the id of a MODULE. -/
structure Findable (S : Snapshot) (children : List ArchNode) (cpu : Int) : Prop where
  group : S.Modular cpu → cpu ∈ S.sharedL2 cpu
  alone : S.readLong (.coreId cpu) ≠ none → ¬ FindsModule S children cpu

/-- The shape of an array when no call has failed for want of memory: only CPUs with a
`core_id` that can be read are in it. -/
structure ReadBlock (S : Snapshot) (cs : List ArchNode) : Prop where
  shape : ∀ c ∈ cs, c.ModuleShape ∨ c.CoreShape
  read : ∀ x ∈ blockThreads cs, S.readLong (.coreId x) ≠ none

theorem readBlock_nil : ReadBlock S [] :=
  ⟨fun _ h => absurd h List.not_mem_nil, fun _ h => absurd h List.not_mem_nil⟩

theorem coreNode_coreShape (core cpu : Int) : (coreNode core cpu).CoreShape :=
  (coreNode_isCore core cpu).coreShape

theorem withThread_coreShape {found : ArchNode} (h : found.CoreShape) (cpu : Int) :
    (withThread cpu found).CoreShape := by
  unfold withThread
  cases findChild (found.children.map ArchNode.id) cpu with
  | some _ => exact h
  | none => exact coreShape_grows.thread found _ _ h

variable (hint : ∀ cpu, S.readLong (.coreId cpu) ≠ none → IsInt32 cpu)
include hint

theorem placeThread_read {children : List ArchNode} {core cpu : Int}
    (hcore : S.readLong (.coreId cpu) = some core)
    (h : ∀ x ∈ blockThreads children, S.readLong (.coreId x) ≠ none) :
    ∀ x ∈ blockThreads (placeThread children core cpu), S.readLong (.coreId x) ≠ none := by
  intro x hx
  have hread : S.readLong (.coreId cpu) ≠ none := by
    rw [hcore]
    exact Option.some_ne_none core
  obtain ⟨new, hnew, hperm⟩ := placeThread_added children core cpu
  rcases List.mem_append.mp (hperm.mem_iff.mp hx) with hx | hx
  · exact h x hx
  · rw [hnew x hx, toInt32_of_isInt32 (hint cpu hread)]
    exact hread

variable (hmem : ∀ site, mem site = true)
include hmem

/-- A round leaves out the CPUs whose `core_id` cannot be read. -/
theorem placeCpu_read {children children' : List ArchNode} {cpu : Int}
    (h : ReadBlock S children) (hfind : Findable S children cpu)
    (hplace : placeCpu S mem children cpu (S.sharedL2 cpu) (S.sharedL1 cpu) = some children') :
    ReadBlock S children' := by
  rcases placeCpu_cases hplace with ⟨_, _, rfl⟩ | ⟨hmod, rfl⟩
  · let P : List ArchNode → Prop := fun cs => (∀ c ∈ cs, c.CoreShape) ∧
      ∀ x ∈ blockThreads cs, S.readLong (.coreId x) ≠ none
    have hgroup : P (addGroup S mem 0 (S.sharedL2 cpu) []) := by
      refine addGroup_keeps (fun children core c hcore hP => ⟨fun x hx => ?_,
        placeThread_read hint hcore hP.2⟩) ⟨by simp, by simp⟩
        fun before c _ _ => not_leavesEmptyCore hmem _ _ c
      rcases mem_placeThread_cases hx with hx | rfl | ⟨k, found, _, hfound, rfl⟩
      · exact hP.1 x hx
      · exact coreNode_coreShape core c
      · exact withThread_coreShape (hP.1 found (List.mem_of_getElem? hfound)) c
    constructor
    · intro c hc
      rcases List.mem_append.mp hc with hc | hc
      · exact h.shape c hc
      · rw [List.mem_singleton.mp hc]
        exact .inl ⟨rfl, hgroup.1⟩
    · intro x hx
      rw [blockThreads_append, blockThreads_singleton, threads_moduleNode, List.mem_append] at hx
      exact hx.elim (h.read x) (hgroup.2 x)
  · refine addCpuAndCoreToNode_keeps (not_leavesEmptyCore hmem 0 children cpu)
      (fun core hcore => ⟨fun c hc => ?_, placeThread_read hint hcore h.read⟩) h
    have hown : S.coreOf cpu = core := by
      rw [Snapshot.coreOf, hcore]
      rfl
    rcases mem_placeThread_cases hc with hc | rfl | ⟨k, found, hcoreOf, hfound, rfl⟩
    · exact h.shape c hc
    · exact .inr (coreNode_coreShape core cpu)
    · have hmodule := hfind.alone (by rw [hcore]; exact Option.some_ne_none core)
      rcases h.shape found (List.mem_of_getElem? hfound) with hm | hfoundCore
      · exact absurd ⟨hmod, k, found, by rw [hown]; exact hcoreOf, hfound, hm.1⟩ hmodule
      · exact .inr (withThread_coreShape hfoundCore cpu)

end FilesOnly

section Exact

theorem ModuleShape.sort {t : ArchNode} (h : t.ModuleShape) :
    (sortChildrenRecursive t).ModuleShape := by
  refine ⟨by rw [granularity_sortChildrenRecursive, h.1], fun c hc => ?_⟩
  rw [children_sortChildrenRecursive] at hc
  obtain ⟨c', hc', rfl⟩ := mem_sortBlock.mp hc
  exact CoreShape.sort (h.2 c' hc')

theorem sortBlock_read {S : Snapshot} {cs : List ArchNode} (h : ReadBlock S cs) :
    ReadBlock S (sortBlock cs) where
  shape := sortBlock_layer (M := ModuleShape) (C := CoreShape) (fun _ => ModuleShape.sort)
    (fun _ => CoreShape.sort) h.shape
  read x hx := h.read x ((threads_sortBlock cs).mem_iff.mp hx)

theorem renumberDieChildren_read {S : Snapshot} (k : Int) {cs : List ArchNode}
    (h : ReadBlock S cs) : ReadBlock S (renumberDieChildren k cs).2 := by
  have hloop := renumberDieChildren_renumbers k h.shape
  constructor
  · exact hloop.keeps (P := fun c => c.ModuleShape ∨ c.CoreShape)
      (fun t => by simp [ModuleShape, CoreShape]) h.shape
  · rw [hloop.blockThreads]
    exact h.read

/-- The snapshots in which nothing but files fails: memory is granted, the numbers of the
CPUs fit into an `int32_t`, and the files that can be read let the CPUs be found. -/
structure OnlyFilesFail (S : Snapshot) : Prop where
  memory : ∀ i k site, S.memory i k site = true
  coreInt : ∀ cpu, S.readLong (.coreId cpu) ≠ none → IsInt32 cpu
  cpuInt : ∀ n ∈ S.nodes, ∀ cpu ∈ S.cpulist n, IsInt32 cpu
  findable : EveryRound S fun _ => Findable S

variable {S : Snapshot} (hS : OnlyFilesFail S)
include hS

theorem processNodes_read {b : Build} (hrun : processNodes S = .ok b) :
    b.Arrays (ReadBlock S) := by
  refine Transition.Meets.run_invariant (I := Build.Arrays (ReadBlock S))
    (fun b node _ b' hb hmeets hstep => ?_) hS.findable (Build.arrays_empty _) hrun
  obtain ⟨_, st, hrounds, rfl⟩ := processNode_ok hstep
  refine Transition.Meets.run_invariant
    (I := fun st : NodeLoop => st.build.Arrays (ReadBlock S))
    (fun s round _ s' hs hG h => ?_) hmeets hb hrounds
  exact processCpu_arrays readBlock_nil (fun st₁ children children' hlocate hload hblock =>
    placeCpu_read hS.coreInt (hS.memory node.2 round.2) hblock (hG st₁ children hlocate hload))
    hs h

/-- A CPU in the tree has a `core_id` that can be read. -/
theorem coreId_of_threads {t : ArchNode} (h : initArchitectureNodes S = .ok t) :
    ∀ x ∈ t.threads, S.readLong (.coreId x) ≠ none := by
  obtain ⟨hostname, b, b', hrun, hfinish, htree⟩ := initArchitectureNodes_ok h
  have harrays := finish_arrays (P := ReadBlock S) (fun _ => sortBlock_read)
    (fun k _ => renumberDieChildren_read k) (processNodes_read hS hrun) hfinish
  obtain ⟨hsystem, hsockets⟩ := Build.tree_cases htree
  intro x hx
  rw [threads_of_ne (by rw [hsystem]; decide)] at hx
  obtain ⟨s, hs, hx⟩ := mem_blockThreads.mp hx
  obtain ⟨hsocket, hdies⟩ := hsockets s hs
  rw [threads_of_ne (by rw [hsocket]; decide)] at hx
  obtain ⟨d, hd, hx⟩ := mem_blockThreads.mp hx
  obtain ⟨hdie, die, _, hload⟩ := hdies d hd
  rw [threads_of_ne (by rw [hdie]; decide)] at hx
  exact (harrays.loadChildren readBlock_nil hload).read x hx

/-- With readable core ids every round is heeded. -/
theorem everyRound_heeded
    (hread : ∀ n ∈ S.nodes, ∀ cpu ∈ S.cpulist n, S.readLong (.coreId cpu) ≠ none) :
    EveryRound S (Heeded S) := by
  refine hS.findable.mono fun b node hnode hmeets => ?_
  refine hmeets.mono fun st round hround hG st₁ children hlocate hload => ?_
  have hn : node.1.id ∈ S.nodes := List.mem_map_of_mem (List.fst_mem_of_mem_zipIdx hnode)
  have hcpu := hread _ hn _ (List.fst_mem_of_mem_zipIdx hround)
  have hmem := hS.memory node.2 round.2
  have hcall : ∀ j children, CallSucceeds S (S.memory node.2 round.2) j children round.1 := by
    intro j children
    obtain ⟨core, hcore⟩ := Option.ne_none_iff_exists'.mp hcpu
    exact ⟨core, hcore, fun site _ => hmem site⟩
  have hfind := hG st₁ children hlocate hload
  constructor
  · intro hmod
    obtain ⟨before, later, hsplit⟩ := List.append_of_mem (hfind.group hmod)
    exact ⟨fun before c _ _ => not_leavesEmptyCore hmem _ _ c, before, later, hsplit, hcall _ _⟩
  · exact fun _ => ⟨hcall 0 children, hfind.alone hcpu⟩

/-- **When nothing but files fails, a tree is complete exactly if the core ids of all its
CPUs can be read.** -/
theorem complete_iff_coreIds {t : ArchNode} (h : initArchitectureNodes S = .ok t) :
    Complete S t ↔ ∀ n ∈ S.nodes, ∀ cpu ∈ S.cpulist n, S.readLong (.coreId cpu) ≠ none := by
  constructor
  · intro hcomplete n hn cpu hcpu
    obtain ⟨x, hx, hthread, hid, _⟩ := hcomplete.threads n hn cpu hcpu
    have hmem : x.id ∈ t.threads := List.mem_map_of_mem (mem_level.mpr ⟨hx, hthread⟩)
    rw [hid, toInt32_of_isInt32 (hS.cpuInt n hn cpu hcpu)] at hmem
    exact coreId_of_threads hS h cpu hmem
  · exact fun hread => complete_of_heeded (everyRound_heeded hS hread) h

end Exact

section Main

/-- The same machine where a file cannot be read. -/
def Snapshot.without (S : Snapshot) (file : TopologyFile) : Snapshot :=
  { S with readLong := fun f => if f = file then none else S.readLong f }

/-- CPUs 0 and 1 share an L2 cache with CPU 2, which is in no cpulist and has no `core_id`. -/
def offlineSibling : Snapshot :=
  (Snapshot.ofMachine [[0, 1]] fun cpu => ⟨0, cpu, [0, 1, 2], [cpu]⟩).without (.coreId 2)

/-- One CPU whose `core_id` cannot be read. -/
def unreadableCore : Snapshot :=
  (Snapshot.ofMachine [[0]] fun cpu => ⟨0, 0, [cpu], [cpu]⟩).without (.coreId 0)

/-- The tree ends at an empty DIE. -/
def unreadableCoreTree : ArchNode :=
  .node .system 0 (some "host") [.node .socket 0 (some "Processor 0")
    [.node .die 0 (some "0") []]]

end Main

end ParseArchitecture
end X86Energy
