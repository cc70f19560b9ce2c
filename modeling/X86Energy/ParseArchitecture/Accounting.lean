import Mathlib.Data.List.Dedup
import X86Energy.Library.GroupCover
import X86Energy.ParseArchitecture.SinglePackage

/-!
# Which CPUs end up in the tree

`Accounted` is what a client expects of the tree: one THREAD for each online CPU, in
the SOCKET of its package and the DIE of its NUMA node, and matching counts.

On a DIE that is built on its own, `process_node` covers the cpulist group by group:
a CPU with a larger L2 group than L1 group brings its whole group, any other comes
alone.  So a CPU is there twice exactly if it was placed alone before a CPU that
brings its group (`GroupCover.cover_nodup_iff`).
-/

namespace X86Energy
namespace ParseArchitecture

open CInt ArchNode GroupCover

section Threads

variable {S : Snapshot}

/-- Whenever a CPU without a larger L2 group is placed, the first child of its DIE
with the id of the CPU's core is not a MODULE. -/
def AvoidsModules (S : Snapshot) : Prop :=
  ∀ n ∈ S.nodes, ∀ pre cpu post, S.cpulist n = pre ++ cpu :: post →
    findCpuAny (toInt32 cpu) (dieBlock S pre) = false → ¬ FindsModule S (dieBlock S pre) cpu

/-- `AvoidsModules` position by position. -/
theorem avoidsModules_of_take (h : ∀ n ∈ S.nodes, ∀ i < (S.cpulist n).length,
      findCpuAny (toInt32 ((S.cpulist n).getD i 0)) (dieBlock S ((S.cpulist n).take i)) = false →
      ¬ FindsModule S (dieBlock S ((S.cpulist n).take i)) ((S.cpulist n).getD i 0)) :
    AvoidsModules S := by
  intro n hn pre cpu post hsplit
  have hhere := h n hn pre.length (by rw [hsplit]; simp)
  rw [hsplit] at hhere
  simpa using hhere

/-- What the topology files of one machine have in common: a CPU is in one cpulist, its
number fits into an `int`, and the CPUs that share an L2 cache have the same list,
which stays inside their NUMA node and package. -/
structure Topology (S : Snapshot) : Prop where
  readable : S.Readable
  hostname : S.hostname ≠ none
  nodup : S.online.Nodup
  cpuInt : ∀ cpu ∈ S.online, IsInt32 cpu
  groups : ∀ n ∈ S.nodes, IsGrouping S.sharedL2 (S.cpulist n)
  groupPackage : ∀ cpu ∈ S.online, ∀ c ∈ S.sharedL2 cpu, S.packageOf c = S.packageOf cpu

/-- A machine whose package ids fit into the `int32_t` of a node as well. -/
structure Consistent (S : Snapshot) : Prop extends Topology S where
  packageInt : ∀ cpu ∈ S.online, IsInt32 (S.packageOf cpu)

/-- The nodes that have CPUs are distinct. -/
theorem Consistent.busyNodes (hS : Consistent S) : (busyNodes S S.nodes).Nodup :=
  nodup_filter_of_flatMap hS.nodup

theorem mem_online {n cpu : Int} (hn : n ∈ S.nodes) (hcpu : cpu ∈ S.cpulist n) :
    cpu ∈ S.online :=
  List.mem_flatMap.mpr ⟨n, hn, hcpu⟩

/-- A DIE that is built on its own has the layers, and its THREADs are the CPUs that
the cpulist covers. -/
theorem dieBlock_threads (hS : Consistent S) (havoid : AvoidsModules S) {n : Int}
    (hn : n ∈ S.nodes) (pre post : List Int) (hsplit : S.cpulist n = pre ++ post) :
    DieLayer (dieBlock S pre) ∧
      (blockThreads (dieBlock S pre)).Perm (cover S.sharedL2 S.Modular pre) := by
  induction pre using List.reverseRecOn generalizing post with
  | nil => exact ⟨by simp [dieBlock, DieLayer], List.Perm.refl _⟩
  | append_singleton pre cpu ih =>
      rw [List.append_assoc, List.singleton_append] at hsplit
      obtain ⟨hlayer, hthreads⟩ := ih (cpu :: post) hsplit
      have hcpu : cpu ∈ S.cpulist n := by rw [hsplit]; simp
      have hint : IsInt32 cpu := hS.cpuInt cpu (mem_online hn hcpu)
      have hgroups := hS.groups n hn
      rw [dieBlock_append_singleton, cover_append_singleton]
      unfold dieStep coverStep
      have hfind : findCpuAny (toInt32 cpu) (dieBlock S pre) = true ↔
          cpu ∈ cover S.sharedL2 S.Modular pre := by
        rw [toInt32_of_isInt32 hint, hlayer.findCpuAny_iff, hthreads.mem_iff]
      by_cases hthere : cpu ∈ cover S.sharedL2 S.Modular pre
      · rw [if_pos (hfind.mpr hthere), if_pos hthere]
        exact ⟨hlayer, hthreads⟩
      · have hnot : findCpuAny (toInt32 cpu) (dieBlock S pre) = false :=
          Bool.eq_false_iff.mpr fun h => hthere (hfind.mp h)
        have hmodule := havoid n hn pre cpu post hsplit hnot
        rw [if_neg (by simp [hnot]), if_neg hthere]
        refine ⟨place_dieLayer hlayer fun h => hmodule h.findsModule, ?_⟩
        have hplace := place_threads hlayer hmodule hint
          (fun c hc => hS.cpuInt c (mem_online hn (hgroups.closed cpu hcpu c hc)))
          (hgroups.nodup cpu hcpu) fun hmem => hthere (hthreads.mem_iff.mp hmem)
        by_cases hmod : S.Modular cpu
        · rw [if_pos hmod] at hplace ⊢
          exact hplace.trans (hthreads.append_right _)
        · rw [if_neg hmod] at hplace ⊢
          exact hplace.trans (hthreads.append_right _)

end Threads

section Tree

variable {b : Build} {done : Set Int} {pkg : Int → Int} {block : Int → List ArchNode}
  (h : Clean b done pkg block)
include h

/-- The DIE at a position of a clean build. -/
theorem Clean.die {socket : SocketNode} {die : DieNode} (hs : socket ∈ b.sockets)
    (hd : die ∈ socket.children) :
    die.id ∈ done ∧ socket.id = pkg die.id ∧ (∃ a, die.children = some a ∧
      b.heap a = some (block die.id)) ∧ b.viewBlock die = block die.id := by
  obtain ⟨p, hp⟩ := List.mem_iff_getElem?.mp hs
  obtain ⟨d, hd⟩ := List.mem_iff_getElem?.mp hd
  have hdie : b.getDie p d = some die := Build.getDie_eq.mpr ⟨socket, hp, hd⟩
  obtain ⟨hdone, hsocket, a, haddr, _, hheap⟩ :=
    h.stored p d die.id (by rw [Build.dieIdAt, hdie, Option.map_some])
  rw [Build.addrAt, hdie, Option.map_some] at haddr
  rw [Build.socketIds, List.getElem?_map, hp, Option.map_some] at hsocket
  have hptr : die.children = some a := Option.some.inj haddr
  exact ⟨hdone, Option.some.inj hsocket, ⟨a, hptr, hheap⟩,
    (Build.loadChildren_eq_view hptr hheap).2⟩

theorem Clean.separatedBuild : b.Separated := by
  constructor
  · rw [Build.dies_nodup_iff]
    intro p d p' d' die die' hdie hdie' hptr
    obtain ⟨socket, hs, hd⟩ := Build.getDie_eq.mp hdie
    obtain ⟨_, _, ⟨a, ha, _⟩, _⟩ := h.die (List.mem_of_getElem? hs) (List.mem_of_getElem? hd)
    apply h.separated p d p' d' a
    · rw [Build.addrAt, hdie, Option.map_some, ha]
    · rw [Build.addrAt, hdie', Option.map_some, ← hptr, ha]
  · intro die hd
    obtain ⟨socket, hs, hd⟩ := List.mem_flatMap.mp hd
    obtain ⟨_, _, ⟨a, ha, hheap⟩, _⟩ := h.die hs hd
    exact ⟨a, _, ha, hheap⟩

/-- The DIEs of a clean build have different ids. -/
theorem Clean.dies_nodup : (b.dies.map DieNode.id).Nodup := by
  rw [Build.dies_nodup_iff]
  intro p d p' d' die die' hdie hdie' hid
  apply h.unique p d p' d' die.id
  · rw [Build.dieIdAt, hdie, Option.map_some]
  · rw [Build.dieIdAt, hdie', Option.map_some, hid]

/-- The ids of the DIEs of a clean build. -/
theorem Clean.dieIds {nodes : List Int} (hnodup : nodes.Nodup)
    (hmem : ∀ n, n ∈ nodes ↔ n ∈ done) : (b.dies.map DieNode.id).Perm nodes := by
  refine (List.perm_ext_iff_of_nodup h.dies_nodup hnodup).mpr fun n => ?_
  rw [hmem, List.mem_map]
  constructor
  · rintro ⟨die, hd, rfl⟩
    obtain ⟨socket, hs, hd⟩ := List.mem_flatMap.mp hd
    exact (h.die hs hd).1
  · intro hn
    obtain ⟨p, d, hid⟩ := h.total n hn
    obtain ⟨die, hdie, hid⟩ := Option.map_eq_some_iff.mp hid
    obtain ⟨socket, hs, hd⟩ := Build.getDie_eq.mp hdie
    exact ⟨die, Build.mem_dies (List.mem_of_getElem? hs) (List.mem_of_getElem? hd), hid⟩

/-- The tree of a clean build of layered DIEs is layered. -/
theorem Clean.layered (hblock : ∀ n ∈ done, block n ≠ [] ∧ DieLayer (block n))
    (hostname : Option String) : (b.viewTree hostname).Layered := by
  refine Build.viewTree_layered (fun socket hsocket => ?_) (fun die hd => ?_) hostname
  · obtain ⟨p, hp⟩ := List.mem_iff_getElem?.mp hsocket
    have hfirst := h.packages p (List.getElem?_eq_some_iff.mp hp).1
    obtain ⟨n, hn⟩ := Option.ne_none_iff_exists'.mp hfirst
    obtain ⟨die, hdie, _⟩ := Option.map_eq_some_iff.mp hn
    obtain ⟨socket', hs', hd⟩ := Build.getDie_eq.mp hdie
    rw [hp] at hs'
    cases hs'
    exact List.ne_nil_of_mem (List.mem_of_getElem? hd)
  · obtain ⟨socket, hsocket, hdie⟩ := List.mem_flatMap.mp hd
    obtain ⟨hdone, _, _, hview⟩ := h.die hsocket hdie
    rw [hview]
    exact hblock die.id hdone

/-- What is below the DIEs of a clean build, node by node. -/
theorem Clean.flatMap_dies {β : Type*} {nodes : List Int} (hnodup : nodes.Nodup)
    (hmem : ∀ n, n ∈ nodes ↔ n ∈ done) (f : List ArchNode → List β) :
    (b.dies.flatMap fun die => f (b.viewBlock die)).Perm (nodes.flatMap fun n => f (block n)) := by
  have hids : (b.dies.flatMap fun die => f (b.viewBlock die)) =
      (b.dies.map DieNode.id).flatMap fun n => f (block n) := by
    rw [List.flatMap_map]
    apply List.flatMap_congr
    intro die hd
    obtain ⟨socket, hs, hd⟩ := List.mem_flatMap.mp hd
    rw [(h.die hs hd).2.2.2]
  rw [hids]
  exact (h.dieIds hnodup hmem).flatMap_right _

/-- The THREADs of the tree of a clean build. -/
theorem Clean.threads {nodes : List Int} (hnodup : nodes.Nodup)
    (hmem : ∀ n, n ∈ nodes ↔ n ∈ done) (hostname : Option String) :
    (b.viewTree hostname).threads.Perm (nodes.flatMap fun n => blockThreads (block n)) := by
  rw [Build.threads_viewTree]
  exact h.flatMap_dies hnodup hmem blockThreads

end Tree

/-- The tree has one THREAD for each online CPU, with its number, in the SOCKET of its
package and in a DIE of its NUMA node, and the counts of the library say so. -/
structure Accounted (S : Snapshot) (t : ArchNode) : Prop where
  threads : t.threads.Perm S.online
  socket : ∀ cpu ∈ S.online, ∃ s ∈ t.preorder, s.granularity = .socket ∧
    s.id = S.packageOf cpu ∧ cpu ∈ s.threads
  die : ∀ n ∈ S.nodes, ∀ cpu ∈ S.cpulist n, ∃ d ∈ t.preorder, d.granularity = .die ∧
    d.id = n ∧ cpu ∈ d.threads
  threadCount : archCount .thread t = S.online.length
  socketCount : archCount .socket t = (S.online.map S.packageOf).dedup.length

/-- In every cpulist the first CPU of an L2 group that has a larger L2 group than L1
group comes before all other members of the group. -/
def LeadersFirst (S : Snapshot) : Prop :=
  ∀ n ∈ S.nodes, LeaderFirst S.sharedL2 S.Modular (S.cpulist n)

theorem init_of_separated {S : Snapshot} (hhost : S.hostname ≠ none) {b : Build}
    (hrun : processNodes S = .ok b) (hsep : b.Separated) :
    initArchitectureNodes S = .ok (finish (b.viewTree S.hostname)) := by
  obtain ⟨hostname, hhost⟩ := Option.ne_none_iff_exists'.mp hhost
  obtain ⟨b', hfinish, htree⟩ := hsep.finish (some hostname)
  unfold initArchitectureNodes
  rw [hhost]
  simp only [hrun, hfinish, htree]

section SinglePackage

variable {S : Snapshot} (hS : Consistent S)
include hS

variable (havoid : AvoidsModules S) {b : Build}
  (h : Clean b (busy S S.nodes) S.nodePackage fun n => dieBlock S (S.cpulist n))
include havoid h

theorem layered_of_noSpan : (b.viewTree S.hostname).Layered := by
  refine h.layered (fun n hn => ⟨dieBlock_ne_nil S hn.2, ?_⟩) _
  exact (dieBlock_threads hS havoid hn.1 (S.cpulist n) [] (by simp)).1

/-- The THREADs of the finished tree are those that the cpulists cover. -/
theorem threads_of_noSpan :
    (finish (b.viewTree S.hostname)).threads.Perm
      (S.nodes.flatMap fun n => cover S.sharedL2 S.Modular (S.cpulist n)) := by
  have hbusy : ∀ n, n ∈ busyNodes S S.nodes ↔ n ∈ busy S S.nodes := fun _ => mem_busyNodes
  have hcover : (busyNodes S S.nodes).flatMap
      (fun n => cover S.sharedL2 S.Modular (S.cpulist n)) =
        S.nodes.flatMap fun n => cover S.sharedL2 S.Modular (S.cpulist n) := by
    unfold busyNodes
    induction S.nodes with
    | nil => rfl
    | cons n l ih =>
        rw [List.filter_cons, List.flatMap_cons, ← ih]
        split
        · rw [List.flatMap_cons]
        · rename_i hn
          have hnil : S.cpulist n = [] := by simpa using hn
          rw [hnil]
          rfl
  have hlayered := layered_of_noSpan hS havoid h
  refine hlayered.threads_finish.trans ?_
  refine (h.threads hS.busyNodes hbusy S.hostname).trans ?_
  rw [← hcover]
  apply List.Perm.flatMap_left
  intro n hn
  exact (dieBlock_threads hS havoid ((hbusy n).mp hn).1 (S.cpulist n) [] (by simp)).2

/-- The THREADs are distinct only if the leaders come first. -/
theorem leaders_of_threads_nodup (hnodup : (finish (b.viewTree S.hostname)).threads.Nodup) :
    LeadersFirst S := by
  intro n hn
  have hcover := (threads_of_noSpan hS havoid h).nodup_iff.mp hnodup
  exact (cover_nodup_iff (hS.groups n hn) (fun _ hx => hx)
    ((List.nodup_flatMap.mp hS.nodup).1 n hn)).mp ((List.nodup_flatMap.mp hcover).1 n hn)

/-- If the leaders come first, the THREADs are the online CPUs. -/
theorem threads_of_leaders (hleaders : LeadersFirst S) :
    (finish (b.viewTree S.hostname)).threads.Perm S.online := by
  refine (threads_of_noSpan hS havoid h).trans (List.Perm.flatMap_left _ fun n hn => ?_)
  exact (cover_perm (hS.groups n hn) ((List.nodup_flatMap.mp hS.nodup).1 n hn)).mpr
    (hleaders n hn)

variable (hspan : NoSpan S)
include hspan

/-- Every CPU is in the SOCKET of its package and in the DIE of its node. -/
theorem place_of_noSpan {n cpu : Int} (hn : n ∈ S.nodes) (hcpu : cpu ∈ S.cpulist n) :
    ∃ s ∈ (finish (b.viewTree S.hostname)).children, s.id = S.packageOf cpu ∧
      cpu ∈ s.threads ∧ ∃ d ∈ s.children, d.id = n ∧ cpu ∈ d.threads := by
  obtain ⟨p, d, hid⟩ := h.total n ⟨hn, List.ne_nil_of_mem hcpu⟩
  obtain ⟨die, hdie, hid⟩ := Option.map_eq_some_iff.mp hid
  obtain ⟨socket, hs, hd⟩ := Build.getDie_eq.mp hdie
  have hs := List.mem_of_getElem? hs
  have hd := List.mem_of_getElem? hd
  obtain ⟨_, hpackage, _, hview⟩ := h.die hs hd
  rw [hid] at hpackage hview
  have hsocket : b.viewSocket socket ∈ (b.viewTree S.hostname).children :=
    List.mem_map_of_mem hs
  have hdie : b.viewDie die ∈ (b.viewSocket socket).children := List.mem_map_of_mem hd
  have hthread : cpu ∈ (b.viewDie die).threads := by
    rw [threads_of_ne (by simp [Build.viewDie]), Build.viewDie, children_node, hview,
      (dieBlock_threads hS havoid hn (S.cpulist n) [] (by simp)).2.mem_iff]
    exact (mem_cover_self (hS.groups n hn)).mpr hcpu
  have hthread' : cpu ∈ (b.viewSocket socket).threads := by
    rw [threads_of_ne (by simp [Build.viewSocket])]
    exact mem_blockThreads.mpr ⟨_, hdie, hthread⟩
  obtain ⟨s', hs', hsid, hsthreads, d', hd', hdid, hdthreads⟩ :=
    (layered_of_noSpan hS havoid h).place_finish hsocket hdie
  refine ⟨s', hs', ?_, hsthreads.mem_iff.mpr hthread', d', hd', ?_,
    hdthreads.mem_iff.mpr hthread⟩
  · rw [hsid, ← nodePackage_eq hspan hn hcpu, ← hpackage]
    rfl
  · rw [hdid, ← hid]
    rfl

/-- The ids of the SOCKETs of the finished tree are the packages, each once. -/
theorem socketIds_of_noSpan :
    ((finish (b.viewTree S.hostname)).children.map ArchNode.id).Perm
      (S.online.map S.packageOf).dedup := by
  have hlayered := layered_of_noSpan hS havoid h
  have hview : (b.viewTree S.hostname).children.map ArchNode.id = b.socketIds := by
    rw [Build.viewTree, children_node, List.map_map]
    rfl
  refine (hview ▸ hlayered.socketIds_finish).trans ?_
  refine (List.perm_ext_iff_of_nodup h.nodup (List.nodup_dedup _)).mpr fun x => ?_
  rw [List.mem_dedup, List.mem_map, Build.socketIds, List.mem_map]
  constructor
  · rintro ⟨socket, hs, rfl⟩
    have hne := ((hlayered.2 (b.viewSocket socket) (List.mem_map_of_mem hs)).2.1)
    obtain ⟨die, hd⟩ : ∃ die, die ∈ socket.children := by
      obtain ⟨d, hd⟩ := List.exists_mem_of_ne_nil _ hne
      obtain ⟨die, hdie, _⟩ := List.mem_map.mp hd
      exact ⟨die, hdie⟩
    obtain ⟨⟨hn, hcpus⟩, hpackage, _⟩ := h.die hs hd
    obtain ⟨cpu, hcpu⟩ := List.exists_mem_of_ne_nil _ hcpus
    exact ⟨cpu, mem_online hn hcpu, by rw [hpackage, nodePackage_eq hspan hn hcpu]⟩
  · rintro ⟨cpu, hcpu, rfl⟩
    obtain ⟨n, hn, hcpu⟩ := List.mem_flatMap.mp hcpu
    obtain ⟨p, d, hid⟩ := h.total n ⟨hn, List.ne_nil_of_mem hcpu⟩
    obtain ⟨die, hdie, hid⟩ := Option.map_eq_some_iff.mp hid
    obtain ⟨socket, hs, hd⟩ := Build.getDie_eq.mp hdie
    have hpackage := (h.die (List.mem_of_getElem? hs) (List.mem_of_getElem? hd)).2.1
    refine ⟨socket, List.mem_of_getElem? hs, ?_⟩
    rw [hpackage, hid, nodePackage_eq hspan hn hcpu]

/-- The SOCKETs are counted as often as there are packages. -/
theorem socketCount_of_noSpan :
    archCount .socket (finish (b.viewTree S.hostname)) =
      (S.online.map S.packageOf).dedup.length := by
  rw [(layered_of_noSpan hS havoid h).finished.archCount_socket,
    ← (socketIds_of_noSpan hS havoid h hspan).length_eq, List.length_map]

/-- When no node spans packages, the tree accounts for the CPUs exactly if the leaders
come first. -/
theorem accounted_of_noSpan :
    Accounted S (finish (b.viewTree S.hostname)) ↔ LeadersFirst S := by
  have hplace := fun n cpu (hn : n ∈ S.nodes) (hcpu : cpu ∈ S.cpulist n) =>
    place_of_noSpan hS havoid h hspan hn hcpu
  have hlayered := (layered_of_noSpan hS havoid h).finished
  constructor
  · intro haccount
    exact leaders_of_threads_nodup hS havoid h (haccount.threads.nodup_iff.mpr hS.nodup)
  · intro hleaders
    have hperm := threads_of_leaders hS havoid h hleaders
    refine ⟨hperm, ?_, ?_, ?_, socketCount_of_noSpan hS havoid h hspan⟩
    · intro cpu hcpu
      obtain ⟨n, hn, hcpu⟩ := List.mem_flatMap.mp hcpu
      obtain ⟨s, hs, hid, hthread, _⟩ := hplace n cpu hn hcpu
      exact ⟨s, mem_preorder_of_mem_children hs (self_mem_preorder s), (hlayered.2 s hs).1, hid,
        hthread⟩
    · intro n hn cpu hcpu
      obtain ⟨s, hs, _, _, d, hd, hid, hthread⟩ := hplace n cpu hn hcpu
      exact ⟨d, mem_preorder_of_mem_children hs
        (mem_preorder_of_mem_children hd (self_mem_preorder d)),
        ((hlayered.2 s hs).2.2 d hd).1, hid, hthread⟩
    · rw [archCount_thread hlayered.leaves, hperm.length_eq]

end SinglePackage

end ParseArchitecture
end X86Energy
