import X86Energy.ParseArchitecture.AnyBuild

/-!
# The order of the node directories

`readdir` yields the directories of the NUMA nodes in any order, and packages and DIEs
are created in that order.  On a machine whose nodes lie in one package each the arrays
hold the same structures for every order (`Clean`, `Build.Named`), and sorting by id
makes them equal.

An id is an `int32_t`, but `find_child` compares it with the `long` of the file: two
packages whose numbers agree in the low 32 bits are one SOCKET or two, as the nodes come.
-/

namespace X86Energy
namespace ParseArchitecture

open CInt ArchNode

section Names

variable (nameOf : Int → Option String)

/-- A SOCKET is named after its package, and a DIE as its node directory says. -/
structure Build.Named (b : Build) : Prop where
  sockets : ∀ s ∈ b.sockets, s.name = some s!"Processor {s.id}"
  dies : ∀ s ∈ b.sockets, ∀ die ∈ s.children, die.name = nameOf die.id

/-- The same in the loop of `process_node`, where the entry of the scratch array has its
name until it is copied. -/
structure NodeLoop.Named (st : NodeLoop) : Prop where
  build : st.build.Named nameOf
  scratch : st.node = .scratch → st.scratch.name = nameOf st.scratch.id

variable {nameOf}

theorem Build.named_empty : Build.empty.Named nameOf :=
  ⟨fun _ h => absurd h List.not_mem_nil, fun _ h => absurd h List.not_mem_nil⟩

theorem Build.Named.of_sockets {b b' : Build} (h : b.Named nameOf)
    (hsockets : b'.sockets = b.sockets) : b'.Named nameOf :=
  ⟨hsockets ▸ h.sockets, hsockets ▸ h.dies⟩

theorem Build.Named.modifyPackage {b : Build} (h : b.Named nameOf) (p : Nat)
    {f : List DieNode → List DieNode}
    (hf : ∀ s ∈ b.sockets, ∀ die ∈ f s.children, die.name = nameOf die.id) :
    (b.modifyPackage p f).Named nameOf := by
  constructor
  · intro s hs
    rcases mem_modify hs with hs | ⟨s', hs', rfl⟩
    · exact h.sockets s hs
    · exact h.sockets s' (List.mem_of_getElem? hs')
  · intro s hs
    rcases mem_modify hs with hs | ⟨s', hs', rfl⟩
    · exact h.dies s hs
    · exact hf s' (List.mem_of_getElem? hs')

/-- Writing a structure with the right name. -/
theorem NodeLoop.Named.assign {st : NodeLoop} (h : st.Named nameOf) {die : DieNode}
    (hdie : die.name = nameOf die.id) : (st.assign die).Named nameOf := by
  unfold NodeLoop.assign
  cases hnode : st.node with
  | scratch => exact ⟨h.build, fun _ => hdie⟩
  | inPackage p d =>
      have hbuild : (st.build.setDie p d die).Named nameOf := by
        refine h.build.modifyPackage p fun s hs x hx => ?_
        rcases List.mem_or_eq_of_mem_set hx with hx | rfl
        · exact h.build.dies s hs x hx
        · exact hdie
      exact ⟨hbuild, fun hn => nomatch hn⟩

theorem NodeLoop.Named.deref {st : NodeLoop} (h : st.Named nameOf) (hok : st.Ok) :
    st.deref.name = nameOf st.deref.id := by
  cases hnode : st.node with
  | scratch =>
      have hderef : st.deref = st.scratch := by
        unfold NodeLoop.deref
        rw [hnode]
      rw [hderef]
      exact h.scratch hnode
  | inPackage p d =>
      obtain ⟨die, hdie⟩ := hok.cursor p d hnode
      obtain ⟨s, hs, hd⟩ := Build.getDie_eq.mp hdie
      rw [NodeLoop.deref_inPackage hnode hdie]
      exact h.build.dies s (List.mem_of_getElem? hs) die (List.mem_of_getElem? hd)

theorem NodeLoop.Named.storeChildren {st : NodeLoop} (h : st.Named nameOf) (hok : st.Ok)
    (old new : List ArchNode) : (st.storeChildren old new).Named nameOf := by
  unfold NodeLoop.storeChildren
  split
  · split
    · exact h
    · exact ⟨h.build.of_sockets rfl, h.scratch⟩
  · have hmoved : NodeLoop.Named nameOf
        { st with build := st.build.moveHeap st.deref.children new } :=
      ⟨h.build.of_sockets (Build.moveHeap_sockets _ _ _), h.scratch⟩
    exact hmoved.assign (h.deref hok)

theorem NodeLoop.Named.openPackage {st : NodeLoop} (h : st.Named nameOf) {packageId : Int}
    (hint : IsInt32 packageId) : (st.openPackage packageId).Named nameOf := by
  refine ⟨?_, h.scratch⟩
  unfold NodeLoop.openPackage ParseArchitecture.openPackage
  cases findChild (st.build.sockets.map SocketNode.id) packageId with
  | some p => exact h.build
  | none =>
      constructor
      · intro s hs
        rcases List.mem_append.mp hs with hs | hs
        · exact h.build.sockets s hs
        · rw [List.mem_singleton.mp hs, toInt32_of_isInt32 hint]
      · intro s hs
        rcases List.mem_append.mp hs with hs | hs
        · exact h.build.dies s hs
        · rw [List.mem_singleton.mp hs]
          exact fun _ hd => absurd hd List.not_mem_nil

/-- `add_node_to_package` copies no name away from a DIE if it finds the DIE of the node or
`node` is the entry of the scratch array. -/
theorem NodeLoop.Named.openDie {st : NodeLoop} (h : st.Named nameOf) {p : Nat}
    (htarget : st.node = .scratch ∨ st.dieAt p ≠ none) :
    (openDie st p).Named nameOf := by
  unfold NodeLoop.dieAt at htarget
  unfold ParseArchitecture.openDie
  cases hp : st.build.sockets[p]? with
  | none => exact h
  | some package =>
      rw [hp] at htarget
      simp only at htarget ⊢
      cases hfind : findChild (package.children.map DieNode.id) st.deref.id with
      | some d => exact ⟨h.build, fun hn => nomatch hn⟩
      | none =>
          rw [hfind] at htarget
          have hnode : st.node = .scratch := htarget.resolve_right fun hne => hne rfl
          have hderef : st.deref = st.scratch := by
            unfold NodeLoop.deref
            rw [hnode]
          refine ⟨?_, fun hn => nomatch hn⟩
          unfold NodeLoop.assign
          simp only [hnode]
          refine h.build.modifyPackage p fun s hs die hdie => ?_
          rcases List.mem_append.mp hdie with hdie | hdie
          · exact h.build.dies s hs die hdie
          · rw [List.mem_singleton.mp hdie, hderef]
            exact h.scratch hnode

variable {S : Snapshot} {mem : InsertSite → Bool}

/-- A round that copies no DIE keeps the names. -/
theorem processCpu_named {st st' : NodeLoop} (h : st.Named nameOf) (hok : st.Ok) {cpu : Int}
    (hint : IsInt32 (S.packageOf cpu))
    (htarget : st.node = .scratch ∨ st.targetPos (S.packageOf cpu) ≠ none)
    (hstep : processCpu S mem st cpu = .ok st') : st'.Named nameOf := by
  rcases processCpu_cases hstep with ⟨_, rfl⟩ | ⟨st₁, children, children', hlocate, _, _, _, _, rfl⟩
  · exact h
  · obtain ⟨_, _, hloc⟩ := locateDie_located hok hlocate
    obtain ⟨die, hdie, _⟩ := Option.map_eq_some_iff.mp hloc.cursor
    have hok₁ : st₁.Ok := ⟨hloc.scratch, fun p d hn => by
      rw [hloc.node] at hn
      cases hn
      exact ⟨die, hdie⟩⟩
    refine NodeLoop.Named.storeChildren ?_ hok₁ children children'
    obtain ⟨_, rfl, _⟩ := locateDie_cases hlocate
    refine (h.openPackage hint).openDie (htarget.imp id fun hpos hnone => hpos ?_)
    rw [NodeLoop.openPackage_dieAt] at hnone
    rw [NodeLoop.targetPos_eq, hnone]
    rfl

/-- A node in one package finds its DIE again once it has one. -/
theorem Growing.target {n : Int} {done : Set Int} {pkg : Int → Int}
    {block : Int → List ArchNode} {st : NodeLoop} {cs : List ArchNode}
    (h : Growing n done pkg block st cs) :
    st.node = .scratch ∨ st.targetPos (pkg n) ≠ none := by
  rcases h.state with ⟨_, hnode, _⟩ | ⟨p, d, _, hid, hclean⟩
  · exact .inl hnode
  · right
    obtain ⟨_, hsocket, _⟩ := hclean.stored p d n hid
    have hat : st.dieAt p ≠ none := NodeLoop.dieAt_ne_none (h.id.symm ▸ hid)
    have hmem : pkg n ∈ st.build.socketIds := List.mem_of_getElem? hsocket
    unfold NodeLoop.targetPos
    cases hfind : findChild (st.build.sockets.map SocketNode.id) (pkg n) with
    | none => exact absurd hmem (findChild_eq_none.mp hfind)
    | some p' =>
        have hget : st.build.socketIds[p']? = some (pkg n) := findChild_some hfind
        have hp : p' = p :=
          (List.getElem?_inj (List.getElem?_eq_some_iff.mp hget).1 hclean.nodup).mp
            (hget.trans hsocket.symm)
        rw [hp]
        simpa using hat

/-- `process_node` keeps the names if the node lies in one package. -/
theorem processNode_named (hS : S.Readable) (hint : ∀ cpu ∈ S.online, IsInt32 (S.packageOf cpu))
    (hnames : ∀ node ∈ getNodes S.nodeDir, node.name = nameOf node.id)
    (block : Int → List ArchNode) : KeptByNodes S block (Build.Named nameOf) := by
  intro done b b' node hnode hfresh hpkg hclean hnamed hstep
  by_cases hnil : S.cpulist node.1.id = []
  · rw [processNode_idle hS b hnode hnil] at hstep
    cases hstep
    exact hnamed
  · have hmem : node.1.id ∈ S.nodes := List.mem_map_of_mem hnode
    have hpackage : ∀ c ∈ S.cpulist node.1.id, IsInt32 (S.packageOf c) := fun c hc =>
      hint c (List.mem_flatMap.mpr ⟨_, hmem, hc⟩)
    have hnodeInt : IsInt32 (S.nodePackage node.1.id) := by
      obtain ⟨c, hc⟩ := List.exists_mem_of_ne_nil _ hnil
      exact hpkg c hc ▸ hpackage c hc
    let R : NodeLoop → List ArchNode → Prop := fun st cs =>
      Growing node.1.id done S.nodePackage block st cs ∧ st.Named nameOf
    have hstart : R ⟨b, node.1, .scratch⟩ [] :=
      ⟨growing_start hclean hnode, hnamed, fun _ => hnames _ hnode⟩
    have hround : ∀ st, ∀ round ∈ (S.cpulist node.1.id).zipIdx, ∀ cs, R st cs → True →
        ∃ st', processCpu S (S.memory node.2 round.2) st round.1 = .ok st' ∧
          R st' (dieStep S cs round.1) := by
      rintro st round hr cs ⟨hgrow, hnamed⟩ _
      have hcpu := List.fst_mem_of_mem_zipIdx hr
      obtain ⟨st', hst', hgrow'⟩ := processCpu_growing (hS.memory node.2 round.2) hfresh
        (cpuReadable_of_mem_zipIdx hS hnode hr) (hpkg _ hcpu) hnodeInt hgrow
      refine ⟨st', hst', hgrow', processCpu_named hnamed hgrow.ok (hpackage _ hcpu) ?_ hst'⟩
      rw [hpkg _ hcpu]
      exact hgrow.target
    obtain ⟨st, hrun, _, hst⟩ := Transition.run_refines
      (fun cs (round : Int × Nat) => dieStep S cs round.1) hround hstart
      (Transition.Meets.of_forall (fun _ _ => trivial) _ _)
    rw [processNode_eq hS hnode] at hstep
    unfold processCpus at hstep
    rw [hrun] at hstep
    cases hstep
    exact hst.build

end Names

section Same

variable {nameOf : Int → Option String} {done : Set Int} {pkg : Int → Int}
  {block : Int → List ArchNode} {b b' : Build}

/-- The DIE of a node. -/
def dieOf (nameOf : Int → Option String) (block : Int → List ArchNode) (n : Int) : ArchNode :=
  .node .die n (nameOf n) (block n)

section One

variable (h : Clean b done pkg block) (hnamed : b.Named nameOf)
include h

/-- The DIEs of a SOCKET are the nodes of its package. -/
theorem Clean.mem_dieIds {s : SocketNode} (hs : s ∈ b.sockets) {n : Int} :
    n ∈ s.children.map DieNode.id ↔ n ∈ done ∧ pkg n = s.id := by
  rw [List.mem_map]
  constructor
  · rintro ⟨die, hd, rfl⟩
    obtain ⟨hdone, hid, _⟩ := h.die hs hd
    exact ⟨hdone, hid.symm⟩
  · rintro ⟨hn, hpkg⟩
    obtain ⟨p, d, hid⟩ := h.total n hn
    obtain ⟨_, hsocket, _⟩ := h.stored p d n hid
    obtain ⟨die, hdie, hid⟩ := Option.map_eq_some_iff.mp hid
    obtain ⟨s', hs', hd⟩ := Build.getDie_eq.mp hdie
    obtain ⟨p₀, hp₀⟩ := List.mem_iff_getElem?.mp hs
    have hget : b.socketIds[p₀]? = some s.id := by
      rw [Build.socketIds, List.getElem?_map, hp₀, Option.map_some]
    rw [hpkg] at hsocket
    have hp : p₀ = p :=
      (List.getElem?_inj (List.getElem?_eq_some_iff.mp hget).1 h.nodup).mp
        (hget.trans hsocket.symm)
    rw [← hp, hp₀] at hs'
    cases hs'
    exact ⟨die, List.mem_of_getElem? hd, hid⟩

theorem Clean.dieIds_nodup {s : SocketNode} (hs : s ∈ b.sockets) :
    (s.children.map DieNode.id).Nodup := by
  have hall := h.dies_nodup
  rw [Build.dies, List.map_flatMap] at hall
  exact (List.nodup_flatMap.mp hall).1 s hs

include hnamed

/-- A SOCKET after sorting: it is given by its id and the ids of its DIEs. -/
theorem Clean.sorted_socket {s : SocketNode} (hs : s ∈ b.sockets) :
    sortChildrenRecursive (b.viewSocket s) =
      .node .socket s.id (some s!"Processor {s.id}") (sortBlock
        ((s.children.map DieNode.id).map (dieOf nameOf block))) := by
  have hdies : s.children.map b.viewDie =
      (s.children.map DieNode.id).map (dieOf nameOf block) := by
    rw [List.map_map]
    apply List.map_congr_left
    intro die hd
    rw [Build.viewDie, (h.die hs hd).2.2.2, hnamed.dies s hs die hd]
    rfl
  rw [Build.viewSocket, sortChildrenRecursive_node, hnamed.sockets s hs, hdies]

end One

variable (h : Clean b done pkg block) (h' : Clean b' done pkg block)
  (hnamed : b.Named nameOf) (hnamed' : b'.Named nameOf)
include h h' hnamed hnamed'

/-- A SOCKET of one build is there in the other one, and sorting makes the two equal. -/
theorem Clean.same_socket {s : SocketNode} (hs : s ∈ b.sockets) :
    ∃ s' ∈ b'.sockets,
      sortChildrenRecursive (b.viewSocket s) = sortChildrenRecursive (b'.viewSocket s') := by
  obtain ⟨p, hp⟩ := List.mem_iff_getElem?.mp hs
  obtain ⟨n, hn⟩ := Option.ne_none_iff_exists'.mp
    (h.packages p (List.getElem?_eq_some_iff.mp hp).1)
  obtain ⟨hdone, hsocket, _⟩ := h.stored p 0 n hn
  rw [Build.socketIds, List.getElem?_map, hp, Option.map_some, Option.some.injEq] at hsocket
  obtain ⟨p', d', hn'⟩ := h'.total n hdone
  obtain ⟨_, hsocket', _⟩ := h'.stored p' d' n hn'
  rw [Build.socketIds, List.getElem?_map] at hsocket'
  obtain ⟨s', hp', hid⟩ := Option.map_eq_some_iff.mp hsocket'
  have hs' := List.mem_of_getElem? hp'
  have hsame : s'.id = s.id := hid.trans hsocket.symm
  refine ⟨s', hs', ?_⟩
  have hperm : (s.children.map DieNode.id).Perm (s'.children.map DieNode.id) := by
    refine (List.perm_ext_iff_of_nodup (h.dieIds_nodup hs) (h'.dieIds_nodup hs')).mpr fun m => ?_
    rw [h.mem_dieIds hs, h'.mem_dieIds hs', hsame]
  have hkeys : ((s.children.map DieNode.id).map (dieOf nameOf block)).map ArchNode.id =
      s.children.map DieNode.id := by
    rw [List.map_map, List.map_map]
    rfl
  rw [h.sorted_socket hnamed hs, h'.sorted_socket hnamed' hs', hsame, sortBlock, sortBlock,
    BubbleSort.bubbleSort_eq_of_perm (hperm.map _)]
  rw [hkeys]
  exact h.dieIds_nodup hs

/-- **Sorting makes the trees of two such builds equal.** -/
theorem Clean.sorted_eq (hostname : Option String) :
    sortChildrenRecursive (b.viewTree hostname) = sortChildrenRecursive (b'.viewTree hostname) := by
  have hids : ∀ c : Build, (c.sockets.map fun s => sortChildrenRecursive (c.viewSocket s)).map
      ArchNode.id = c.socketIds := by
    intro c
    rw [List.map_map]
    exact List.map_congr_left fun s _ => id_sortChildrenRecursive _
  have hperm : (b.sockets.map fun s => sortChildrenRecursive (b.viewSocket s)).Perm
      (b'.sockets.map fun s => sortChildrenRecursive (b'.viewSocket s)) := by
    refine (List.perm_ext_iff_of_nodup (.of_map ArchNode.id (hids b ▸ h.nodup))
      (.of_map ArchNode.id (hids b' ▸ h'.nodup))).mpr fun t => ?_
    rw [List.mem_map, List.mem_map]
    constructor
    · rintro ⟨s, hs, rfl⟩
      obtain ⟨s', hs', heq⟩ := h.same_socket h' hnamed hnamed' hs
      exact ⟨s', hs', heq.symm⟩
    · rintro ⟨s', hs', rfl⟩
      obtain ⟨s, hs, heq⟩ := h'.same_socket h hnamed' hnamed hs'
      exact ⟨s, hs, heq.symm⟩
  rw [Build.viewTree, Build.viewTree, sortChildrenRecursive, sortChildrenRecursive, sortAll_eq_map,
    sortAll_eq_map, List.map_map, List.map_map]
  congr 1
  exact BubbleSort.bubbleSort_eq_of_perm hperm (hids b ▸ h.nodup)

end Same

section Main

/-- The name of the first node directory with this number. -/
def Snapshot.nodeName (S : Snapshot) (n : Int) : Option String :=
  ((getNodes S.nodeDir).find? fun node => node.id = n).bind DieNode.name

theorem Snapshot.nodeName_eq {S : Snapshot} (hnodes : S.nodes.Nodup) {node : DieNode}
    (hnode : node ∈ getNodes S.nodeDir) : node.name = S.nodeName node.id := by
  unfold nodeName
  cases hfind : (getNodes S.nodeDir).find? fun m => m.id = node.id with
  | none =>
      rw [List.find?_eq_none] at hfind
      exact absurd rfl (of_decide_eq_false (Bool.eq_false_iff.mpr (hfind node hnode)))
  | some m =>
      have hid : m.id = node.id := by simpa using List.find?_some hfind
      rw [List.inj_on_of_nodup_map hnodes hnode (List.mem_of_find?_eq_some hfind) hid.symm]
      rfl

/-- A snapshot whose nodes are distinct, lie in one package each and have package ids that
fit into the id of a SOCKET. -/
structure OnePackageNodes (S : Snapshot) : Prop where
  readable : S.Readable
  noSpan : NoSpan S
  distinct : S.nodes.Nodup
  packageInt : ∀ cpu ∈ S.online, IsInt32 (S.packageOf cpu)

/-- What such a build consists of, and the tree that it ends with. -/
theorem OnePackageNodes.init {S : Snapshot} (h : OnePackageNodes S)
    {nameOf : Int → Option String}
    (hnames : ∀ node ∈ getNodes S.nodeDir, node.name = nameOf node.id) :
    ∃ b : Build, Clean b (busy S S.nodes) S.nodePackage (fun n => dieBlock S (S.cpulist n)) ∧
      b.Named nameOf ∧
      (S.hostname ≠ none → initArchitectureNodes S = .ok (finish (b.viewTree S.hostname))) := by
  obtain ⟨b, hrun, hclean, hnamed⟩ := processNodes_clean_keeps h.readable h.noSpan
    (h.distinct.filter _) h.packageInt Build.named_empty
    (processNode_named h.readable h.packageInt hnames _)
  exact ⟨b, hclean, hnamed, fun hhost => init_of_separated hhost hrun hclean.separatedBuild⟩

variable {S : Snapshot} {entries : List Dirent} (hperm : entries.Perm S.nodeDir)
include hperm

theorem getNodes_perm : (getNodes entries).Perm (getNodes S.nodeDir) :=
  (hperm.filter _).map _

theorem nodes_perm : (Snapshot.nodes { S with nodeDir := entries }).Perm S.nodes :=
  (getNodes_perm hperm).map _

/-- Another order of the node directories changes nothing about the nodes. -/
theorem OnePackageNodes.reorder (h : OnePackageNodes S) :
    OnePackageNodes { S with nodeDir := entries } := by
  have hmem : ∀ {node}, node ∈ getNodes entries → node ∈ getNodes S.nodeDir :=
    fun hnode => (getNodes_perm hperm).mem_iff.mp hnode
  have honline : ∀ {cpu}, cpu ∈ Snapshot.online { S with nodeDir := entries } → cpu ∈ S.online :=
    fun hcpu => ((nodes_perm hperm).flatMap_right _).mem_iff.mp hcpu
  refine ⟨⟨h.readable.memory, fun node hnode => h.readable.cpulist node (hmem hnode),
    fun node hnode cpu hcpu => ?_⟩, fun n hn => h.noSpan n ((nodes_perm hperm).mem_iff.mp hn),
    (nodes_perm hperm).nodup_iff.mpr h.distinct, fun cpu hcpu => h.packageInt cpu (honline hcpu)⟩
  obtain ⟨hpackage, hcore, hl2, hl1, hgroup⟩ := h.readable.cpu node (hmem hnode) cpu hcpu
  exact ⟨hpackage, hcore, hl2, hl1, hgroup⟩

/-- **The tree does not depend on the order of the node directories**, down to the numbers
of the COREs. -/
theorem init_reorder (h : OnePackageNodes S) :
    initArchitectureNodes { S with nodeDir := entries } = initArchitectureNodes S ∧
      (S.hostname ≠ none → ∃ t, initArchitectureNodes S = .ok t) := by
  have hnames := fun node hnode => @Snapshot.nodeName_eq S h.distinct node hnode
  obtain ⟨b, hclean, hnamed, hinit⟩ := h.init hnames
  obtain ⟨b', hclean', hnamed', hinit'⟩ := (h.reorder hperm).init fun node hnode =>
    hnames node ((getNodes_perm hperm).mem_iff.mp hnode)
  have hbusy : busy { S with nodeDir := entries } (Snapshot.nodes { S with nodeDir := entries }) =
      busy S S.nodes := by
    ext n
    simp only [busy, Set.mem_ofPred_eq, (nodes_perm hperm).mem_iff]
    rfl
  rw [hbusy] at hclean'
  by_cases hhost : S.hostname = none
  · refine ⟨?_, fun hne => absurd hhost hne⟩
    unfold initArchitectureNodes
    simp only [hhost]
  · refine ⟨?_, fun _ => ⟨_, hinit hhost⟩⟩
    rw [hinit hhost, hinit' hhost, finish, finish,
      hclean.sorted_eq hclean' hnamed hnamed' S.hostname]

omit hperm

theorem init_reorder_twoPackages :
    initArchitectureNodes { twoPackages with nodeDir := twoPackages.nodeDir.reverse } =
        initArchitectureNodes twoPackages ∧
      ∃ t, initArchitectureNodes twoPackages = .ok t := by
  have hsame := init_reorder (List.reverse_perm twoPackages.nodeDir)
    ⟨twoPackages_consistent.readable, by decide, by decide, twoPackages_consistent.packageInt⟩
  exact ⟨hsame.1, hsame.2 twoPackages_consistent.hostname⟩

/-- Two NUMA nodes with one CPU each, in the packages 2³² and 0. -/
def widePackages : Snapshot :=
  .ofMachine [[0], [1]] fun cpu =>
    if cpu = 0 then ⟨4294967296, 0, [0], [0]⟩ else ⟨0, 1, [1], [1]⟩

/-- The CPU `n` alone in the DIE of node `n`. -/
def wideDie (n : Int) (core : Int) : ArchNode :=
  .node .die n (some s!"{n}") [.node .core core (some s!"Core {n}")
    [.node .thread n (some s!"CPU {n}") []]]

/-- **Package ids that do not fit into an `int32_t`**: if node 0 comes first, node 1 finds
its SOCKET by the id 0; else there are two SOCKETs with this id. -/
theorem not_init_reorder_widePackages :
    widePackages.Readable ∧ NoSpan widePackages ∧ widePackages.nodes.Nodup ∧
      initArchitectureNodes widePackages = .ok (.node .system 0 (some "host")
        [.node .socket 0 (some "Processor 4294967296") [wideDie 0 0, wideDie 1 1]]) ∧
      initArchitectureNodes { widePackages with nodeDir := widePackages.nodeDir.reverse } =
        .ok (.node .system 0 (some "host")
          [.node .socket 0 (some "Processor 0") [wideDie 1 0],
            .node .socket 0 (some "Processor 4294967296") [wideDie 0 1]]) ∧
      ¬ ∀ entries, entries.Perm widePackages.nodeDir →
        initArchitectureNodes { widePackages with nodeDir := entries } =
          initArchitectureNodes widePackages := by
  have hfirst : initArchitectureNodes widePackages = .ok (.node .system 0 (some "host")
      [.node .socket 0 (some "Processor 4294967296") [wideDie 0 0, wideDie 1 1]]) := by rfl
  have hsecond : initArchitectureNodes { widePackages with nodeDir := widePackages.nodeDir.reverse } =
      .ok (.node .system 0 (some "host")
        [.node .socket 0 (some "Processor 0") [wideDie 1 0],
          .node .socket 0 (some "Processor 4294967296") [wideDie 0 1]]) := by rfl
  refine ⟨Snapshot.ofMachine_readable (by decide), by decide, by decide, hfirst, hsecond, ?_⟩
  intro hsame
  have heq := hsame _ (List.reverse_perm _)
  rw [hfirst, hsecond] at heq
  have hsockets := congrArg (fun t : ArchNode => t.children.length) (Except.ok.inj heq)
  exact absurd hsockets (by decide)

end Main

end ParseArchitecture
end X86Energy
