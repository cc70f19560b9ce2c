import X86Energy.ParseArchitecture.AnyBuild

/-!
# Which trees account for every CPU

An `int32_t` holds the id of a SOCKET, and `add_package` converts the number in the
`physical_package_id` file to it.  So whatever the machine, the SOCKETs of a tree have ids
in that range (`socketIds_of_init`), and a CPU of any other package has no SOCKET.
-/

namespace X86Energy
namespace ParseArchitecture

open CInt ArchNode

section SocketIds

/-- The ids of the SOCKET structures fit into their field. -/
def Build.SocketsInt (b : Build) : Prop := ∀ id ∈ b.socketIds, IsInt32 id

theorem openPackage_socketsInt {b : Build} (h : b.SocketsInt) (packageId : Int) :
    (openPackage b packageId).1.SocketsInt := by
  intro id hid
  rcases openPackage_ids b packageId with ⟨_, hids⟩ | ⟨_, _, hids⟩
  · exact h id (hids ▸ hid)
  · rw [hids, List.mem_append, List.mem_singleton] at hid
    rcases hid with hid | rfl
    · exact h id hid
    · exact toInt32_isInt32 packageId

theorem NodeLoop.assign_socketIds (st : NodeLoop) (die : DieNode) :
    (st.assign die).build.socketIds = st.build.socketIds := by
  unfold NodeLoop.assign
  cases st.node with
  | scratch => rfl
  | inPackage p d => exact Build.setDie_socketIds st.build p d die

theorem openDie_socketIds (st : NodeLoop) (p : Nat) :
    (openDie st p).build.socketIds = st.build.socketIds := by
  unfold openDie
  split
  · rfl
  · split
    · rfl
    · simp only
      rw [Build.modifyPackage_socketIds, NodeLoop.assign_socketIds]

variable {S : Snapshot}

theorem processCpu_socketsInt {mem : InsertSite → Bool} {st st' : NodeLoop} {cpu : Int}
    (h : st.build.SocketsInt) (hstep : processCpu S mem st cpu = .ok st') :
    st'.build.SocketsInt := by
  rcases processCpu_cases hstep with ⟨_, rfl⟩ | ⟨st₁, children, children', hlocate, _, _, _, _, rfl⟩
  · exact h
  · obtain ⟨_, rfl, _⟩ := locateDie_cases hlocate
    unfold Build.SocketsInt
    rw [NodeLoop.storeChildren_socketIds, openDie_socketIds]
    exact openPackage_socketsInt h _

theorem processNodes_socketsInt {b : Build} (hrun : processNodes S = .ok b) : b.SocketsInt := by
  refine Transition.run_invariant (I := Build.SocketsInt) (fun b node _ b' hinv hstep => ?_)
    (fun id hid => absurd hid List.not_mem_nil) hrun
  obtain ⟨_, st, hcpus, rfl⟩ := processNode_ok hstep
  exact Transition.run_invariant (I := fun st : NodeLoop => st.build.SocketsInt)
    (fun s round _ s' hinv hround => processCpu_socketsInt hinv hround) hinv hcpus

/-- Sorting permutes the SOCKETs and keeps their ids. -/
theorem Build.socketIds_sortUpper (b : Build) : b.sortUpper.socketIds.Perm b.socketIds := by
  unfold Build.socketIds Build.sortUpper
  rw [List.map_map]
  exact (BubbleSort.bubbleSort_perm SocketNode.id b.sockets).map SocketNode.id

theorem Build.socketIds_finish {b b' : Build} (h : b.finish = some b') :
    b'.socketIds.Perm b.socketIds := by
  obtain ⟨hsockets, _⟩ := Build.finish_some (P := fun _ => True) (fun _ _ => trivial)
    (fun _ _ _ => trivial) h
  rw [Build.socketIds, hsockets]
  exact b.socketIds_sortUpper

/-- The nodes below the root show the SOCKET structures. -/
theorem Build.mem_socketIds_of_tree {b : Build} {hostname : Option String} {t : ArchNode}
    (h : b.tree hostname = some t) : ∀ s ∈ t.children, s.id ∈ b.socketIds := by
  obtain ⟨sockets, hsockets, rfl⟩ := Option.map_eq_some_iff.mp h
  intro s hs
  obtain ⟨socket, hsocket, hstree⟩ := Partial.exists_of_mem_mapM hsockets hs
  obtain ⟨_, _, rfl⟩ := Option.map_eq_some_iff.mp hstree
  exact List.mem_map_of_mem hsocket

/-- **The ids of the SOCKETs fit into an `int32_t`** in every tree. -/
theorem socketIds_of_init {t : ArchNode} (h : initArchitectureNodes S = .ok t) :
    ∀ s ∈ t.preorder, s.granularity = .socket → IsInt32 s.id := by
  intro s hs hsocket
  have hchild := (formed_of_init h).mem_children hs hsocket
  obtain ⟨hostname, b, b', hrun, hfinish, htree⟩ := initArchitectureNodes_ok h
  exact processNodes_socketsInt hrun s.id
    ((Build.socketIds_finish hfinish).mem_iff.mp (Build.mem_socketIds_of_tree htree s hchild))

end SocketIds

section Main

/-- An accounted machine has package ids that SOCKETs can have. -/
theorem Accounted.packageInt {S : Snapshot} {t : ArchNode}
    (hinit : initArchitectureNodes S = .ok t) (h : Accounted S t) :
    ∀ cpu ∈ S.online, IsInt32 (S.packageOf cpu) := by
  intro cpu hcpu
  obtain ⟨s, hs, hsocket, hid, _⟩ := h.socket cpu hcpu
  exact hid ▸ socketIds_of_init hinit s hs hsocket

/-- On a machine whose package ids are in range, the tree accounts for the CPUs exactly if
no node spans packages and the leaders come first. -/
theorem Consistent.accounted {S : Snapshot} (hS : Consistent S)
    (havoid : NoSpan S → AvoidsModules S) :
    (∃ t, initArchitectureNodes S = .ok t ∧ Accounted S t) ↔ NoSpan S ∧ LeadersFirst S := by
  have htree : NoSpan S → ∃ b : Build, initArchitectureNodes S = .ok (finish (b.viewTree S.hostname)) ∧
      (Accounted S (finish (b.viewTree S.hostname)) ↔ LeadersFirst S) := by
    intro hspan
    obtain ⟨b, hrun, hclean⟩ := processNodes_clean hS.readable hspan hS.busyNodes hS.packageInt
    exact ⟨b, init_of_separated hS.hostname hrun hclean.separatedBuild,
      accounted_of_noSpan hS (havoid hspan) hclean hspan⟩
  constructor
  · rintro ⟨t, hinit, haccount⟩
    have hspan : NoSpan S := by
      by_contra hspan
      obtain ⟨hostname, b, b', hrun, hfinish, ht⟩ := initArchitectureNodes_ok hinit
      obtain ⟨hthreaded, hruined⟩ := processNodes_ruined hS hspan hrun
      exact hruined.not_nodup hthreaded hfinish ht (haccount.threads.nodup_iff.mpr hS.nodup)
    obtain ⟨b, hinit', hiff⟩ := htree hspan
    rw [hinit] at hinit'
    cases hinit'
    exact ⟨hspan, hiff.mp haccount⟩
  · rintro ⟨hspan, hleaders⟩
    obtain ⟨b, hinit, hiff⟩ := htree hspan
    exact ⟨_, hinit, hiff.mpr hleaders⟩

/-- **Which machines have a tree that accounts for every CPU.**  As long as no CPU is
put below a MODULE that was taken for its CORE, these are the machines whose package ids fit
into an `int32_t`, on which every NUMA node lies in one package and the leaders of the L2
groups come first. -/
theorem accounted_iff (S : Snapshot) (hS : Topology S) (havoid : NoSpan S → AvoidsModules S) :
    (∃ t, initArchitectureNodes S = .ok t ∧ Accounted S t) ↔
      (∀ cpu ∈ S.online, IsInt32 (S.packageOf cpu)) ∧ NoSpan S ∧ LeadersFirst S := by
  constructor
  · rintro ⟨t, hinit, haccount⟩
    have hpackage := haccount.packageInt hinit
    exact ⟨hpackage, (Consistent.accounted ⟨hS, hpackage⟩ havoid).mp ⟨t, hinit, haccount⟩⟩
  · rintro ⟨hpackage, hfine⟩
    exact (Consistent.accounted ⟨hS, hpackage⟩ havoid).mpr hfine

theorem accounted_twoPackages :
    ∃ t, initArchitectureNodes twoPackages = .ok t ∧ Accounted twoPackages t :=
  (accounted_iff twoPackages twoPackages_consistent.toTopology fun _ =>
    avoidsModules_of_take (by decide)).mpr
      ⟨twoPackages_consistent.packageInt, by decide, twoPackages_leaders⟩

/-- One NUMA node with two CPUs in two packages, on a core 0 each. -/
def spanningNode : Snapshot :=
  .ofMachine [[0, 1]] fun cpu => ⟨cpu, 0, [cpu], [cpu]⟩

/-- The two SOCKETs of this machine show the same DIE, with both CPUs. -/
def spanningTree : ArchNode :=
  let core : ArchNode := .node .core 1 (some "Core 0")
    [.node .thread 0 (some "CPU 0") [], .node .thread 1 (some "CPU 1") []]
  .node .system 0 (some "host")
    [.node .socket 0 (some "Processor 0") [.node .die 0 none [core]],
      .node .socket 1 (some "Processor 1") [.node .die 0 (some "0") [core]]]

theorem spanningNode_consistent : Consistent spanningNode where
  readable := Snapshot.ofMachine_readable (by decide)
  hostname := by decide
  nodup := by decide
  cpuInt := by decide
  packageInt := by decide
  groups := by
    intro n hn
    have hn : n = 0 := by simpa using (show n ∈ [0] from hn)
    rw [hn]
    exact ⟨by decide, by decide, by decide, by decide⟩
  groupPackage := by decide

/-- **A node that spans two packages**: the CPUs are there twice. -/
theorem not_accounted_spanningNode :
    Consistent spanningNode ∧ initArchitectureNodes spanningNode = .ok spanningTree ∧
      spanningTree.threads = [0, 1, 0, 1] ∧ archCount .thread spanningTree = 4 ∧
      ¬ ∃ t, initArchitectureNodes spanningNode = .ok t ∧ Accounted spanningNode t := by
  have hinit : initArchitectureNodes spanningNode = .ok spanningTree := by rfl
  refine ⟨spanningNode_consistent, hinit, by decide, by decide, ?_⟩
  rintro ⟨t, ht, haccount⟩
  rw [hinit] at ht
  cases ht
  exact absurd (haccount.threads.length_eq) (by decide)

end Main

end ParseArchitecture
end X86Energy
