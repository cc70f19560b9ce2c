import X86Energy.ParseArchitecture.BuildStore

/-!
# One round of `process_node`

With readable files and granted memory a round either finds the CPU and does
nothing, or makes `node` point to a DIE structure of the package and stores the
children that `placeRound` computes: in place, or at a fresh address when the
array grew.  `processCpu_granted` says so in terms of the pointers and the heap;
everything about whole builds is derived from it.
-/

namespace X86Energy
namespace ParseArchitecture

open CInt

namespace Snapshot

/-- The contents of `physical_package_id`. -/
def packageOf (S : Snapshot) (cpu : Int) : Int :=
  (S.readLong (.physicalPackageId cpu)).getD 0

/-- The contents of `core_id`. -/
def coreOf (S : Snapshot) (cpu : Int) : Int :=
  (S.readLong (.coreId cpu)).getD 0

/-- The contents of `cache/index2/shared_cpu_list`. -/
def sharedL2 (S : Snapshot) (cpu : Int) : List Int :=
  (S.readLongList (.sharedCpuList 2 cpu)).getD []

/-- The contents of `cache/index1/shared_cpu_list`. -/
def sharedL1 (S : Snapshot) (cpu : Int) : List Int :=
  (S.readLongList (.sharedCpuList 1 cpu)).getD []

/-- The contents of the cpulist of a NUMA node. -/
def cpulist (S : Snapshot) (node : Int) : List Int :=
  (S.readLongList (.cpulist node)).getD []

/-- Whether `process_node` makes a MODULE for a CPU. -/
def Modular (S : Snapshot) (cpu : Int) : Prop :=
  (S.sharedL1 cpu).length < (S.sharedL2 cpu).length

instance (S : Snapshot) (cpu : Int) : Decidable (S.Modular cpu) :=
  inferInstanceAs (Decidable (_ < _))

/-- The files that a round for this CPU reads can be read. -/
structure CpuReadable (S : Snapshot) (cpu : Int) : Prop where
  package : S.readLong (.physicalPackageId cpu) = some (S.packageOf cpu)
  core : S.readLong (.coreId cpu) = some (S.coreOf cpu)
  l2 : S.readLongList (.sharedCpuList 2 cpu) = some (S.sharedL2 cpu)
  l1 : S.readLongList (.sharedCpuList 1 cpu) = some (S.sharedL1 cpu)
  group : ∀ c ∈ S.sharedL2 cpu, S.readLong (.coreId c) = some (S.coreOf c)

/-- Every topology file that a build reads can be read, and every request for
memory is granted. -/
structure Readable (S : Snapshot) : Prop where
  memory : ∀ i k site, S.memory i k site = true
  cpulist : ∀ node ∈ getNodes S.nodeDir,
    S.readLongList (.cpulist node.id) = some (S.cpulist node.id)
  cpu : ∀ node ∈ getNodes S.nodeDir, ∀ cpu ∈ S.cpulist node.id, S.CpuReadable cpu

/-- The topology files of one CPU. -/
structure CpuFiles where
  package : Int
  core : Int
  l2 : List Int
  l1 : List Int

/-- The directories `node0`, `node1`, …. -/
def nodeDirs (n : Nat) : List Dirent :=
  (List.range n).map fun i => ⟨'n' :: 'o' :: 'd' :: 'e' :: CText.decimal i, true⟩

/-- A machine given by the cpulists of the nodes 0, 1, … and the files of each CPU,
all of them readable. -/
def ofMachine (nodes : List (List Int)) (files : Int → CpuFiles) : Snapshot where
  hostname := some "host"
  nodeDir := nodeDirs nodes.length
  readLong
    | .physicalPackageId cpu => some (files cpu).package
    | .coreId cpu => some (files cpu).core
    | _ => none
  readLongList
    | .cpulist node => nodes[node.toNat]?
    | .sharedCpuList 2 cpu => some (files cpu).l2
    | .sharedCpuList 1 cpu => some (files cpu).l1
    | _ => none
  memory := fun _ _ _ => true

theorem ofMachine_readable {nodes : List (List Int)} {files : Int → CpuFiles}
    (h : ∀ node ∈ getNodes (nodeDirs nodes.length), node.id.toNat < nodes.length) :
    (ofMachine nodes files).Readable := by
  refine ⟨fun _ _ _ => rfl, fun node hnode => ?_, fun _ _ cpu _ =>
    ⟨rfl, rfl, rfl, rfl, fun _ _ => rfl⟩⟩
  obtain ⟨cpus, hget⟩ : ∃ cpus, nodes[node.id.toNat]? = some cpus :=
    ⟨_, List.getElem?_eq_getElem (h node hnode)⟩
  unfold cpulist
  simp only [ofMachine, hget, Option.getD_some]

end Snapshot

/-- The children at a pointer; `none` if the array was freed. -/
def Build.loadAddr (b : Build) : Option Addr → Option (List ArchNode)
  | none => some []
  | some a => b.heap a

theorem Build.loadChildren_eq_loadAddr (b : Build) (die : DieNode) :
    b.loadChildren die = b.loadAddr die.children := by
  unfold loadChildren loadAddr
  cases die.children <;> rfl

theorem placeThread_ne_nil (children : List ArchNode) (core cpu : Int) :
    placeThread children core cpu ≠ [] := by
  unfold placeThread
  cases hfind : findChild (children.map ArchNode.id) core with
  | none => simp
  | some k =>
      obtain ⟨c, hc, _⟩ := findChild_map_some hfind
      intro h
      have hlen := congrArg List.length h
      rw [List.length_modify, List.length_nil, List.length_eq_zero_iff] at hlen
      rw [hlen] at hc
      cases hc

theorem placeRound_ne_nil (coreOf : Int → Int) (children : List ArchNode) (cpu : Int)
    (l2 l1 : List Int) : placeRound coreOf children cpu l2 l1 ≠ [] := by
  unfold placeRound
  split
  · simp
  · exact placeThread_ne_nil _ _ _

/-- The children that a round for a CPU stores. -/
def Snapshot.place (S : Snapshot) (children : List ArchNode) (cpu : Int) : List ArchNode :=
  placeRound S.coreOf children cpu (S.sharedL2 cpu) (S.sharedL1 cpu)

/-- The heap after `children'` were stored for an array at `ptr` with `n` entries. -/
def storedHeap (b : Build) (ptr : Option Addr) (n : Nat) (children' : List ArchNode) (a : Addr) :
    Option (List ArchNode) :=
  if children'.length = n then if ptr = some a then some children' else b.heap a
  else if a = b.next then some children' else if ptr = some a then none else b.heap a

/-- The address of the children after the same. -/
def storedAddr (b : Build) (ptr : Option Addr) (n : Nat) (children' : List ArchNode) :
    Option Addr :=
  if children'.length = n then ptr else some b.next

/-- The round from `st` to `st'` stored `children'` for the DIE at a position,
which had `children` at `ptr`. -/
structure Round (st st' : NodeLoop) (p d : Nat) (ptr : Option Addr)
    (children children' : List ArchNode) : Prop where
  ok : st'.Ok
  node : st'.node = .inPackage p d
  loaded : st.build.loadAddr ptr = some children
  source : st.dieAt p = some d ∧ st.build.addrAt p d = some ptr ∨
    st.dieAt p = none ∧ st.build.addrAt p d = none ∧ ptr = st.deref.children
  cursor : st'.build.addrAt p d = some (storedAddr st.build ptr children.length children')
  elsewhere : ∀ p' d', (p', d') ≠ (p, d) → st'.build.addrAt p' d' = st.build.addrAt p' d'
  heap : ∀ a, st'.build.heap a = storedHeap st.build ptr children.length children' a
  next : st'.build.next =
    if children'.length = children.length then st.build.next else st.build.next + 1
  packages : ∀ p', p' < st'.build.sockets.length → p' = p ∨ p' < st.build.sockets.length
  derefId : st'.deref.id = st.deref.id
  idCursor : st'.build.dieIdAt p d = some st.deref.id
  idElsewhere : ∀ p' d', (p', d') ≠ (p, d) → st'.build.dieIdAt p' d' = st.build.dieIdAt p' d'

/-- The DIE that was found or made. -/
theorem Located.die {st st₁ : NodeLoop} {p d : Nat} {ptr : Option Addr}
    (h : Located st st₁ p d ptr) :
    ∃ die, st₁.build.getDie p d = some die ∧ st₁.deref = die ∧ die.children = ptr ∧
      die.id = st.deref.id := by
  obtain ⟨die, hdie, hptr⟩ := Option.map_eq_some_iff.mp h.cursor
  refine ⟨die, hdie, NodeLoop.deref_inPackage h.node hdie, hptr, ?_⟩
  have hcursor := h.idCursor
  rw [Build.dieIdAt, hdie] at hcursor
  exact Option.some.inj hcursor

/-- The children of `*node` are those at the pointer. -/
theorem Located.loadChildren {st st₁ : NodeLoop} {p d : Nat} {ptr : Option Addr}
    (h : Located st st₁ p d ptr) :
    st₁.build.loadChildren st₁.deref = st.build.loadAddr ptr := by
  obtain ⟨die, _, hderef, hptr, _⟩ := h.die
  rw [hderef, Build.loadChildren_eq_loadAddr, hptr]
  unfold Build.loadAddr
  rw [h.heap]

/-- Children in an array that did not grow are stored in place. -/
theorem Located.round_inPlace {st st₁ : NodeLoop} {p d : Nat} {a : Addr}
    (h : Located st st₁ p d (some a)) {children children' : List ArchNode}
    (hload : st.build.loadAddr (some a) = some children)
    (hlen : children'.length = children.length) :
    Round st (st₁.storeChildren children children') p d (some a) children children' := by
  obtain ⟨die, hdie, hderef, hptr, hid⟩ := h.die
  have hstore : st₁.storeChildren children children' =
      { st₁ with build := st₁.build.writeHeap a children' } := by
    unfold NodeLoop.storeChildren
    rw [if_pos hlen, hderef, hptr]
  rw [hstore]
  refine ⟨⟨h.scratch, fun p' d' hn => ?_⟩, h.node, hload, h.source, ?_, h.elsewhere, ?_, ?_, ?_,
    ?_, h.idCursor, h.idElsewhere⟩
  · rw [h.node] at hn
    cases hn
    exact ⟨die, hdie⟩
  · unfold storedAddr
    rw [if_pos hlen]
    exact h.cursor
  · intro a'
    unfold storedHeap
    rw [if_pos hlen, Build.writeHeap_heap, h.heap]
    by_cases ha : a' = a
    · simp [ha]
    · simp [ha, Ne.symm ha]
  · rw [if_pos hlen]
    exact h.next
  · intro p' hp'
    right
    rw [← h.packages]
    exact hp'
  · rw [← hid, ← hderef]
    rfl

/-- Children in an array that grew are moved to a fresh address. -/
theorem Located.round_moved {st st₁ : NodeLoop} {p d : Nat} {ptr : Option Addr}
    (h : Located st st₁ p d ptr) {children children' : List ArchNode}
    (hload : st.build.loadAddr ptr = some children)
    (hlen : children'.length ≠ children.length) :
    Round st (st₁.storeChildren children children') p d ptr children children' := by
  obtain ⟨die, hdie, hderef, hptr, hid⟩ := h.die
  let die' : DieNode := { die with children := some st₁.build.next }
  have hnext : (st₁.build.moveHeap ptr children').next = st₁.build.next + 1 := rfl
  have hget : (st₁.build.moveHeap ptr children').getDie p d = some die := by
    unfold Build.getDie
    rw [Build.moveHeap_sockets]
    exact hdie
  have hstore : st₁.storeChildren children children' =
      { st₁ with build := (st₁.build.moveHeap ptr children').setDie p d die' } := by
    unfold NodeLoop.storeChildren
    rw [if_neg hlen, hderef, hptr]
    unfold NodeLoop.assign
    simp only [h.node]
    rfl
  have hself := Build.getDie_setDie_self _ hget die'
  have hderef' : NodeLoop.deref
      { st₁ with build := (st₁.build.moveHeap ptr children').setDie p d die' } = die' :=
    NodeLoop.deref_inPackage h.node hself
  have helsewhere : ∀ p' d', (p', d') ≠ (p, d) →
      ((st₁.build.moveHeap ptr children').setDie p d die').getDie p' d' =
        st₁.build.getDie p' d' := by
    intro p' d' hpos
    rw [Build.getDie_setDie_ne _ hpos]
    unfold Build.getDie
    rw [Build.moveHeap_sockets]
  rw [hstore]
  refine ⟨⟨h.scratch, ?_⟩, h.node, hload, h.source, ?_, ?_, ?_, ?_, ?_, ?_, ?_, ?_⟩
  · intro p' d' hn
    rw [h.node] at hn
    cases hn
    exact ⟨_, hself⟩
  · unfold storedAddr Build.addrAt
    rw [if_neg hlen, hself]
    simp [die', h.next]
  · intro p' d' hpos
    rw [← h.elsewhere p' d' hpos, Build.addrAt, helsewhere p' d' hpos]
    rfl
  · intro a
    unfold storedHeap
    rw [if_neg hlen, Build.setDie_heap, Build.moveHeap_heap, h.heap, h.next]
  · rw [if_neg hlen, Build.setDie_next, hnext, h.next]
  · intro p' hp'
    right
    rw [← h.packages]
    simpa [Build.setDie] using hp'
  · rw [hderef', ← hid]
  · rw [Build.dieIdAt, hself, ← hid]
    rfl
  · intro p' d' hpos
    rw [← h.idElsewhere p' d' hpos, Build.dieIdAt, helsewhere p' d' hpos]
    rfl

/-- `locate` found or made the DIE, `storeChildren` stored its new children. -/
theorem Located.round {st st₁ : NodeLoop} {p d : Nat} {ptr : Option Addr}
    (h : Located st st₁ p d ptr) {children children' : List ArchNode}
    (hload : st.build.loadAddr ptr = some children) (hne : children' ≠ []) :
    Round st (st₁.storeChildren children children') p d ptr children children' := by
  by_cases hlen : children'.length = children.length
  · cases ptr with
    | none =>
        cases hload
        exact absurd (List.length_eq_zero_iff.mp hlen) hne
    | some a => exact h.round_inPlace hload hlen
  · exact h.round_moved hload hlen

/-- No address is handed out twice. -/
theorem Round.next_le {st st' : NodeLoop} {p d : Nat} {ptr : Option Addr}
    {children children' : List ArchNode} (h : Round st st' p d ptr children children') :
    st.build.next ≤ st'.build.next := by
  rw [h.next]
  split
  · exact Nat.le_refl _
  · exact Nat.le_succ _

theorem NodeLoop.storeChildren_socketIds (st : NodeLoop) (old new : List ArchNode) :
    (st.storeChildren old new).build.socketIds = st.build.socketIds := by
  unfold storeChildren
  split
  · cases st.deref.children <;> rfl
  · unfold assign Build.socketIds
    cases st.node with
    | scratch => simp only [Build.moveHeap_sockets]
    | inPackage p d =>
        have hset := Build.setDie_socketIds (st.build.moveHeap st.deref.children new) p d
          { st.deref with children := some st.build.next }
        unfold Build.socketIds at hset
        rw [Build.moveHeap_sockets] at hset
        exact hset

theorem openPackage_dieIdAt (b : Build) (packageId : Int) :
    (openPackage b packageId).1.dieIdAt = b.dieIdAt := by
  funext p d
  unfold Build.dieIdAt
  rw [openPackage_getDie]

theorem openPackage_addrAt (b : Build) (packageId : Int) :
    (openPackage b packageId).1.addrAt = b.addrAt := by
  funext p d
  unfold Build.addrAt
  rw [openPackage_getDie]

theorem openPackage_packages (b : Build) (packageId : Int) {p' : Nat}
    (h : p' < (openPackage b packageId).1.sockets.length) :
    p' = (openPackage b packageId).2 ∨ p' < b.sockets.length := by
  revert h
  unfold openPackage
  cases findChild (b.sockets.map SocketNode.id) packageId with
  | some p => exact .inr
  | none =>
      simp only [List.length_append, List.length_singleton]
      omega

/-- `st` after `add_package`. -/
def NodeLoop.openPackage (st : NodeLoop) (packageId : Int) : NodeLoop :=
  { st with build := (ParseArchitecture.openPackage st.build packageId).1 }

theorem NodeLoop.openPackage_deref (st : NodeLoop) (packageId : Int) :
    (st.openPackage packageId).deref = st.deref := by
  unfold NodeLoop.deref NodeLoop.openPackage
  cases st.node with
  | scratch => rfl
  | inPackage p d => simp only [openPackage_getDie]

theorem NodeLoop.openPackage_dieAt (st : NodeLoop) (packageId : Int) (p : Nat) :
    (st.openPackage packageId).dieAt p = st.dieAt p := by
  unfold dieAt
  rw [NodeLoop.openPackage_deref]
  unfold openPackage ParseArchitecture.openPackage
  cases findChild (st.build.sockets.map SocketNode.id) packageId with
  | some _ => rfl
  | none =>
      rcases Nat.lt_trichotomy p st.build.sockets.length with h | rfl | h
      · simp only [List.getElem?_append_left h]
      · simp [findChild]
      · simp only
        rw [List.getElem?_eq_none (by simp; omega), List.getElem?_eq_none (by omega)]

/-- The position at which a round finds the DIE of this NUMA node, in the package
with the given id. -/
def NodeLoop.targetPos (st : NodeLoop) (packageId : Int) : Option (Nat × Nat) :=
  match findChild (st.build.sockets.map SocketNode.id) packageId with
  | none => none
  | some p => (st.dieAt p).map fun d => (p, d)

theorem NodeLoop.targetPos_eq (st : NodeLoop) (packageId : Int) :
    st.targetPos packageId =
      (st.dieAt (ParseArchitecture.openPackage st.build packageId).2).map fun d =>
        ((ParseArchitecture.openPackage st.build packageId).2, d) := by
  unfold targetPos ParseArchitecture.openPackage
  cases findChild (st.build.sockets.map SocketNode.id) packageId with
  | some p => rfl
  | none =>
      unfold dieAt
      simp

theorem NodeLoop.Ok.openPackage {st : NodeLoop} (hok : st.Ok) (packageId : Int) :
    (st.openPackage packageId).Ok := by
  refine ⟨hok.scratch, fun p d hn => ?_⟩
  obtain ⟨die, hdie⟩ := hok.cursor p d hn
  exact ⟨die, by rw [← hdie, NodeLoop.openPackage, openPackage_getDie]⟩

/-- The pointer in `*node` is `NULL` or that of a DIE of the tree. -/
theorem NodeLoop.Ok.deref_children {st : NodeLoop} (hok : st.Ok) :
    st.deref.children = none ∨
      ∃ p d, st.node = .inPackage p d ∧ st.build.addrAt p d = some st.deref.children := by
  cases hn : st.node with
  | scratch =>
      left
      unfold deref
      rw [hn]
      exact hok.scratch
  | inPackage p d =>
      right
      obtain ⟨die, hdie⟩ := hok.cursor p d hn
      refine ⟨p, d, rfl, ?_⟩
      unfold Build.addrAt
      rw [hdie, NodeLoop.deref_inPackage hn hdie]
      rfl

/-- The pointer that a round reads is `NULL` or that of a DIE of the tree. -/
theorem NodeLoop.Ok.pointer {st : NodeLoop} (hok : st.Ok) {p d : Nat} {ptr : Option Addr}
    (hsource : st.dieAt p = some d ∧ st.build.addrAt p d = some ptr ∨
      st.dieAt p = none ∧ st.build.addrAt p d = none ∧ ptr = st.deref.children) :
    ptr = none ∨ ∃ p d, st.build.addrAt p d = some ptr := by
  rcases hsource with ⟨_, haddr⟩ | ⟨_, _, rfl⟩
  · exact .inr ⟨p, d, haddr⟩
  · exact hok.deref_children.imp id fun ⟨p, d, _, haddr⟩ => ⟨p, d, haddr⟩

/-- A round behind `add_package` is a round. -/
theorem Round.of_openPackage {st st' : NodeLoop} {packageId : Int} {d : Nat}
    {ptr : Option Addr} {children children' : List ArchNode}
    (h : Round (st.openPackage packageId) st' (openPackage st.build packageId).2 d ptr
      children children') :
    Round st st' (openPackage st.build packageId).2 d ptr children children' := by
  have haddr : (st.openPackage packageId).build.addrAt = st.build.addrAt :=
    openPackage_addrAt st.build packageId
  have hheap : (st.openPackage packageId).build.heap = st.build.heap :=
    openPackage_heap st.build packageId
  have hnext : (st.openPackage packageId).build.next = st.build.next :=
    openPackage_next st.build packageId
  have hids : (st.openPackage packageId).build.dieIdAt = st.build.dieIdAt :=
    openPackage_dieIdAt st.build packageId
  refine ⟨h.ok, h.node, ?_, ?_, ?_, ?_, ?_, ?_, ?_, ?_, ?_, ?_⟩
  · rw [← h.loaded]
    unfold Build.loadAddr
    rw [hheap]
  · have hsource := h.source
    rw [haddr, NodeLoop.openPackage_deref, NodeLoop.openPackage_dieAt] at hsource
    exact hsource
  · have hcursor := h.cursor
    unfold storedAddr at hcursor ⊢
    rw [hnext] at hcursor
    exact hcursor
  · intro p' d' hpos
    rw [h.elsewhere p' d' hpos, haddr]
  · intro a
    rw [h.heap a]
    unfold storedHeap
    rw [hheap, hnext]
  · rw [h.next, hnext]
  · intro p' hp'
    rcases h.packages p' hp' with hp | hp
    · exact .inl hp
    · exact openPackage_packages st.build packageId hp
  · rw [h.derefId, NodeLoop.openPackage_deref]
  · rw [h.idCursor, NodeLoop.openPackage_deref]
  · intro p' d' hpos
    rw [h.idElsewhere p' d' hpos, hids]

section Granted

variable {S : Snapshot} {mem : InsertSite → Bool} (hmem : ∀ site, mem site = true)
include hmem

/-- The first half of a round that does not find the CPU. -/
theorem locateDie_granted {st : NodeLoop} (hok : st.Ok) {cpu : Int} (hread : S.CpuReadable cpu)
    {present : List ArchNode} (hload : st.build.loadAddr st.deref.children = some present)
    (hfind : ArchNode.findCpuAny (toInt32 cpu) present = false) :
    ∃ st₁ d ptr, locateDie S mem st cpu = .ok (some st₁) ∧
      Located (st.openPackage (S.packageOf cpu)) st₁
        (openPackage st.build (S.packageOf cpu)).2 d ptr := by
  have hlt := openPackage_lt st.build (S.packageOf cpu)
  obtain ⟨d, ptr, hloc⟩ := openDie_located (hok.openPackage (S.packageOf cpu)) hlt
  refine ⟨_, d, ptr, ?_, hloc⟩
  unfold locateDie
  rw [Build.loadChildren_eq_loadAddr, hload]
  simp only [hfind, hread.package, hmem, addPackage_granted]
  rw [addNodeToPackage_granted _ hlt]
  rfl

/-- The second half of a round. -/
theorem processCpu_located {st st₁ : NodeLoop} {cpu : Int} (hread : S.CpuReadable cpu)
    (hlocate : locateDie S mem st cpu = .ok (some st₁)) {children : List ArchNode}
    (hload : st₁.build.loadChildren st₁.deref = some children) :
    processCpu S mem st cpu = .ok (st₁.storeChildren children (S.place children cpu)) := by
  unfold processCpu
  rw [hlocate]
  simp only [hread.l2, hread.l1, hload]
  rw [placeCpu_granted hmem children cpu _ _ hread.core hread.group]
  rfl

/-- **What a round of `process_node` does** with readable files and granted memory:
it is undefined because an array that it needs was freed; it finds the CPU; or it
is a `Round` that stores the children `placeRound` computes. -/
theorem processCpu_granted {st : NodeLoop} (hok : st.Ok) {cpu : Int}
    (hread : S.CpuReadable cpu) :
    (∃ ptr, (ptr = none ∨ ∃ p d, st.build.addrAt p d = some ptr) ∧
      st.build.loadAddr ptr = none ∧ processCpu S mem st cpu = .error .undefined) ∨
    ∃ present, st.build.loadAddr st.deref.children = some present ∧
      ((ArchNode.findCpuAny (toInt32 cpu) present = true ∧ processCpu S mem st cpu = .ok st) ∨
        ArchNode.findCpuAny (toInt32 cpu) present = false ∧
        ∃ st' d ptr children, processCpu S mem st cpu = .ok st' ∧
          st'.build.socketIds = (openPackage st.build (S.packageOf cpu)).1.socketIds ∧
          Round st st' (openPackage st.build (S.packageOf cpu)).2 d ptr children
            (S.place children cpu)) := by
  cases hload : st.build.loadAddr st.deref.children with
  | none =>
      left
      refine ⟨st.deref.children, ?_, hload, ?_⟩
      · rcases hok.deref_children with h | ⟨p, d, _, h⟩
        · exact .inl h
        · exact .inr ⟨p, d, h⟩
      · unfold processCpu locateDie
        rw [Build.loadChildren_eq_loadAddr, hload]
  | some present =>
      cases hfind : ArchNode.findCpuAny (toInt32 cpu) present with
      | true =>
          right
          refine ⟨present, rfl, .inl ⟨hfind, ?_⟩⟩
          unfold processCpu locateDie
          rw [Build.loadChildren_eq_loadAddr, hload]
          simp only [hfind, if_true]
      | false =>
          obtain ⟨st₁, d, ptr, hlocate, hloc⟩ := locateDie_granted hmem hok hread hload hfind
          have hopen : (st.openPackage (S.packageOf cpu)).build.loadAddr ptr =
              st.build.loadAddr ptr := by
            unfold Build.loadAddr NodeLoop.openPackage
            rw [openPackage_heap]
          have hpointer : st₁.build.loadChildren st₁.deref = st.build.loadAddr ptr :=
            hloc.loadChildren.trans hopen
          cases hchildren : st.build.loadAddr ptr with
          | none =>
              left
              refine ⟨ptr, ?_, hchildren, ?_⟩
              · have haddr : (st.openPackage (S.packageOf cpu)).build.addrAt = st.build.addrAt :=
                  openPackage_addrAt _ _
                rcases hloc.source with ⟨_, h⟩ | ⟨_, _, h⟩
                · rw [haddr] at h
                  exact .inr ⟨_, _, h⟩
                · rw [NodeLoop.openPackage_deref] at h
                  rw [h, hload] at hchildren
                  cases hchildren
              · unfold processCpu
                rw [hlocate]
                simp only [hread.l2, hread.l1, hpointer, hchildren]
          | some children =>
              right
              have hloaded := hopen.trans hchildren
              refine ⟨present, rfl, .inr ⟨hfind,
                st₁.storeChildren children (S.place children cpu), d, ptr, children, ?_, ?_, ?_⟩⟩
              · exact processCpu_located hmem hread hlocate (hpointer.trans hchildren)
              · rw [NodeLoop.storeChildren_socketIds]
                exact hloc.socketIds
              · exact (hloc.round hloaded (placeRound_ne_nil _ _ _ _ _)).of_openPackage

end Granted

end ParseArchitecture
end X86Energy
