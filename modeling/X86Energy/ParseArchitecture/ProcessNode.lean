import X86Energy.Library.CText
import X86Energy.Library.Transition
import X86Energy.ParseArchitecture.Renumber

/-!
# Building the tree from the topology files

The tree grows by `process_node`, once for each NUMA node directory.

`add_node_to_package` is the one place that copies a node structure: it puts
the DIE into the array of a package with `children[n] = **node`, which copies
the pointer to the children and not the children.  So the arrays of the DIEs
live in a heap here and a DIE holds the address of its own; an address whose
array `realloc` has moved is freed.  No other array is ever reached through two
structures, and these are plain lists.

A DIE structure keeps no `nr_children`: as long as its array is not freed, it is
the length of the array.
-/

namespace X86Energy
namespace ParseArchitecture

open CInt CText

/-- The files below `/sys/devices/system` that the tree is built from. -/
inductive TopologyFile
  | cpulist (node : Int)
  | physicalPackageId (cpu : Int)
  | coreId (cpu : Int)
  | sharedCpuList (index : Nat) (cpu : Int)
deriving DecidableEq, Repr

/-- The requests for memory that one round of `process_node` can make. -/
inductive InsertSite
  | package
  | die
  | module
  | core (j : Nat)
  | thread (j : Nat)
deriving DecidableEq, Repr

/-- An entry that `readdir` yields. -/
structure Dirent where
  name : List Char
  isDir : Bool
deriving DecidableEq, Repr

/-- What the environment answers during one build: the entries of the node
directory in `readdir` order, what `read_file_long` and `read_file_long_list`
deliver for a file (`none` is return code 1), and whether the requests for
memory of round `k` of node `i` are granted. -/
structure Snapshot where
  hostname : Option String
  nodeDir : List Dirent
  readLong : TopologyFile → Option Int
  readLongList : TopologyFile → Option (List Int)
  memory : Nat → Nat → InsertSite → Bool

/-- `find_child` on the ids of an array: the index of the first match. -/
def findChild (ids : List Int) (id : Int) : Option Nat :=
  ids.findIdx? (fun i => i = id)

/-- `insert_new_child`; `none` is return code 1.  The `long` id is stored in an
`int32_t`. -/
def insertNewChild (granted : Bool) (children : List ArchNode) (g : Granularity) (id : Int)
    (name : String) : Option (List ArchNode) :=
  if granted then some (children ++ [.node g (toInt32 id) (some name) []]) else none

section Placing

variable (S : Snapshot) (mem : InsertSite → Bool)

/-- The second half of `add_cpu_and_core_to_node`: the THREAD below the core at
position `k`. -/
def addThread (j k : Nat) (children : List ArchNode) (cpu : Int) : Int × List ArchNode :=
  match children[k]? with
  | none => (1, children)
  | some coreNode =>
      match findChild (coreNode.children.map ArchNode.id) cpu with
      | some _ => (0, children)
      | none =>
          match insertNewChild (mem (.thread j)) coreNode.children .thread cpu s!"CPU {cpu}" with
          | none => (1, children)
          | some threads => (0, children.set k (coreNode.setChildren threads))

/-- `add_cpu_and_core_to_node`: the return code and the children of the parent
node.  `j` is the position of the CPU in its L2 group. -/
def addCpuAndCoreToNode (j : Nat) (children : List ArchNode) (cpu : Int) :
    Int × List ArchNode :=
  match S.readLong (.coreId cpu) with
  | none => (1, children)
  | some core =>
      match findChild (children.map ArchNode.id) core with
      | some k => addThread mem j k children cpu
      | none =>
          match insertNewChild (mem (.core j)) children .core core s!"Core {core}" with
          | none => (1, children)
          | some children' => addThread mem j children.length children' cpu

/-- The loop over an L2 group; the return codes are ignored. -/
def addGroup : Nat → List Int → List ArchNode → List ArchNode
  | _, [], children => children
  | j, cpu :: cpus, children =>
      addGroup (j + 1) cpus (addCpuAndCoreToNode S mem j children cpu).2

/-- The module handling at the end of a round of `process_node`, on the children
of the DIE; `none` is return code 1 of `process_node`. -/
def placeCpu (children : List ArchNode) (cpu : Int) (sharedCpusL2 sharedCpusL1 : List Int) :
    Option (List ArchNode) :=
  if sharedCpusL1.length < sharedCpusL2.length then
    match insertNewChild (mem .module) children .module children.length
        s!"module {children.length}" with
    | none => none
    | some children' =>
        some (children'.modify children.length
          (fun newParent => newParent.setChildren (addGroup S mem 0 sharedCpusL2 [])))
  else some (addCpuAndCoreToNode S mem 0 children cpu).2

end Placing

/-- Why a build ends without a tree. -/
inductive BuildStop
  | failed
  | undefined
deriving DecidableEq, Repr

abbrev Addr := Nat

/-- A DIE structure; `children` is `NULL` or the address of its array. -/
structure DieNode where
  id : Int
  name : Option String
  children : Option Addr
deriving DecidableEq, Repr

/-- A SOCKET structure with its array of DIEs. -/
structure SocketNode where
  id : Int
  name : Option String
  children : List DieNode
deriving DecidableEq, Repr

/-- The tree under construction: the children of the SYSTEM node and the heap
of the DIE arrays (`none` is free, addresses from `next` on were never used). -/
structure Build where
  sockets : List SocketNode
  heap : Addr → Option (List ArchNode)
  next : Addr

/-- The tree before the first `process_node`. -/
def Build.empty : Build := ⟨[], fun _ => none, 0⟩

/-- The `node` variable of `process_node`: the entry of the scratch array, or the
DIE at a position of a package. -/
inductive NodePtr
  | scratch
  | inPackage (package die : Nat)
deriving DecidableEq, Repr

/-- The variables of `process_node`. -/
structure NodeLoop where
  build : Build
  scratch : DieNode
  node : NodePtr

namespace Build

/-- The children of a DIE; `none` if its array was freed. -/
def loadChildren (b : Build) (die : DieNode) : Option (List ArchNode) :=
  match die.children with
  | none => some []
  | some a => b.heap a

def getDie (b : Build) (p d : Nat) : Option DieNode :=
  match b.sockets[p]? with
  | none => none
  | some package => package.children[d]?

/-- Change the array of a package. -/
def modifyPackage (b : Build) (p : Nat) (f : List DieNode → List DieNode) : Build :=
  let change := fun package : SocketNode => { package with children := f package.children }
  { b with sockets := b.sockets.modify p change }

/-- Write the DIE structure at a position. -/
def setDie (b : Build) (p d : Nat) (die : DieNode) : Build :=
  b.modifyPackage p (fun dies => dies.set d die)

/-- Write an array in place. -/
def writeHeap (b : Build) (a : Addr) (children : List ArchNode) : Build :=
  { b with heap := Function.update b.heap a (some children) }

/-- `free` of an array. -/
def freeHeap (b : Build) : Option Addr → Build
  | none => b
  | some a => { b with heap := Function.update b.heap a none }

/-- `realloc` of an array: the contents move to a new address, the old one is
freed. -/
def moveHeap (b : Build) (old : Option Addr) (children : List ArchNode) : Build :=
  let freed := b.freeHeap old
  { freed with heap := Function.update freed.heap b.next (some children), next := b.next + 1 }

end Build

namespace NodeLoop

/-- `*node`. -/
def deref (st : NodeLoop) : DieNode :=
  match st.node with
  | .scratch => st.scratch
  | .inPackage p d => (st.build.getDie p d).getD st.scratch

/-- `*node = die`. -/
def assign (st : NodeLoop) (die : DieNode) : NodeLoop :=
  match st.node with
  | .scratch => { st with scratch := die }
  | .inPackage p d => { st with build := st.build.setDie p d die }

/-- Store the children of `*node` after a round: an array that grew was
reallocated, any other was changed in place. -/
def storeChildren (st : NodeLoop) (old new : List ArchNode) : NodeLoop :=
  if new.length = old.length then
    match st.deref.children with
    | none => st
    | some a => { st with build := st.build.writeHeap a new }
  else
    let moved := { st with build := st.build.moveHeap st.deref.children new }
    moved.assign { st.deref with children := some st.build.next }

end NodeLoop

/-- `add_package`: the position of the SOCKET; `none` is return code 1. -/
def addPackage (granted : Bool) (b : Build) (packageId : Int) : Option (Build × Nat) :=
  match findChild (b.sockets.map SocketNode.id) packageId with
  | some p => some (b, p)
  | none =>
      let package : SocketNode := ⟨toInt32 packageId, some s!"Processor {packageId}", []⟩
      if granted then some ({ b with sockets := b.sockets ++ [package] }, b.sockets.length)
      else none

/-- `add_node_to_package`; `none` is return code 1.  The structure is copied with
its pointer to the children, and the name of the original becomes `NULL`. -/
def addNodeToPackage (granted : Bool) (st : NodeLoop) (p : Nat) : Option NodeLoop :=
  match st.build.sockets[p]? with
  | none => none
  | some package =>
      match findChild (package.children.map DieNode.id) st.deref.id with
      | some d => some { st with node := .inPackage p d }
      | none =>
          if granted then
            let unnamed := st.assign { st.deref with name := none }
            let build := unnamed.build.modifyPackage p (fun dies => dies ++ [st.deref])
            some ⟨build, unnamed.scratch, .inPackage p package.children.length⟩
          else none

/-- The first half of a round of `process_node`: look for the CPU in `*node`, else
make `node` point to the DIE of this NUMA node in the package of the CPU.  The
result is `none` if the CPU is there already (`continue`). -/
def locateDie (S : Snapshot) (mem : InsertSite → Bool) (st : NodeLoop) (cpu : Int) :
    Except BuildStop (Option NodeLoop) :=
  match st.build.loadChildren st.deref with
  | none => .error .undefined
  | some present =>
      if ArchNode.findCpuAny (toInt32 cpu) present then .ok none
      else
        match S.readLong (.physicalPackageId cpu) with
        | none => .error .failed
        | some packageId =>
            match addPackage (mem .package) st.build packageId with
            | none => .error .failed
            | some (build, p) =>
                match addNodeToPackage (mem .die) { st with build := build } p with
                | none => .error .failed
                | some st' => .ok (some st')

/-- One round of the loop of `process_node`, for one CPU of the cpulist. -/
def processCpu (S : Snapshot) (mem : InsertSite → Bool) (st : NodeLoop) (cpu : Int) :
    Except BuildStop NodeLoop :=
  match locateDie S mem st cpu with
  | .error e => .error e
  | .ok none => .ok st
  | .ok (some st') =>
      match S.readLongList (.sharedCpuList 2 cpu), S.readLongList (.sharedCpuList 1 cpu) with
      | some sharedCpusL2, some sharedCpusL1 =>
          match st'.build.loadChildren st'.deref with
          | none => .error .undefined
          | some children =>
              match placeCpu S mem children cpu sharedCpusL2 sharedCpusL1 with
              | none => .error .failed
              | some children' => .ok (st'.storeChildren children children')
      | _, _ => .error .failed

/-- The loop of `process_node` for node `i`, over the cpulist with positions. -/
def processCpus (S : Snapshot) (i : Nat) : NodeLoop → List (Int × Nat) →
    Except BuildStop NodeLoop :=
  Transition.run (fun st round => processCpu S (S.memory i round.2) st round.1)

/-- `process_node` for entry `i` of the scratch array. -/
def processNode (S : Snapshot) (b : Build) (node : DieNode × Nat) : Except BuildStop Build :=
  match S.readLongList (.cpulist node.1.id) with
  | none => .error .failed
  | some cpus =>
      match processCpus S node.2 ⟨b, node.1, .scratch⟩ cpus.zipIdx with
      | .error e => .error e
      | .ok st => .ok st.build

/-- Whether `get_nodes` takes an entry: a directory `node<digit>…`. -/
def isNodeDir (entry : Dirent) : Bool :=
  entry.isDir && entry.name.take 4 = ['n', 'o', 'd', 'e'] &&
    match entry.name.drop 4 with
    | c :: _ => c.isDigit
    | [] => false

/-- The number behind `node` in a directory name. -/
def nodeNumber (entry : Dirent) : Int :=
  match strtol (entry.name.drop 4 ++ ['\x00']) with
  | some n => n.value
  | none => 0

/-- `get_nodes`: the scratch array of DIEs. -/
def getNodes (entries : List Dirent) : List DieNode :=
  (entries.filter isNodeDir).map fun entry =>
    ⟨toInt32 (nodeNumber entry), some (String.ofList (decimal (nodeNumber entry))), none⟩

/-- All calls of `process_node`. -/
def processNodes (S : Snapshot) : Except BuildStop Build :=
  Transition.run (processNode S) .empty (getNodes S.nodeDir).zipIdx

section Finish

/-- The subtree below a DIE structure; `none` if its array was freed. -/
def Build.dieTree (b : Build) (die : DieNode) : Option ArchNode :=
  (b.loadChildren die).map (.node .die die.id die.name)

/-- The subtree below a SOCKET structure. -/
def Build.socketTree (b : Build) (socket : SocketNode) : Option ArchNode :=
  (socket.children.mapM b.dieTree).map (.node .socket socket.id socket.name)

/-- The whole tree as a client sees it. -/
def Build.tree (b : Build) (hostname : Option String) : Option ArchNode :=
  (b.sockets.mapM b.socketTree).map (.node .system 0 hostname)

/-- Sort the arrays of the SYSTEM node and of the packages. -/
def Build.sortUpper (b : Build) : Build :=
  let sortPackage := fun socket : SocketNode =>
    { socket with children := BubbleSort.bubbleSort DieNode.id socket.children }
  { b with sockets := (BubbleSort.bubbleSort SocketNode.id b.sockets).map sortPackage }

/-- Sort the array of one DIE in place. -/
def sortDie (b : Build) (die : DieNode) : Option Build :=
  match die.children with
  | none => some b
  | some a => (b.heap a).map fun children => b.writeHeap a (ArchNode.sortBlock children)

/-- The renumbering of one DIE in place. -/
def renumberDie (st : Int × Build) (die : DieNode) : Option (Int × Build) :=
  match die.children with
  | none => some st
  | some a => (st.2.heap a).map fun children =>
      let numbered := ArchNode.renumberDieChildren st.1 children
      (numbered.1, st.2.writeHeap a numbered.2)

/-- The DIE structures in the order of the final loops. -/
def Build.dies (b : Build) : List DieNode :=
  b.sockets.flatMap SocketNode.children

/-- `sort_children_recursive(sys_node)` and the renumbering loops. -/
def Build.finish (b : Build) : Option Build :=
  let b := b.sortUpper
  match b.dies.foldlM sortDie b with
  | none => none
  | some b => (b.dies.foldlM renumberDie (0, b)).map Prod.snd

end Finish

/-- `x86_energy_init_architecture_nodes`: the tree, or why there is none
(`failed` is the return of `NULL`). -/
def initArchitectureNodes (S : Snapshot) : Except BuildStop ArchNode :=
  match S.hostname with
  | none => .error .failed
  | some hostname =>
      match processNodes S with
      | .error e => .error e
      | .ok b =>
          match b.finish with
          | none => .error .undefined
          | some b =>
              match b.tree (some hostname) with
              | none => .error .undefined
              | some t => .ok t

end ParseArchitecture
end X86Energy
