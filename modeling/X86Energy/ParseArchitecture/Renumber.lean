import X86Energy.Library.BubbleSort
import X86Energy.ParseArchitecture.Node

/-!
# Sorting a tree and renumbering its cores

The last phase of `x86_energy_init_architecture_nodes`: every array of children
is sorted by id, then the cores get the numbers 0, 1, … in the order in which
the nested loops over sockets, dies and die children reach them.
-/

namespace X86Energy

open BubbleSort

namespace ArchNode

mutual

/-- `sort_children_recursive`.  The source sorts an array before it descends
into it; as sorting looks at ids only, the order does not matter
(`sortChildrenRecursive_node`). -/
def sortChildrenRecursive : ArchNode → ArchNode
  | node g i n cs => node g i n (bubbleSort ArchNode.id (sortAll cs))

def sortAll : List ArchNode → List ArchNode
  | [] => []
  | c :: cs => sortChildrenRecursive c :: sortAll cs

end

/-- `sort_children` and the descent, on an array of children. -/
def sortBlock (cs : List ArchNode) : List ArchNode :=
  (bubbleSort ArchNode.id cs).map sortChildrenRecursive

theorem sortAll_eq_map (cs : List ArchNode) : sortAll cs = cs.map sortChildrenRecursive := by
  induction cs with
  | nil => rfl
  | cons c cs ih => simp [sortAll, ih]

@[simp] theorem id_sortChildrenRecursive (t : ArchNode) :
    (sortChildrenRecursive t).id = t.id := by
  cases t
  simp [sortChildrenRecursive]

@[simp] theorem granularity_sortChildrenRecursive (t : ArchNode) :
    (sortChildrenRecursive t).granularity = t.granularity := by
  cases t
  simp [sortChildrenRecursive]

/-- Sort the array, then descend: the form of the source. -/
theorem sortChildrenRecursive_node (g : Granularity) (i : Int) (n : Option String)
    (cs : List ArchNode) :
    sortChildrenRecursive (node g i n cs) = node g i n (sortBlock cs) := by
  rw [sortChildrenRecursive, sortAll_eq_map, sortBlock,
    bubbleSort_map id_sortChildrenRecursive]

/-- Up to order, sorting acts on each child alone. -/
theorem sortBlock_perm (cs : List ArchNode) :
    (sortBlock cs).Perm (cs.map sortChildrenRecursive) :=
  (bubbleSort_perm _ cs).map _

/-- The innermost loop: number the children of a module. -/
def renumberCores : Int → List ArchNode → Int × List ArchNode
  | current, [] => (current, [])
  | current, c :: cs =>
      let rest := renumberCores (current + 1) cs
      (rest.1, c.setId current :: rest.2)

/-- The loop over the children of a die: a CORE is numbered, of everything else
the children are. -/
def renumberDieChildren : Int → List ArchNode → Int × List ArchNode
  | current, [] => (current, [])
  | current, c :: cs =>
      if c.granularity = .core then
        let rest := renumberDieChildren (current + 1) cs
        (rest.1, c.setId current :: rest.2)
      else
        let cores := renumberCores current c.children
        let rest := renumberDieChildren cores.1 cs
        (rest.1, c.setChildren cores.2 :: rest.2)

/-- The loop over the dies of a socket. -/
def renumberDies : Int → List ArchNode → Int × List ArchNode
  | current, [] => (current, [])
  | current, die :: dies =>
      let children := renumberDieChildren current die.children
      let rest := renumberDies children.1 dies
      (rest.1, die.setChildren children.2 :: rest.2)

/-- The loop over the sockets, which skips devices. -/
def renumberSockets : Int → List ArchNode → Int × List ArchNode
  | current, [] => (current, [])
  | current, socket :: sockets =>
      if socket.granularity = .device then
        let rest := renumberSockets current sockets
        (rest.1, socket :: rest.2)
      else
        let dies := renumberDies current socket.children
        let rest := renumberSockets dies.1 sockets
        (rest.1, socket.setChildren dies.2 :: rest.2)

/-- The renumbering loops on the whole tree. -/
def renumber (sysNode : ArchNode) : ArchNode :=
  sysNode.setChildren (renumberSockets 0 sysNode.children).2

/-- Everything that happens to the tree after the last `process_node`. -/
def finish (sysNode : ArchNode) : ArchNode :=
  renumber (sortChildrenRecursive sysNode)

end ArchNode

end X86Energy
