import Mathlib.Data.List.Basic
import X86Energy.Library.CInt

/-!
# Architecture trees

`ArchNode` is `x86_energy_architecture_node_t` with its `children` array as a
list: `nr_children` is the length of the list.  The functions of this file walk
over a finished tree.

`preorder` lists a node and everything below it; it is what the statements
about a tree speak of.
-/

namespace X86Energy

/-- `enum x86_energy_granularity`. -/
inductive Granularity
  | system
  | socket
  | die
  | module
  | core
  | thread
  | device
  | size
deriving DecidableEq, Repr

/-- `x86_energy_architecture_node_t`. -/
inductive ArchNode
  | node (granularity : Granularity) (id : Int) (name : Option String)
      (children : List ArchNode)

namespace ArchNode

def granularity : ArchNode → Granularity
  | node g _ _ _ => g

def id : ArchNode → Int
  | node _ i _ _ => i

def name : ArchNode → Option String
  | node _ _ n _ => n

def children : ArchNode → List ArchNode
  | node _ _ _ cs => cs

def setId (i : Int) : ArchNode → ArchNode
  | node g _ n cs => node g i n cs

def setChildren (cs : List ArchNode) : ArchNode → ArchNode
  | node g i n _ => node g i n cs

@[simp] theorem granularity_node (g : Granularity) (i : Int) (n : Option String)
    (cs : List ArchNode) : (node g i n cs).granularity = g := rfl

@[simp] theorem id_node (g : Granularity) (i : Int) (n : Option String)
    (cs : List ArchNode) : (node g i n cs).id = i := rfl

@[simp] theorem children_node (g : Granularity) (i : Int) (n : Option String)
    (cs : List ArchNode) : (node g i n cs).children = cs := rfl

@[simp] theorem granularity_setId (i : Int) (t : ArchNode) :
    (t.setId i).granularity = t.granularity := by
  cases t
  rfl

@[simp] theorem id_setId (i : Int) (t : ArchNode) : (t.setId i).id = i := by
  cases t
  rfl

@[simp] theorem children_setId (i : Int) (t : ArchNode) :
    (t.setId i).children = t.children := by
  cases t
  rfl

@[simp] theorem granularity_setChildren (cs : List ArchNode) (t : ArchNode) :
    (t.setChildren cs).granularity = t.granularity := by
  cases t
  rfl

@[simp] theorem id_setChildren (cs : List ArchNode) (t : ArchNode) :
    (t.setChildren cs).id = t.id := by
  cases t
  rfl

@[simp] theorem children_setChildren (cs : List ArchNode) (t : ArchNode) :
    (t.setChildren cs).children = cs := by
  cases t
  rfl

/-- Induction over a tree: the property passes from the children to the node. -/
theorem induct {P : ArchNode → Prop}
    (h : ∀ g i n cs, (∀ c ∈ cs, P c) → P (node g i n cs)) : ∀ t, P t
  | node g i n cs => h g i n cs (fun c _ => induct h c)

mutual

/-- A node followed by everything below it. -/
def preorder : ArchNode → List ArchNode
  | node g i n cs => node g i n cs :: preorderAll cs

def preorderAll : List ArchNode → List ArchNode
  | [] => []
  | c :: cs => preorder c ++ preorderAll cs

end

mutual

/-- `find_cpu`. -/
def findCpu (cpu : Int) : ArchNode → Bool
  | node g i _ cs => if g = .thread then i = cpu else findCpuAny cpu cs

def findCpuAny (cpu : Int) : List ArchNode → Bool
  | [] => false
  | c :: cs => findCpu cpu c || findCpuAny cpu cs

end

mutual

/-- `x86_energy_arch_count`. -/
def archCount (g : Granularity) : ArchNode → Nat
  | node g' _ _ cs => if g' = g then 1 else archCountSum g cs

def archCountSum (g : Granularity) : List ArchNode → Nat
  | [] => 0
  | c :: cs => archCount g c + archCountSum g cs

end

mutual

/-- `find_node_internal`.  The `int32_t` id is compared as an `unsigned long`. -/
def findNodeInternal (g : Granularity) (id : Nat) : ArchNode → Option ArchNode
  | node g' i n cs =>
      if g' = g ∧ CInt.toSize i = id then some (node g' i n cs)
      else findNodeInternalAny g id cs

def findNodeInternalAny (g : Granularity) (id : Nat) : List ArchNode → Option ArchNode
  | [] => none
  | c :: cs =>
      match findNodeInternal g id c with
      | some found => some found
      | none => findNodeInternalAny g id cs

end

/-- The descent of `get_test_cpu` to the first THREAD; `none` is the access to
the children of a node that has none. -/
def firstThread : ArchNode → Option Int
  | node .thread i _ _ => some i
  | node _ _ _ [] => none
  | node _ _ _ (c :: _) => firstThread c

/-- `get_test_cpu` on the tree `arch`; `none` is undefined behaviour. -/
def getTestCpu (arch : ArchNode) (g : Granularity) (id : Nat) : Option Int :=
  match findNodeInternal g id arch with
  | none => some (-1)
  | some subNode => firstThread subNode

theorem preorderAll_eq_flatMap (cs : List ArchNode) :
    preorderAll cs = cs.flatMap preorder := by
  induction cs with
  | nil => simp [preorderAll]
  | cons c cs ih => simp [preorderAll, ih]

theorem preorder_node (g : Granularity) (i : Int) (n : Option String) (cs : List ArchNode) :
    preorder (node g i n cs) = node g i n cs :: cs.flatMap preorder := by
  rw [preorder, preorderAll_eq_flatMap]

theorem preorder_eq_cons (t : ArchNode) :
    preorder t = t :: t.children.flatMap preorder := by
  cases t with
  | node g i n cs => rw [preorder_node, children_node]

theorem self_mem_preorder (t : ArchNode) : t ∈ t.preorder := by
  rw [preorder_eq_cons]
  exact List.mem_cons_self

theorem mem_preorder_of_mem_children {t c x : ArchNode} (hc : c ∈ t.children)
    (hx : x ∈ c.preorder) : x ∈ t.preorder := by
  rw [preorder_eq_cons]
  exact List.mem_cons_of_mem _ (List.mem_flatMap.mpr ⟨c, hc, hx⟩)

theorem findCpuAny_eq_any (cpu : Int) (cs : List ArchNode) :
    findCpuAny cpu cs = cs.any (findCpu cpu) := by
  induction cs with
  | nil => simp [findCpuAny]
  | cons c cs ih => simp [findCpuAny, ih]

theorem archCountSum_eq_sum (g : Granularity) (cs : List ArchNode) :
    archCountSum g cs = (cs.map (archCount g)).sum := by
  induction cs with
  | nil => simp [archCountSum]
  | cons c cs ih => simp [archCountSum, ih]

/-- Whether `find_node_internal` stops at a node. -/
def Matches (g : Granularity) (id : Nat) (t : ArchNode) : Bool :=
  t.granularity = g && CInt.toSize t.id = id

theorem findNodeInternalAny_eq_find {g : Granularity} {id : Nat} {cs : List ArchNode}
    (h : ∀ c ∈ cs, findNodeInternal g id c = c.preorder.find? (Matches g id)) :
    findNodeInternalAny g id cs = (cs.flatMap preorder).find? (Matches g id) := by
  induction cs with
  | nil => rfl
  | cons c cs ih =>
      have hc := h c (by simp)
      have hcs := ih (fun x hx => h x (by simp [hx]))
      rw [findNodeInternalAny, hc, hcs, List.flatMap_cons, List.find?_append]
      cases c.preorder.find? (Matches g id) with
      | none => rfl
      | some found => rfl

/-- `find_node_internal` is the first match in preorder. -/
theorem findNodeInternal_eq_find (g : Granularity) (id : Nat) (t : ArchNode) :
    findNodeInternal g id t = t.preorder.find? (Matches g id) := by
  induction t using induct with
  | h g' i n cs ih =>
      rw [findNodeInternal, preorder_node, List.find?_cons, findNodeInternalAny_eq_find ih]
      by_cases h : g' = g ∧ CInt.toSize i = id
      · simp [Matches, h]
      · have hno : Matches g id (node g' i n cs) = false := by
          rw [Matches, Bool.and_eq_false_iff, decide_eq_false_iff_not, decide_eq_false_iff_not]
          exact not_and_or.mp h
        rw [if_neg h, hno]

/-- What `find_node_internal` returns is a node of the tree with the wanted
granularity and id. -/
theorem findNodeInternal_some {g : Granularity} {id : Nat} {t found : ArchNode}
    (h : findNodeInternal g id t = some found) :
    found ∈ t.preorder ∧ found.granularity = g ∧ CInt.toSize found.id = id := by
  rw [findNodeInternal_eq_find] at h
  have hmatch := List.find?_some h
  simp only [Matches, Bool.and_eq_true, decide_eq_true_eq] at hmatch
  exact ⟨List.mem_of_find?_eq_some h, hmatch⟩

/-- A node with the wanted granularity and id is found, or an earlier one is. -/
theorem findNodeInternal_isSome {g : Granularity} {id : Nat} {t x : ArchNode}
    (hx : x ∈ t.preorder) (hg : x.granularity = g) (hid : CInt.toSize x.id = id) :
    ∃ found, findNodeInternal g id t = some found := by
  rw [findNodeInternal_eq_find]
  apply Option.isSome_iff_exists.mp
  rw [List.find?_isSome]
  exact ⟨x, hx, by simp [Matches, hg, hid]⟩

/-- The descent ends in a THREAD of the subtree. -/
theorem firstThread_some {t : ArchNode} {c : Int} (h : firstThread t = some c) :
    ∃ x ∈ t.preorder, x.granularity = .thread ∧ x.id = c := by
  fun_induction firstThread t with
  | case1 i n cs =>
      cases h
      exact ⟨_, self_mem_preorder _, rfl, rfl⟩
  | case2 => cases h
  | case3 g i n c' cs _ ih =>
      obtain ⟨x, hx, hthread, hid⟩ := ih h
      exact ⟨x, mem_preorder_of_mem_children (by simp) hx, hthread, hid⟩

/-- Every node that is not a THREAD has a child. -/
def Populated (t : ArchNode) : Prop :=
  ∀ x ∈ t.preorder, x.granularity ≠ .thread → x.children ≠ []

theorem Populated.of_mem_preorder {t x : ArchNode} (h : t.Populated) (hx : x ∈ t.preorder) :
    x.Populated := by
  induction t using induct with
  | h g i n cs ih =>
      rw [preorder_node] at hx
      rcases List.mem_cons.mp hx with rfl | hx
      · exact h
      · obtain ⟨c, hc, hxc⟩ := List.mem_flatMap.mp hx
        refine ih c hc (fun y hy => h y ?_) hxc
        exact mem_preorder_of_mem_children hc hy

/-- In a populated tree the descent never runs into a missing child. -/
theorem Populated.firstThread_isSome {t : ArchNode} (h : t.Populated) :
    ∃ c, firstThread t = some c := by
  fun_induction firstThread t with
  | case1 i n cs => exact ⟨i, rfl⟩
  | case2 g i n hne => exact absurd rfl (h _ (self_mem_preorder _) (by simpa using hne))
  | case3 g i n c cs _ ih =>
      exact ih (h.of_mem_preorder (mem_preorder_of_mem_children (by simp) (self_mem_preorder _)))

end ArchNode

end X86Energy
