import X86Energy.Library.Partial
import X86Energy.ParseArchitecture.FinishTree

/-!
# Sorting a tree in place

`sort_children` and `sort_children_recursive` with the loops of the source: every access to an
array of children has an index, and the recursion is into the nodes that were just moved.
`InPlace.sortChildrenRecursive_eq` says that no index is outside of its array and that the tree is
then the one of `sortChildrenRecursive`.

What this tree is, is said without the loops (`sorts`): every array is in order, every node has
been moved with all that is below it and has not overtaken a node with the same id (`Moved`), the
paths from the root to the leaves are the same, and another call changes nothing.
-/

namespace X86Energy

open BubbleSort Partial

namespace ArchNode

namespace InPlace

/-- Why a call does not return: an index outside of an array, or a depth that was not allowed. -/
inductive SortStop
  | outside
  | outOfFuel
deriving DecidableEq, Repr

/-- `sort_children`. -/
def sortChildren (t : ArchNode) : Except SortStop ArchNode :=
  match outerLoop ArchNode.id t.children.length t.children with
  | some children => .ok (t.setChildren children)
  | none => .error .outside

/-- `sort_children_recursive`, to a depth. -/
def sortChildrenRecursive : Nat → ArchNode → Except SortStop ArchNode
  | 0, _ => .error .outOfFuel
  | fuel + 1, t => do
      let t ← sortChildren t
      let children ← (List.range t.children.length).foldlM
        (updateAt .outside (sortChildrenRecursive fuel)) t.children
      return t.setChildren children

end InPlace

section Measures

mutual

/-- The number of levels. -/
def height : ArchNode → Nat
  | node _ _ _ cs => heightAll cs + 1

def heightAll : List ArchNode → Nat
  | [] => 0
  | c :: cs => max (height c) (heightAll cs)

end

/-- What a node says of itself. -/
abbrev Label : Type := Granularity × Int × Option String

mutual

/-- The paths from the root to the leaves, each as what its nodes say of themselves. -/
def paths : ArchNode → List (List Label)
  | node g i n cs => if cs.isEmpty then [[(g, i, n)]] else (pathsAll cs).map ((g, i, n) :: ·)

def pathsAll : List ArchNode → List (List Label)
  | [] => []
  | c :: cs => paths c ++ pathsAll cs

end

theorem height_le_heightAll {cs : List ArchNode} {c : ArchNode} (hc : c ∈ cs) :
    c.height ≤ heightAll cs := by
  induction cs with
  | nil => cases hc
  | cons d cs ih =>
      rw [heightAll]
      rcases List.mem_cons.mp hc with rfl | hc
      · exact Nat.le_max_left _ _
      · exact (ih hc).trans (Nat.le_max_right _ _)

theorem pathsAll_eq_flatMap (cs : List ArchNode) : pathsAll cs = cs.flatMap paths := by
  induction cs with
  | nil => rfl
  | cons c cs ih => rw [pathsAll, ih, List.flatMap_cons]

end Measures

/-- **The nodes have been moved**: each array of children holds the children of before, in an order
that keeps the order of those with equal ids, and in each of them the same has happened. -/
inductive Moved : ArchNode → ArchNode → Prop
  | node {g : Granularity} {i : Int} {n : Option String} {cs ds es : List ArchNode}
      (hperm : ds.Perm cs)
      (hstable : ∀ k : Int, (ds.filter fun c => c.id = k) = cs.filter fun c => c.id = k)
      (hbelow : List.Forall₂ Moved ds es) : Moved (node g i n cs) (node g i n es)

section Sorted

theorem moved_sortChildrenRecursive (t : ArchNode) : Moved t (sortChildrenRecursive t) := by
  induction t using induct with
  | h g i n cs ih =>
      rw [sortChildrenRecursive_node]
      refine .node (bubbleSort_perm _ cs) (fun k => bubbleSort_filter _ k cs) ?_
      rw [sortBlock, List.forall₂_map_right_iff, List.forall₂_same]
      exact fun c hc => ih c ((bubbleSort_perm _ cs).mem_iff.mp hc)

/-- The sorted array of sorted subtrees is in order. -/
theorem sortBlock_sorted (cs : List ArchNode) : Sorted ArchNode.id (sortBlock cs) := by
  refine List.pairwise_map.mpr ((bubbleSort_sorted ArchNode.id cs).imp fun hle => ?_)
  rw [id_sortChildrenRecursive, id_sortChildrenRecursive]
  exact hle

/-- Every array of children is in order. -/
theorem sorted_sortChildrenRecursive (t : ArchNode) :
    ∀ x ∈ (sortChildrenRecursive t).preorder, Sorted ArchNode.id x.children := by
  induction t using induct with
  | h g i n cs ih =>
      intro x hx
      rw [sortChildrenRecursive_node, preorder_node] at hx
      rcases List.mem_cons.mp hx with rfl | hx
      · exact sortBlock_sorted cs
      · obtain ⟨c, hc, hxc⟩ := List.mem_flatMap.mp hx
        obtain ⟨c', hc', rfl⟩ := mem_sortBlock.mp hc
        exact ih c' hc' x hxc

/-- Sorting permutes the paths. -/
theorem paths_sortChildrenRecursive (t : ArchNode) :
    (sortChildrenRecursive t).paths.Perm t.paths := by
  induction t using induct with
  | h g i n cs ih =>
      have hbelow : ((sortBlock cs).flatMap paths).Perm (cs.flatMap paths) := by
        refine ((sortBlock_perm cs).flatMap_right _).trans ?_
        rw [List.flatMap_map]
        exact List.Perm.flatMap_left _ ih
      have hempty : (sortBlock cs).isEmpty = cs.isEmpty := by
        rw [(sortBlock_perm cs).isEmpty_eq, List.isEmpty_map]
      rw [sortChildrenRecursive_node, paths, paths, hempty, pathsAll_eq_flatMap,
        pathsAll_eq_flatMap]
      split
      · exact List.Perm.refl _
      · exact hbelow.map _

/-- Sorting a sorted tree changes nothing. -/
theorem sortChildrenRecursive_sorted {t : ArchNode}
    (h : ∀ x ∈ t.preorder, Sorted ArchNode.id x.children) : sortChildrenRecursive t = t := by
  induction t using induct with
  | h g i n cs ih =>
      have hcs : Sorted ArchNode.id cs := h _ (self_mem_preorder _)
      have hbelow : ∀ c ∈ cs, sortChildrenRecursive c = c := fun c hc =>
        ih c hc fun x hx => h x (mem_preorder_of_mem_children hc hx)
      rw [sortChildrenRecursive_node, sortBlock, bubbleSort_of_sorted hcs,
        List.map_congr_left hbelow, List.map_id']

end Sorted

section Loops

/-- **The loops of the source** stay in the arrays and deliver the sorted tree. -/
theorem InPlace.sortChildrenRecursive_eq {t : ArchNode} {fuel : Nat} (h : t.height ≤ fuel) :
    InPlace.sortChildrenRecursive fuel t = .ok (ArchNode.sortChildrenRecursive t) := by
  induction t using induct generalizing fuel with
  | h g i n cs ih =>
      rw [height] at h
      obtain ⟨fuel, rfl⟩ : ∃ m, fuel = m + 1 := ⟨fuel - 1, by omega⟩
      have hblock : InPlace.sortChildren (node g i n cs) =
          .ok (node g i n (bubbleSort ArchNode.id cs)) := by
        rw [InPlace.sortChildren, children_node, outerLoop_length]
        rfl
      have hbelow : ∀ c ∈ bubbleSort ArchNode.id cs,
          InPlace.sortChildrenRecursive fuel c = .ok (ArchNode.sortChildrenRecursive c) := by
        intro c hc
        have hc' : c ∈ cs := (bubbleSort_perm _ cs).mem_iff.mp hc
        have hle := height_le_heightAll hc'
        exact ih c hc' (by omega)
      have hloop := foldlM_updateAt (e := InPlace.SortStop.outside) hbelow
      rw [InPlace.sortChildrenRecursive, hblock, ok_bind, children_node, hloop, ok_bind,
        sortChildrenRecursive_node]
      rfl

/-- What `sort_children_recursive` is to make of a tree. -/
structure Sorts (t t' : ArchNode) : Prop where
  returns : ∀ fuel, t.height ≤ fuel → InPlace.sortChildrenRecursive fuel t = .ok t'
  sorted : ∀ x ∈ t'.preorder, Sorted ArchNode.id x.children
  moved : Moved t t'
  paths : t'.paths.Perm t.paths
  again : ∀ fuel, t'.height ≤ fuel → InPlace.sortChildrenRecursive fuel t' = .ok t'

/-- **Every tree is sorted.** -/
theorem sorts (t : ArchNode) : Sorts t (sortChildrenRecursive t) where
  returns _ := InPlace.sortChildrenRecursive_eq
  sorted := sorted_sortChildrenRecursive t
  moved := moved_sortChildrenRecursive t
  paths := paths_sortChildrenRecursive t
  again fuel hfuel := by
    rw [InPlace.sortChildrenRecursive_eq hfuel,
      sortChildrenRecursive_sorted (sorted_sortChildrenRecursive t)]

end Loops

end ArchNode

end X86Energy
