import X86Energy.ParseArchitecture.Shape

/-!
# The numbers of the COREs

The loops at the end of `x86_energy_init_architecture_nodes` carry one counter over
SOCKETs, DIEs and the children of the DIEs.  Below a DIE the COREs can be one or two
layers down, and any array can be empty.  Each loop `Renumbers` its array: the COREs
below it get the next numbers, and nothing else changes.
-/

namespace X86Energy
namespace ArchNode

open CInt

section Ids

/-- The ids of the COREs of a tree, in the order of the tree. -/
def coreIds (t : ArchNode) : List Int :=
  (t.preorder.filter (fun x => x.granularity = .core)).map ArchNode.id

/-- The numbers from `k` on. -/
def numbers (k : Int) (n : Nat) : List Int := (List.range n).map (fun i : Nat => k + i)

theorem numbers_append (k : Int) (m n : Nat) :
    numbers k m ++ numbers (k + m) n = numbers k (m + n) := by
  unfold numbers
  rw [List.range_add, List.map_append, List.map_map]
  congr 1
  apply List.map_congr_left
  intro i _
  simp [Int.add_assoc]

theorem coreIds_of_ne {t : ArchNode} (h : t.granularity ≠ .core) :
    t.coreIds = t.children.flatMap ArchNode.coreIds := by
  unfold ArchNode.coreIds
  rw [preorder_eq_cons, List.filter_cons, if_neg (by simpa using h), List.filter_flatMap,
    List.map_flatMap]

end Ids

section Forget

mutual

/-- The tree without the ids of its COREs. -/
def forgetCoreIds : ArchNode → ArchNode
  | node g i n cs => node g (if g = .core then 0 else i) n (forgetAll cs)

def forgetAll : List ArchNode → List ArchNode
  | [] => []
  | c :: cs => forgetCoreIds c :: forgetAll cs

end

theorem forgetAll_eq_map (cs : List ArchNode) : forgetAll cs = cs.map forgetCoreIds := by
  induction cs with
  | nil => rfl
  | cons c cs ih => rw [forgetAll, ih, List.map_cons]

theorem forgetCoreIds_node (g : Granularity) (i : Int) (n : Option String)
    (cs : List ArchNode) : forgetCoreIds (node g i n cs) =
      node g (if g = .core then 0 else i) n (cs.map forgetCoreIds) := by
  rw [forgetCoreIds, forgetAll_eq_map]

@[simp] theorem granularity_forgetCoreIds (t : ArchNode) :
    (forgetCoreIds t).granularity = t.granularity := by
  cases t
  rw [forgetCoreIds_node, granularity_node, granularity_node]

@[simp] theorem children_forgetCoreIds (t : ArchNode) :
    (forgetCoreIds t).children = t.children.map forgetCoreIds := by
  cases t
  rw [forgetCoreIds_node, children_node, children_node]

theorem id_forgetCoreIds {t : ArchNode} (h : t.granularity ≠ .core) :
    (forgetCoreIds t).id = t.id := by
  cases t
  rw [granularity_node] at h
  rw [forgetCoreIds_node, id_node, id_node, if_neg h]

/-- The id of a CORE is forgotten. -/
theorem forgetCoreIds_setId {t : ArchNode} (h : t.granularity = .core) (i : Int) :
    forgetCoreIds (t.setId i) = forgetCoreIds t := by
  cases t with
  | node g i' n cs =>
      rw [granularity_node] at h
      rw [setId, forgetCoreIds_node, forgetCoreIds_node, if_pos h, if_pos h]

theorem forgetCoreIds_setChildren {t : ArchNode} {cs : List ArchNode}
    (h : cs.map forgetCoreIds = t.children.map forgetCoreIds) :
    forgetCoreIds (t.setChildren cs) = forgetCoreIds t := by
  cases t with
  | node g i n cs' =>
      rw [children_node] at h
      rw [setChildren, forgetCoreIds_node, forgetCoreIds_node, h]

/-- Counting does not look at ids. -/
theorem archCount_forgetCoreIds (g : Granularity) (t : ArchNode) :
    archCount g (forgetCoreIds t) = archCount g t := by
  induction t using induct with
  | h g' i n cs ih =>
      rw [forgetCoreIds_node, archCount, archCount]
      split
      · rfl
      · rw [archCountSum_eq_sum, archCountSum_eq_sum, List.map_map]
        congr 1
        exact List.map_congr_left ih

/-- Only the ids of the COREs are forgotten. -/
theorem idsAt_forgetCoreIds {g : Granularity} (hg : g ≠ .core) (t : ArchNode) :
    idsAt g (forgetCoreIds t) = idsAt g t := by
  induction t using induct with
  | h g' i n cs ih =>
      rw [forgetCoreIds_node, idsAt_node, idsAt_node, List.flatMap_map, List.flatMap_congr ih]
      by_cases hg' : g' = g
      · rw [if_pos hg', if_pos hg', if_neg fun hcore => hg (hg' ▸ hcore)]
      · rw [if_neg hg', if_neg hg']

end Forget

section Loops

/-- What a loop makes of an array: the COREs below it get the numbers from `k` on, and
nothing else changes. -/
structure Renumbers (k : Int) (cs : List ArchNode) (r : Int × List ArchNode) : Prop where
  next : r.1 = k + (cs.flatMap coreIds).length
  ids : r.2.flatMap coreIds = numbers k (cs.flatMap coreIds).length
  rest : r.2.map forgetCoreIds = cs.map forgetCoreIds

theorem Renumbers.nil (k : Int) : Renumbers k [] (k, []) where
  next := by simp
  ids := rfl
  rest := rfl

/-- One round of a loop, and the rounds after it. -/
theorem Renumbers.cons {k : Int} {c c' : ArchNode} {cs : List ArchNode}
    {r : Int × List ArchNode} (hids : c'.coreIds = numbers k c.coreIds.length)
    (hrest : forgetCoreIds c' = forgetCoreIds c)
    (h : Renumbers (k + c.coreIds.length) cs r) : Renumbers k (c :: cs) (r.1, c' :: r.2) where
  next := by
    rw [h.next, List.flatMap_cons, List.length_append]
    omega
  ids := by
    rw [List.flatMap_cons, List.flatMap_cons, hids, h.ids, List.length_append, numbers_append]
  rest := by rw [List.map_cons, List.map_cons, hrest, h.rest]

/-- A loop over the children of a node that is not a CORE. -/
theorem Renumbers.below {k : Int} {t : ArchNode} {r : Int × List ArchNode}
    (hne : t.granularity ≠ .core) (h : Renumbers k t.children r) :
    r.1 = k + t.coreIds.length ∧
      (t.setChildren r.2).coreIds = numbers k t.coreIds.length ∧
      forgetCoreIds (t.setChildren r.2) = forgetCoreIds t := by
  rw [coreIds_of_ne hne, coreIds_of_ne (by simpa using hne), children_setChildren]
  exact ⟨h.next, h.ids, forgetCoreIds_setChildren h.rest⟩

/-- A loop changes no THREAD. -/
theorem Renumbers.blockThreads {k : Int} {cs : List ArchNode} {r : Int × List ArchNode}
    (h : Renumbers k cs r) : blockThreads r.2 = blockThreads cs := by
  have hforget : ∀ ds : List ArchNode,
      ArchNode.blockThreads ds = (ds.map forgetCoreIds).flatMap (idsAt .thread) := by
    intro ds
    rw [List.flatMap_map]
    exact List.flatMap_congr fun c _ => (idsAt_forgetCoreIds (by decide) c).symm
  rw [hforget, h.rest, ← hforget]

theorem CoreShape.coreIds {t : ArchNode} (h : t.CoreShape) : t.coreIds = [t.id] := by
  have hthreads : t.children.flatMap (level .core) = [] := by
    refine List.flatMap_eq_nil_iff.mpr fun c hc => ?_
    rw [level_of_ne (by rw [(h.2 c hc).1]; decide), (h.2 c hc).2]
    rfl
  change (level .core t).map ArchNode.id = _
  rw [level_eq, if_pos h.1, hthreads]
  rfl

/-- A CORE gets its number. -/
theorem CoreShape.setId {t : ArchNode} (h : t.CoreShape) (k : Int) :
    (t.setId k).coreIds = numbers k t.coreIds.length ∧
      forgetCoreIds (t.setId k) = forgetCoreIds t := by
  have hshape : (t.setId k).CoreShape :=
    ⟨by rw [granularity_setId, h.1], by rw [children_setId]; exact h.2⟩
  refine ⟨?_, forgetCoreIds_setId h.1 k⟩
  rw [hshape.coreIds, h.coreIds, id_setId]
  simp [numbers]

theorem renumberCores_renumbers (k : Int) {cs : List ArchNode} (h : ∀ c ∈ cs, c.CoreShape) :
    Renumbers k cs (renumberCores k cs) := by
  induction cs generalizing k with
  | nil => exact .nil k
  | cons c cs ih =>
      have hc : c.CoreShape := h c (by simp)
      have hrest := ih (k + 1) fun x hx => h x (by simp [hx])
      have hone : k + 1 = k + c.coreIds.length := by rw [hc.coreIds]; rfl
      rw [hone] at hrest
      rw [renumberCores, hone]
      exact .cons (hc.setId k).1 (hc.setId k).2 hrest

/-- Below a DIE: a CORE is numbered here, the COREs of a MODULE in the innermost loop. -/
theorem renumberDieChildren_renumbers (k : Int) {cs : List ArchNode}
    (h : ∀ c ∈ cs, c.ModuleShape ∨ c.CoreShape) :
    Renumbers k cs (renumberDieChildren k cs) := by
  induction cs generalizing k with
  | nil => exact .nil k
  | cons c cs ih =>
      have hcs : ∀ x ∈ cs, x.ModuleShape ∨ x.CoreShape := fun x hx => h x (by simp [hx])
      rw [renumberDieChildren]
      rcases h c (by simp) with hmodule | hcore
      · have hne : c.granularity ≠ .core := by
          rw [hmodule.1]
          decide
        obtain ⟨hnext, hids, hsame⟩ := (renumberCores_renumbers k hmodule.2).below hne
        rw [if_neg hne]
        exact .cons hids hsame (hnext ▸ ih _ hcs)
      · have hone : k + 1 = k + c.coreIds.length := by rw [hcore.coreIds]; rfl
        rw [if_pos hcore.1, hone]
        exact .cons (hcore.setId k).1 (hcore.setId k).2 (ih _ hcs)

theorem renumberDies_renumbers (k : Int) {dies : List ArchNode} (h : ∀ d ∈ dies, d.DieShape) :
    Renumbers k dies (renumberDies k dies) := by
  induction dies generalizing k with
  | nil => exact .nil k
  | cons die dies ih =>
      have hdie : die.DieShape := h die (by simp)
      obtain ⟨hnext, hids, hsame⟩ := (renumberDieChildren_renumbers k hdie.2).below
        (by rw [hdie.1]; decide)
      exact .cons hids hsame (hnext ▸ ih _ fun d hd => h d (by simp [hd]))

theorem renumberSockets_renumbers (k : Int) {sockets : List ArchNode}
    (h : ∀ s ∈ sockets, s.SocketShape) : Renumbers k sockets (renumberSockets k sockets) := by
  induction sockets generalizing k with
  | nil => exact .nil k
  | cons socket sockets ih =>
      have hsocket : socket.SocketShape := h socket (by simp)
      have hne : ¬ socket.granularity = .device ∧ socket.granularity ≠ .core := by
        rw [hsocket.1]
        decide
      obtain ⟨hnext, hids, hsame⟩ := (renumberDies_renumbers k hsocket.2).below hne.2
      rw [renumberSockets, if_neg hne.1]
      exact .cons hids hsame (hnext ▸ ih _ fun s hs => h s (by simp [hs]))

end Loops

section Search

@[simp] theorem numbers_length (k : Int) (n : Nat) : (numbers k n).length = n := by
  simp [numbers]

/-- `find_node_internal` searches the nodes of one granularity. -/
theorem findNodeInternal_eq_level (g : Granularity) (id : Nat) (t : ArchNode) :
    findNodeInternal g id t = (level g t).find? fun x => toSize x.id = id := by
  rw [findNodeInternal_eq_find, level, List.find?_filter]
  congr 1
  funext x
  simp [Matches]

/-- In a level with the ids 0, 1, … the search is an access by position. -/
theorem findNodeInternal_numbered {g : Granularity} {t : ArchNode} {n : Nat}
    (h : (level g t).map ArchNode.id = numbers 0 n) (i : UInt64) :
    findNodeInternal g i.toNat t = (level g t)[i.toNat]? := by
  have hlen : (level g t).length = n := by
    have hlen := congrArg List.length h
    rwa [List.length_map, numbers_length] at hlen
  have hid : ∀ j (hj : j < (level g t).length), (level g t)[j].id = (j : Int) := by
    intro j hj
    have hget : ((level g t).map ArchNode.id)[j]? = (numbers 0 n)[j]? := by rw [h]
    rw [List.getElem?_map, List.getElem?_eq_getElem hj, numbers, List.getElem?_map,
      List.getElem?_range (by omega)] at hget
    simpa using hget
  have hi := i.toNat_lt
  rw [findNodeInternal_eq_level]
  by_cases hlt : i.toNat < (level g t).length
  · rw [List.getElem?_eq_getElem hlt, List.find?_eq_some_iff_getElem]
    refine ⟨by rw [hid _ hlt, toSize_natCast hi, decide_eq_true_eq], i.toNat, hlt, rfl,
      fun j hj => ?_⟩
    -- an earlier position is smaller than `i`, so its conversion changes nothing
    rw [hid j (by omega), toSize_natCast (by omega), Bool.not_eq_true', decide_eq_false_iff_not]
    exact Nat.ne_of_lt hj
  · rw [List.getElem?_eq_none (Nat.not_lt.mp hlt), List.find?_eq_none]
    intro x hx
    obtain ⟨j, hj, rfl⟩ := List.getElem_of_mem hx
    rw [hid j hj, decide_eq_true_eq]
    have hle : toSize (j : Int) ≤ j := by
      unfold toSize
      omega
    omega

theorem Shaped.ne_core {t : ArchNode} (h : t.Shaped) : t.granularity ≠ .core := by
  rw [h.1]
  decide

/-- The ids of the COREs after the loops. -/
theorem Shaped.level_renumber {t : ArchNode} (h : t.Shaped) :
    (level .core (renumber t)).map ArchNode.id = numbers 0 (archCount .core t) := by
  have hcount : archCount .core t = t.coreIds.length := by
    rw [archCount_eq_length (h.graded.unnested .core), coreIds, List.length_map]
    rfl
  rw [hcount]
  exact ((renumberSockets_renumbers 0 h.2).below h.ne_core).2.1

/-- **Renumbering gives the COREs their positions as ids and changes nothing else**, on
trees with any numbers of children.  (The counter is an `int32_t`, which holds the numbers of up
to 2³¹ COREs.) -/
theorem renumber_cores {t : ArchNode} (h : t.Shaped) :
    (level .core (renumber t)).map ArchNode.id = numbers 0 (archCount .core t) ∧
      archCount .core (renumber t) = archCount .core t ∧
      forgetCoreIds (renumber t) = forgetCoreIds t ∧
      (∀ i : UInt64, i.toNat < archCount .core t → ∃ x,
        (level .core (renumber t))[i.toNat]? = some x ∧
          findNodeInternal .core i.toNat (renumber t) = some x) ∧
      ∀ i : UInt64, archCount .core t ≤ i.toNat →
        findNodeInternal .core i.toNat (renumber t) = none := by
  have hlevel := h.level_renumber
  have hsame : forgetCoreIds (renumber t) = forgetCoreIds t :=
    ((renumberSockets_renumbers 0 h.2).below h.ne_core).2.2
  have hlen : (level .core (renumber t)).length = archCount .core t := by
    have hlen := congrArg List.length hlevel
    rwa [List.length_map, numbers_length] at hlen
  refine ⟨hlevel, ?_, hsame, fun i hi => ?_, fun i hi => ?_⟩
  · rw [← archCount_forgetCoreIds, hsame, archCount_forgetCoreIds]
  · rw [findNodeInternal_numbered hlevel]
    exact ⟨_, List.getElem?_eq_getElem (by omega), List.getElem?_eq_getElem (by omega)⟩
  · rw [findNodeInternal_numbered hlevel]
    exact List.getElem?_eq_none (by omega)

/-- A DIE with a MODULE of two COREs, an empty MODULE and a CORE, all with the same id. -/
def mixedDie : ArchNode :=
  let core : ArchNode := .node .core 7 none []
  .node .system 0 none [.node .socket 3 none [.node .die 5 none
    [.node .module 0 none [core, core], .node .module 1 none [], core]]]

theorem renumber_cores_mixedDie :
    findNodeInternal .core 2 (renumber mixedDie) = some (.node .core 2 none []) ∧
      findNodeInternal .core 3 (renumber mixedDie) = none := by
  have hshape : mixedDie.Shaped := by
    simp [mixedDie, Shaped, SocketShape, DieShape, ModuleShape, CoreShape]
  obtain ⟨_, _, _, hfound, hmissing⟩ := renumber_cores hshape
  obtain ⟨x, hx, hfind⟩ := hfound 2 (by decide)
  cases hx
  exact ⟨hfind, hmissing 3 (by decide)⟩

end Search

end ArchNode
end X86Energy
