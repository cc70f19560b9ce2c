import Mathlib.Data.List.Nodup
import X86Energy.Library.Partial
import X86Energy.ParseArchitecture.FinishTree

/-!
# Finishing a build is finishing its tree

The final loops of `x86_energy_init_architecture_nodes` work on the arrays in place.
If no two DIE structures share an array, their result is `ArchNode.finish` of the
tree.
-/

namespace X86Energy
namespace ParseArchitecture

open ArchNode

universe u

section Accumulate

variable {σ : Type u} (f : σ → List ArchNode → σ × List ArchNode)

/-- Change a list of arrays from left to right, carrying a state. -/
def accumulate : σ → List (List ArchNode) → σ × List (List ArchNode)
  | s, [] => (s, [])
  | s, cs :: rest =>
      let here := f s cs
      let later := accumulate here.1 rest
      (later.1, here.2 :: later.2)

theorem accumulate_append (s : σ) (l m : List (List ArchNode)) :
    accumulate f s (l ++ m) =
      ((accumulate f (accumulate f s l).1 m).1,
        (accumulate f s l).2 ++ (accumulate f (accumulate f s l).1 m).2) := by
  induction l generalizing s with
  | nil => rfl
  | cons cs l ih => simp [accumulate, ih]

theorem accumulate_length (s : σ) (l : List (List ArchNode)) :
    (accumulate f s l).2.length = l.length := by
  induction l generalizing s with
  | nil => rfl
  | cons cs l ih => simp [accumulate, ih]

/-- The step of the final loops: change the array of a DIE in place. -/
def updateDie (st : σ × Build) (die : DieNode) : Option (σ × Build) :=
  match die.children with
  | none => some st
  | some a => (st.2.heap a).map fun cs => ((f st.1 cs).1, st.2.writeHeap a (f st.1 cs).2)

end Accumulate

theorem renumberDie_eq : renumberDie = updateDie renumberDieChildren := rfl

/-- The sorting of a DIE carries no state. -/
def sortStep (_ : Unit) (cs : List ArchNode) : Unit × List ArchNode := ((), sortBlock cs)

theorem foldlM_sortDie (dies : List DieNode) (b : Build) :
    dies.foldlM sortDie b = (dies.foldlM (updateDie sortStep) ((), b)).map Prod.snd := by
  induction dies generalizing b with
  | nil => rfl
  | cons die dies ih =>
      have hstep : sortDie b die = (updateDie sortStep ((), b) die).map Prod.snd := by
        unfold sortDie updateDie
        cases die.children with
        | none => rfl
        | some a => simp [sortStep, Function.comp_def]
      rw [List.foldlM_cons, List.foldlM_cons, hstep]
      cases updateDie sortStep ((), b) die with
      | none => rfl
      | some st => exact ih st.2

theorem accumulate_sortStep (l : List (List ArchNode)) :
    (accumulate sortStep () l).2 = l.map sortBlock := by
  induction l with
  | nil => rfl
  | cons cs l ih =>
      rw [List.map_cons, ← ih]
      rfl

namespace Build

/-- The array of a DIE. -/
def viewBlock (b : Build) (die : DieNode) : List ArchNode := (b.loadChildren die).getD []

def viewDie (b : Build) (die : DieNode) : ArchNode :=
  .node .die die.id die.name (b.viewBlock die)

def viewSocket (b : Build) (socket : SocketNode) : ArchNode :=
  .node .socket socket.id socket.name (socket.children.map b.viewDie)

/-- The tree of a build whose arrays can all be read. -/
def viewTree (b : Build) (hostname : Option String) : ArchNode :=
  .node .system 0 hostname (b.sockets.map b.viewSocket)

/-- No two DIE structures share an array, and all arrays can be read. -/
structure Separated (b : Build) : Prop where
  distinct : (b.dies.map DieNode.children).Nodup
  live : ∀ die ∈ b.dies, ∃ a cs, die.children = some a ∧ b.heap a = some cs

theorem mem_dies {b : Build} {socket : SocketNode} {die : DieNode}
    (hs : socket ∈ b.sockets) (hd : die ∈ socket.children) : die ∈ b.dies :=
  List.mem_flatMap.mpr ⟨socket, hs, hd⟩

theorem loadChildren_eq_view {b : Build} {die : DieNode} {a : Addr} {cs : List ArchNode}
    (hptr : die.children = some a) (hcs : b.heap a = some cs) :
    b.loadChildren die = some cs ∧ b.viewBlock die = cs := by
  have hload : b.loadChildren die = some cs := by
    simp only [loadChildren, hptr, hcs]
  exact ⟨hload, by rw [viewBlock, hload]; rfl⟩

/-- The tree of a build whose arrays can all be read, as `tree` computes it. -/
theorem tree_eq_view {b : Build}
    (h : ∀ die ∈ b.dies, ∃ a cs, die.children = some a ∧ b.heap a = some cs)
    (hostname : Option String) : b.tree hostname = some (b.viewTree hostname) := by
  have hdie : ∀ die ∈ b.dies, b.dieTree die = some (b.viewDie die) := by
    intro die hd
    obtain ⟨a, cs, hptr, hcs⟩ := h die hd
    obtain ⟨hload, hview⟩ := loadChildren_eq_view hptr hcs
    rw [dieTree, hload, viewDie, hview]
    rfl
  have hsocket : ∀ s ∈ b.sockets, b.socketTree s = some (b.viewSocket s) := by
    intro s hs
    rw [socketTree, Partial.mapM_of_forall fun die hd => hdie die (mem_dies hs hd)]
    rfl
  rw [tree, Partial.mapM_of_forall hsocket]
  rfl

/-- The nodes below the DIEs, level by level. -/
theorem level_viewTree (b : Build) (hostname : Option String) {g : Granularity}
    (hg : g ∉ [.system, .socket, .die]) :
    level g (b.viewTree hostname) =
      b.dies.flatMap fun die => (b.viewBlock die).flatMap (level g) := by
  simp only [List.mem_cons, List.not_mem_nil, or_false, not_or] at hg
  have hdie : ∀ die, level g (b.viewDie die) = (b.viewBlock die).flatMap (level g) :=
    fun die => level_of_ne (t := b.viewDie die) (Ne.symm hg.2.2)
  have hsocket : ∀ socket, level g (b.viewSocket socket) =
      socket.children.flatMap fun die => (b.viewBlock die).flatMap (level g) := by
    intro socket
    rw [level_of_ne (t := b.viewSocket socket) (Ne.symm hg.2.1), viewSocket, children_node,
      List.flatMap_map]
    exact List.flatMap_congr fun die _ => hdie die
  rw [level_of_ne (t := b.viewTree hostname) (Ne.symm hg.1), viewTree, children_node, dies,
    List.flatMap_assoc, List.flatMap_map]
  exact List.flatMap_congr fun socket _ => hsocket socket

/-- A build with a DIE in every package and layers in every DIE has a layered tree. -/
theorem viewTree_layered {b : Build} (hsockets : ∀ socket ∈ b.sockets, socket.children ≠ [])
    (hdies : ∀ die ∈ b.dies, b.viewBlock die ≠ [] ∧ DieLayer (b.viewBlock die))
    (hostname : Option String) : (b.viewTree hostname).Layered := by
  refine ⟨rfl, fun s hs => ?_⟩
  obtain ⟨socket, hsocket, rfl⟩ := List.mem_map.mp hs
  refine ⟨rfl, ?_, fun d hd => ?_⟩
  · exact fun hnil => hsockets socket hsocket (List.map_eq_nil_iff.mp hnil)
  · obtain ⟨die, hdie, rfl⟩ := List.mem_map.mp hd
    exact ⟨rfl, hdies die (mem_dies hsocket hdie)⟩

/-- The THREADs of the tree, DIE by DIE. -/
theorem threads_viewTree (b : Build) (hostname : Option String) :
    (b.viewTree hostname).threads = b.dies.flatMap fun die => blockThreads (b.viewBlock die) := by
  change (level .thread (b.viewTree hostname)).map ArchNode.id = _
  rw [level_viewTree b hostname (by decide), List.map_flatMap]
  apply List.flatMap_congr
  intro die _
  rw [List.map_flatMap]
  rfl

end Build

section Positions

theorem Build.getDie_eq {b : Build} {p d : Nat} {die : DieNode} :
    b.getDie p d = some die ↔ ∃ socket, b.sockets[p]? = some socket ∧
      socket.children[d]? = some die := by
  unfold getDie
  cases b.sockets[p]? with
  | none => simp
  | some socket => simp

/-- The DIE structures are told apart by a field exactly if their positions are. -/
theorem Build.dies_nodup_iff {β : Type*} (b : Build) (f : DieNode → β) :
    (b.dies.map f).Nodup ↔ ∀ p d p' d' die die', b.getDie p d = some die →
      b.getDie p' d' = some die' → f die = f die' → (p, d) = (p', d') := by
  unfold dies
  rw [List.map_flatMap, List.nodup_flatMap, List.pairwise_iff_getElem]
  constructor
  · rintro ⟨hwithin, hacross⟩ p d p' d' die die' h h' hf
    obtain ⟨s, hs, hd⟩ := getDie_eq.mp h
    obtain ⟨s', hs', hd'⟩ := getDie_eq.mp h'
    obtain ⟨hp, rfl⟩ := List.getElem?_eq_some_iff.mp hs
    obtain ⟨hp', rfl⟩ := List.getElem?_eq_some_iff.mp hs'
    have hmem : f die ∈ (b.sockets[p]).children.map f :=
      List.mem_map_of_mem (List.mem_of_getElem? hd)
    have hmem' : f die' ∈ (b.sockets[p']).children.map f :=
      List.mem_map_of_mem (List.mem_of_getElem? hd')
    rcases Nat.lt_trichotomy p p' with hlt | rfl | hlt
    · exact absurd (hf ▸ hmem') (hacross p p' hp hp' hlt hmem)
    · have hn := hwithin _ (List.getElem_mem hp)
      have hget : ((b.sockets[p]).children.map f)[d]? = ((b.sockets[p]).children.map f)[d']? := by
        rw [List.getElem?_map, List.getElem?_map, hd, hd', Option.map_some, Option.map_some, hf]
      have hlt : d < ((b.sockets[p]).children.map f).length := by
        rw [List.length_map]
        exact (List.getElem?_eq_some_iff.mp hd).1
      rw [(List.getElem?_inj hlt hn).mp hget]
    · exact absurd (hf ▸ hmem) (hacross p' p hp' hp hlt hmem')
  · intro h
    constructor
    · intro s hs
      obtain ⟨p, hp⟩ := List.mem_iff_getElem?.mp hs
      rw [List.nodup_iff_getElem?_ne_getElem?]
      intro i j hij hj heq
      rw [List.length_map] at hj
      have hi : i < s.children.length := Nat.lt_trans hij hj
      rw [List.getElem?_map, List.getElem?_map, List.getElem?_eq_getElem hi,
        List.getElem?_eq_getElem hj, Option.map_some, Option.map_some] at heq
      have hpos := h p i p j _ _ (getDie_eq.mpr ⟨s, hp, List.getElem?_eq_getElem hi⟩)
        (getDie_eq.mpr ⟨s, hp, List.getElem?_eq_getElem hj⟩) (Option.some.inj heq)
      cases hpos
      exact Nat.lt_irrefl _ hij
    · intro p p' hp hp' hlt x hx hx'
      obtain ⟨die, hd, rfl⟩ := List.mem_map.mp hx
      obtain ⟨die', hd', hf⟩ := List.mem_map.mp hx'
      obtain ⟨d, hd⟩ := List.mem_iff_getElem?.mp hd
      obtain ⟨d', hd'⟩ := List.mem_iff_getElem?.mp hd'
      have hpos := h p d p' d' die die'
        (getDie_eq.mpr ⟨_, List.getElem?_eq_getElem hp, hd⟩)
        (getDie_eq.mpr ⟨_, List.getElem?_eq_getElem hp', hd'⟩) hf.symm
      cases hpos
      exact Nat.lt_irrefl _ hlt

end Positions

section Update

variable {σ : Type u} {f : σ → List ArchNode → σ × List ArchNode}

/-- What one step of a final loop can do: a DIE without an array is left alone, of another one the
array is read and written. -/
theorem updateDie_cases {die : DieNode} {s s' : σ} {b b' : Build}
    (h : updateDie f (s, b) die = some (s', b')) :
    (die.children = none ∧ s' = s ∧ b' = b) ∨
      ∃ a cs, die.children = some a ∧ b.heap a = some cs ∧ s' = (f s cs).1 ∧
        b' = b.writeHeap a (f s cs).2 := by
  unfold updateDie at h
  cases hptr : die.children with
  | none =>
      rw [hptr] at h
      cases h
      exact .inl ⟨rfl, rfl, rfl⟩
  | some a =>
      rw [hptr] at h
      obtain ⟨cs, hcs, heq⟩ := Option.map_eq_some_iff.mp h
      cases heq
      exact .inr ⟨a, cs, rfl, hcs, rfl, rfl⟩

/-- The final loops on DIEs that share no array. -/
theorem foldlM_updateDie {dies : List DieNode} {b : Build} (s : σ)
    (hdistinct : (dies.map DieNode.children).Nodup)
    (hlive : ∀ die ∈ dies, ∃ a cs, die.children = some a ∧ b.heap a = some cs) :
    ∃ b', dies.foldlM (updateDie f) (s, b) =
        some ((accumulate f s (dies.map b.viewBlock)).1, b') ∧
      dies.map b'.viewBlock = (accumulate f s (dies.map b.viewBlock)).2 ∧
      b'.sockets = b.sockets ∧
      (∀ a, some a ∉ dies.map DieNode.children → b'.heap a = b.heap a) ∧
      ∀ die ∈ dies, ∃ a cs, die.children = some a ∧ b'.heap a = some cs := by
  induction dies generalizing s b with
  | nil => exact ⟨b, rfl, rfl, rfl, fun _ _ => rfl, by simp⟩
  | cons die dies ih =>
      obtain ⟨a, cs, hptr, hcs⟩ := hlive die (by simp)
      rw [List.map_cons, List.nodup_cons] at hdistinct
      obtain ⟨hnot, hdistinct⟩ := hdistinct
      have hother : ∀ d ∈ dies, ∀ a', d.children = some a' → a' ≠ a := by
        rintro d hd a' hd' rfl
        exact hnot (List.mem_map.mpr ⟨d, hd, hd'.trans hptr.symm⟩)
      have hwrite : ∀ d ∈ dies,
          (b.writeHeap a (f s cs).2).viewBlock d = b.viewBlock d := by
        intro d hd
        obtain ⟨a', cs', hptr', hcs'⟩ := hlive d (by simp [hd])
        rw [(Build.loadChildren_eq_view hptr' hcs').2]
        apply (Build.loadChildren_eq_view hptr' _).2
        rw [Build.writeHeap_heap, if_neg (hother d hd a' hptr'), hcs']
      obtain ⟨b', hrun, hviews, hsockets, hframe, hlive'⟩ :=
        ih (b := b.writeHeap a (f s cs).2) (f s cs).1 hdistinct (by
          intro d hd
          obtain ⟨a', cs', hptr', hcs'⟩ := hlive d (by simp [hd])
          refine ⟨a', cs', hptr', ?_⟩
          rw [Build.writeHeap_heap, if_neg (hother d hd a' hptr'), hcs'])
      rw [List.map_congr_left hwrite] at hrun hviews
      have hview : b.viewBlock die = cs := (Build.loadChildren_eq_view hptr hcs).2
      have hself : b'.heap a = some (f s cs).2 := by
        rw [hframe a (by rw [← hptr]; exact hnot), Build.writeHeap_heap, if_pos rfl]
      have hview' : b'.viewBlock die = (f s cs).2 :=
        (Build.loadChildren_eq_view hptr hself).2
      refine ⟨b', ?_, ?_, hsockets, ?_, ?_⟩
      · rw [List.foldlM_cons, List.map_cons, hview]
        simp only [updateDie, hptr, hcs]
        exact hrun
      · rw [List.map_cons, List.map_cons, hview, hview', hviews]
        rfl
      · intro a' ha'
        rw [List.map_cons, List.mem_cons, not_or] at ha'
        rw [hframe a' ha'.2, Build.writeHeap_heap, if_neg]
        rintro rfl
        exact ha'.1 hptr.symm
      · intro d hd
        rcases List.mem_cons.mp hd with rfl | hd
        · exact ⟨a, _, hptr, hself⟩
        · exact hlive' d hd

end Update

section Renumbering

/-- The renumbering of the DIEs of a SOCKET, on their arrays. -/
theorem renumberDies_view {b b' : Build} {dies : List DieNode} {k k' : Int}
    (h : accumulate renumberDieChildren k (dies.map b.viewBlock) =
      (k', dies.map b'.viewBlock)) :
    renumberDies k (dies.map b.viewDie) = (k', dies.map b'.viewDie) := by
  induction dies generalizing k with
  | nil =>
      cases h
      rfl
  | cons die dies ih =>
      simp only [List.map_cons, accumulate, Prod.mk.injEq, List.cons.injEq] at h
      obtain ⟨hk, hhere, hrest⟩ := h
      have hlater := ih (Prod.ext hk hrest)
      have hstep : renumberDies k (b.viewDie die :: dies.map b.viewDie) =
          ((renumberDies (renumberDieChildren k (b.viewBlock die)).1 (dies.map b.viewDie)).1,
            .node .die die.id die.name (renumberDieChildren k (b.viewBlock die)).2 ::
              (renumberDies (renumberDieChildren k (b.viewBlock die)).1
                (dies.map b.viewDie)).2) := rfl
      rw [List.map_cons, hstep, hlater, hhere]
      rfl

/-- The renumbering of the SOCKETs, on the arrays of the DIEs. -/
theorem renumberSockets_view {b b' : Build} {sockets : List SocketNode} {k k' : Int}
    (h : accumulate renumberDieChildren k ((sockets.flatMap SocketNode.children).map b.viewBlock) =
      (k', (sockets.flatMap SocketNode.children).map b'.viewBlock)) :
    renumberSockets k (sockets.map b.viewSocket) = (k', sockets.map b'.viewSocket) := by
  induction sockets generalizing k with
  | nil =>
      cases h
      rfl
  | cons socket sockets ih =>
      rw [List.flatMap_cons, List.map_append, List.map_append, accumulate_append] at h
      simp only [Prod.mk.injEq] at h
      obtain ⟨hk, happend⟩ := h
      obtain ⟨hhere, hrest⟩ := List.append_inj happend (by rw [accumulate_length]; simp)
      have hdies : renumberDies k (socket.children.map b.viewDie) =
          (_, socket.children.map b'.viewDie) := renumberDies_view (Prod.ext rfl hhere)
      have hlater := ih (Prod.ext hk hrest)
      have hstep : renumberSockets k (b.viewSocket socket :: sockets.map b.viewSocket) =
          ((renumberSockets (renumberDies k (socket.children.map b.viewDie)).1
              (sockets.map b.viewSocket)).1,
            .node .socket socket.id socket.name
                (renumberDies k (socket.children.map b.viewDie)).2 ::
              (renumberSockets (renumberDies k (socket.children.map b.viewDie)).1
                (sockets.map b.viewSocket)).2) := by
        rw [renumberSockets, if_neg (by simp [Build.viewSocket])]
        rfl
      rw [List.map_cons, hstep, hdies, hlater]
      rfl

end Renumbering

section Finish

namespace Build

theorem dies_sortUpper (b : Build) : b.sortUpper.dies.Perm b.dies := by
  unfold dies sortUpper
  rw [List.flatMap_map]
  refine List.Perm.trans ?_ ((BubbleSort.bubbleSort_perm SocketNode.id b.sockets).flatMap_right _)
  exact List.Perm.flatMap_left _ fun s _ => BubbleSort.bubbleSort_perm _ _

theorem Separated.sortUpper {b : Build} (h : b.Separated) : b.sortUpper.Separated := by
  refine ⟨?_, fun die hd => h.live die ((dies_sortUpper b).mem_iff.mp hd)⟩
  exact ((dies_sortUpper b).map _).nodup_iff.mpr h.distinct

/-- Sorting the upper arrays of the build is sorting them in the tree. -/
theorem viewSocket_sortUpper (b c : Build) :
    b.sortUpper.sockets.map c.viewSocket =
      BubbleSort.bubbleSort ArchNode.id (b.sockets.map fun socket =>
        .node .socket socket.id socket.name
          (BubbleSort.bubbleSort ArchNode.id (socket.children.map c.viewDie))) := by
  have hdies : ∀ dies : List DieNode, BubbleSort.bubbleSort ArchNode.id (dies.map c.viewDie) =
      (BubbleSort.bubbleSort DieNode.id dies).map c.viewDie :=
    BubbleSort.bubbleSort_map fun _ => rfl
  let sorted : SocketNode → ArchNode := fun socket => .node .socket socket.id socket.name
    ((BubbleSort.bubbleSort DieNode.id socket.children).map c.viewDie)
  have hsockets : BubbleSort.bubbleSort ArchNode.id (b.sockets.map sorted) =
      (BubbleSort.bubbleSort SocketNode.id b.sockets).map sorted :=
    BubbleSort.bubbleSort_map (fun _ => rfl) b.sockets
  simp only [hdies]
  rw [hsockets]
  unfold sortUpper
  rw [List.map_map]
  rfl

/-- **Finishing a build whose DIEs share no array is finishing its tree.** -/
theorem Separated.finish {b : Build} (h : b.Separated) (hostname : Option String) :
    ∃ b', b.finish = some b' ∧
      b'.tree hostname = some (ArchNode.finish (b.viewTree hostname)) := by
  have hup := h.sortUpper
  obtain ⟨b₁, hsort, hviews₁, hsockets₁, _, hlive₁⟩ :=
    foldlM_updateDie (f := sortStep) () hup.distinct hup.live
  obtain ⟨b₂, hnumber, hviews₂, hsockets₂, _, hlive₂⟩ :=
    foldlM_updateDie (f := renumberDieChildren) (0 : Int) hup.distinct hlive₁
  have hdies₁ : b₁.dies = b.sortUpper.dies := by
    unfold dies
    rw [hsockets₁]
  have hdies₂ : b₂.dies = b.sortUpper.dies := by
    unfold dies
    rw [hsockets₂, hsockets₁]
  refine ⟨b₂, ?_, ?_⟩
  · unfold Build.finish
    simp only
    rw [foldlM_sortDie, hsort]
    simp only [Option.map_some, hdies₁]
    rw [renumberDie_eq, hnumber]
    rfl
  · have hblock : ∀ die ∈ b.dies, sortChildrenRecursive (b.viewDie die) = b₁.viewDie die := by
      intro die hd
      rw [accumulate_sortStep, List.map_map] at hviews₁
      have hview : b₁.viewBlock die = sortBlock (b.viewBlock die) :=
        List.map_inj_left.mp hviews₁ die ((dies_sortUpper b).mem_iff.mpr hd)
      rw [viewDie, sortChildrenRecursive_node, viewDie, hview]
    have hsorted : sortChildrenRecursive (b.viewTree hostname) =
        .node .system 0 hostname (b.sortUpper.sockets.map b₁.viewSocket) := by
      rw [viewTree, sortChildrenRecursive, sortAll_eq_map, viewSocket_sortUpper, List.map_map]
      congr 2
      apply List.map_congr_left
      intro s hs
      rw [Function.comp, viewSocket, sortChildrenRecursive, sortAll_eq_map, List.map_map]
      congr 2
      apply List.map_congr_left
      exact fun die hd => hblock die (mem_dies hs hd)
    have hnumbered : renumberSockets 0 (b.sortUpper.sockets.map b₁.viewSocket) =
        (_, b.sortUpper.sockets.map b₂.viewSocket) :=
      renumberSockets_view (Prod.ext rfl hviews₂.symm)
    rw [tree_eq_view (by rw [hdies₂]; exact hlive₂), ArchNode.finish, renumber, hsorted,
      children_node, hnumbered, viewTree, hsockets₂, hsockets₁]
    rfl

end Build

end Finish

end ParseArchitecture
end X86Energy
