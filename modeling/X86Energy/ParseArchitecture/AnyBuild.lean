import X86Energy.ParseArchitecture.CoreNumbers
import X86Energy.ParseArchitecture.Spanning

/-!
# What every build has in common

Files that cannot be read and memory that is refused leave nodes out of a tree, and a
NUMA node in two packages gives DIEs that share an array.  But whatever happens, each
array of the heap was made by `placeCpu` and by the final loops, so what these keep
holds of all arrays (`Arrays`), and every tree that is returned is formed.
-/

namespace X86Energy
namespace ParseArchitecture

open CInt ArchNode

universe u

section Placing

variable {S : Snapshot} {mem : InsertSite → Bool} {Q : ArchNode → Prop}

/-- A property that a new CORE has and that another THREAD does not take away. -/
structure Grows (Q : ArchNode → Prop) : Prop where
  core : ∀ id name, Q (.node .core id name [])
  thread : ∀ c id name, Q c → Q (c.setChildren (c.children ++ [.node .thread id name []]))

/-- The outcomes of `insert_new_child`. -/
theorem insertNewChild_cases {granted : Bool} {children children' : List ArchNode}
    {g : Granularity} {id : Int} {name : String}
    (h : insertNewChild granted children g id name = some children') :
    granted = true ∧ children' = children ++ [.node g (toInt32 id) (some name) []] := by
  unfold insertNewChild at h
  split at h
  · rename_i hgranted
    cases h
    exact ⟨hgranted, rfl⟩
  · cases h

theorem Grows.addThread (hQ : Grows Q) {j k : Nat} {children : List ArchNode} {cpu : Int}
    (h : ∀ c ∈ children, Q c) : ∀ c ∈ (addThread mem j k children cpu).2, Q c := by
  unfold ParseArchitecture.addThread
  cases hk : children[k]? with
  | none => exact h
  | some found =>
      simp only
      cases findChild (found.children.map ArchNode.id) cpu with
      | some _ => exact h
      | none =>
          simp only
          split
          · exact h
          · rename_i threads hinsert
            obtain ⟨_, rfl⟩ := insertNewChild_cases hinsert
            intro c hc
            rcases List.mem_or_eq_of_mem_set hc with hc | rfl
            · exact h c hc
            · exact hQ.thread found _ _ (h found (List.mem_of_getElem? hk))

theorem Grows.addCpuAndCoreToNode (hQ : Grows Q) {j : Nat} {children : List ArchNode} {cpu : Int}
    (h : ∀ c ∈ children, Q c) : ∀ c ∈ (addCpuAndCoreToNode S mem j children cpu).2, Q c := by
  unfold ParseArchitecture.addCpuAndCoreToNode
  split
  · exact h
  · split
    · exact hQ.addThread h
    · split
      · exact h
      · rename_i children' hinsert
        obtain ⟨_, rfl⟩ := insertNewChild_cases hinsert
        refine hQ.addThread fun c hc => ?_
        rcases List.mem_append.mp hc with hc | hc
        · exact h c hc
        · rw [List.mem_singleton.mp hc]
          exact hQ.core _ _

theorem Grows.addGroup (hQ : Grows Q) (cpus : List Int) :
    ∀ {j : Nat} {children : List ArchNode}, (∀ c ∈ children, Q c) →
      ∀ c ∈ addGroup S mem j cpus children, Q c := by
  induction cpus with
  | nil => exact fun h => h
  | cons cpu cpus ih => exact fun h => ih (hQ.addCpuAndCoreToNode h)

theorem coreShape_grows : Grows CoreShape where
  core id name := ⟨rfl, fun c hc => absurd hc List.not_mem_nil⟩
  thread c id name h := by
    refine ⟨by rw [granularity_setChildren, h.1], fun x hx => ?_⟩
    rw [children_setChildren, List.mem_append, List.mem_singleton] at hx
    rcases hx with hx | rfl
    · exact h.2 x hx
    · exact ⟨rfl, rfl⟩

theorem mixedLayer_grows : Grows fun c => c.MixedShape ∨ c.CoreShape where
  core id name := .inr (coreShape_grows.core id name)
  thread c id name h := by
    refine h.imp (fun h => ?_) (coreShape_grows.thread c id name)
    refine ⟨by rw [granularity_setChildren, h.1], fun x hx => ?_⟩
    rw [children_setChildren, List.mem_append, List.mem_singleton] at hx
    rcases hx with hx | rfl
    · exact h.2 x hx
    · exact .inr ⟨rfl, rfl⟩

/-- What `placeCpu` makes of the children of a DIE: one call of
`add_cpu_and_core_to_node`, or a MODULE that is filled by the calls for a group. -/
theorem placeCpu_cases {children children' : List ArchNode} {cpu : Int} {l2 l1 : List Int}
    (h : placeCpu S mem children cpu l2 l1 = some children') :
    (l1.length < l2.length ∧ mem .module = true ∧
      children' = children ++ [moduleNode children.length (addGroup S mem 0 l2 [])]) ∨
    (¬ l1.length < l2.length ∧ children' = (addCpuAndCoreToNode S mem 0 children cpu).2) := by
  unfold placeCpu at h
  split at h
  · rename_i hlen
    split at h
    · cases h
    · rename_i inserted hinsert
      obtain ⟨hgranted, rfl⟩ := insertNewChild_cases hinsert
      cases h
      refine .inl ⟨hlen, hgranted, ?_⟩
      rw [modify_last]
      rfl
  · rename_i hlen
    cases h
    exact .inr ⟨hlen, rfl⟩

theorem placeCpu_mixedLayer {children children' : List ArchNode} {cpu : Int} {l2 l1 : List Int}
    (hlayer : MixedLayer children) (h : placeCpu S mem children cpu l2 l1 = some children') :
    MixedLayer children' := by
  rcases placeCpu_cases h with ⟨_, _, rfl⟩ | ⟨_, rfl⟩
  · intro c hc
    rcases List.mem_append.mp hc with hc | hc
    · exact hlayer c hc
    · rw [List.mem_singleton.mp hc]
      exact .inl ⟨rfl, fun x hx => .inl (coreShape_grows.addGroup l2 (by simp) x hx)⟩
  · exact mixedLayer_grows.addCpuAndCoreToNode hlayer

end Placing

section Rounds

variable {S : Snapshot} {mem : InsertSite → Bool}

/-- Every array of the heap has the property. -/
def Build.Arrays (P : List ArchNode → Prop) (b : Build) : Prop :=
  ∀ a cs, b.heap a = some cs → P cs

theorem Build.arrays_empty (P : List ArchNode → Prop) : Build.empty.Arrays P :=
  fun _ _ h => nomatch h

theorem Build.Arrays.loadChildren {P : List ArchNode → Prop} {b : Build} (h : b.Arrays P)
    (hnil : P []) {die : DieNode} {cs : List ArchNode} (hload : b.loadChildren die = some cs) :
    P cs := by
  unfold Build.loadChildren at hload
  split at hload
  · cases hload
    exact hnil
  · exact h _ _ hload

theorem Build.Arrays.writeHeap {P : List ArchNode → Prop} {b : Build} (h : b.Arrays P) (a : Addr)
    {cs : List ArchNode} (hcs : P cs) : (b.writeHeap a cs).Arrays P := by
  intro a' cs' hget
  rw [Build.writeHeap_heap] at hget
  split at hget
  · cases hget
    exact hcs
  · exact h a' cs' hget

theorem NodeLoop.assign_heap (st : NodeLoop) (die : DieNode) :
    (st.assign die).build.heap = st.build.heap := by
  unfold NodeLoop.assign
  cases st.node <;> rfl

/-- `add_package` does one thing if it succeeds, whether or not it asks for memory. -/
theorem addPackage_eq_open {granted : Bool} {b : Build} {packageId : Int} {r : Build × Nat}
    (h : addPackage granted b packageId = some r) : r = openPackage b packageId := by
  unfold addPackage at h
  unfold openPackage
  cases hfind : findChild (b.sockets.map SocketNode.id) packageId with
  | some p =>
      rw [hfind] at h
      exact (Option.some.inj h).symm
  | none =>
      rw [hfind] at h
      simp only at h
      split at h
      · exact (Option.some.inj h).symm
      · cases h

/-- And so does `add_node_to_package`. -/
theorem addNodeToPackage_eq_open {granted : Bool} {st st' : NodeLoop} {p : Nat}
    (h : addNodeToPackage granted st p = some st') : st' = openDie st p := by
  unfold addNodeToPackage at h
  unfold openDie
  cases hp : st.build.sockets[p]? with
  | none =>
      rw [hp] at h
      cases h
  | some package =>
      rw [hp] at h
      simp only at h ⊢
      cases hfind : findChild (package.children.map DieNode.id) st.deref.id with
      | some d =>
          rw [hfind] at h
          exact (Option.some.inj h).symm
      | none =>
          rw [hfind] at h
          simp only at h
          split at h
          · exact (Option.some.inj h).symm
          · cases h

/-- The first half of a round that does not find the CPU. -/
theorem locateDie_cases {st st₁ : NodeLoop} {cpu : Int}
    (h : locateDie S mem st cpu = .ok (some st₁)) :
    S.readLong (.physicalPackageId cpu) = some (S.packageOf cpu) ∧
      st₁ = openDie (st.openPackage (S.packageOf cpu)) (openPackage st.build (S.packageOf cpu)).2 ∧
      ∃ present, st.build.loadChildren st.deref = some present ∧
        ArchNode.findCpuAny (toInt32 cpu) present = false := by
  unfold locateDie at h
  split at h
  · cases h
  · rename_i present hpresent
    split at h
    · cases h
    · rename_i hfind
      split at h
      · cases h
      · rename_i packageId hread
        split at h
        · cases h
        · rename_i build p hpackage
          split at h
          · cases h
          · rename_i st' hdie
            cases h
            have hid : S.packageOf cpu = packageId := by rw [Snapshot.packageOf, hread]; rfl
            have hopen := addPackage_eq_open hpackage
            rw [hid]
            refine ⟨hread, ?_, present, hpresent, by simpa using hfind⟩
            rw [addNodeToPackage_eq_open hdie, NodeLoop.openPackage, ← hopen]

/-- A round that finds the CPU. -/
theorem locateDie_found {st : NodeLoop} {cpu : Int} (h : locateDie S mem st cpu = .ok none) :
    ∃ present, st.build.loadChildren st.deref = some present ∧
      ArchNode.findCpuAny (toInt32 cpu) present = true := by
  unfold locateDie at h
  split at h
  · cases h
  · rename_i present hpresent
    split at h
    · rename_i hfind
      exact ⟨present, hpresent, hfind⟩
    · split at h
      · cases h
      · split at h
        · cases h
        · split at h
          · cases h
          · cases h

theorem openDie_heap (st : NodeLoop) (p : Nat) :
    (openDie st p).build.heap = st.build.heap := by
  unfold openDie
  split
  · rfl
  · split
    · rfl
    · exact st.assign_heap _

/-- Looking for the DIE changes no array. -/
theorem locateDie_heap {st st₁ : NodeLoop} {cpu : Int}
    (h : locateDie S mem st cpu = .ok (some st₁)) : st₁.build.heap = st.build.heap := by
  obtain ⟨_, rfl, _⟩ := locateDie_cases h
  rw [openDie_heap, NodeLoop.openPackage, openPackage_heap]

/-- A round that does not find the CPU makes `node` point to a DIE of its package. -/
theorem locateDie_located {st st₁ : NodeLoop} (hok : st.Ok) {cpu : Int}
    (h : locateDie S mem st cpu = .ok (some st₁)) :
    ∃ d ptr, Located (st.openPackage (S.packageOf cpu)) st₁
      (openPackage st.build (S.packageOf cpu)).2 d ptr := by
  obtain ⟨_, rfl, _⟩ := locateDie_cases h
  exact openDie_located (hok.openPackage _) (openPackage_lt _ _)

/-- **The outcomes of a round** that ends: it finds the CPU, or it stores what `placeCpu`
makes of the children of the DIE. -/
theorem processCpu_cases {st st' : NodeLoop} {cpu : Int}
    (h : processCpu S mem st cpu = .ok st') :
    (locateDie S mem st cpu = .ok none ∧ st' = st) ∨
    ∃ st₁ children children', locateDie S mem st cpu = .ok (some st₁) ∧
      S.readLongList (.sharedCpuList 2 cpu) = some (S.sharedL2 cpu) ∧
      S.readLongList (.sharedCpuList 1 cpu) = some (S.sharedL1 cpu) ∧
      st₁.build.loadChildren st₁.deref = some children ∧
      placeCpu S mem children cpu (S.sharedL2 cpu) (S.sharedL1 cpu) = some children' ∧
      st' = st₁.storeChildren children children' := by
  unfold processCpu at h
  split at h
  · cases h
  · rename_i hlocate
    cases h
    exact .inl ⟨hlocate, rfl⟩
  · rename_i st₁ hlocate
    split at h
    · rename_i l2 l1 hl2 hl1
      have hshared2 : S.sharedL2 cpu = l2 := by rw [Snapshot.sharedL2, hl2]; rfl
      have hshared1 : S.sharedL1 cpu = l1 := by rw [Snapshot.sharedL1, hl1]; rfl
      split at h
      · cases h
      · rename_i children hload
        split at h
        · cases h
        · rename_i children' hplace
          cases h
          rw [hshared2, hshared1]
          exact .inr ⟨st₁, children, children', hlocate, hl2, hl1, hload, hplace, rfl⟩
    · cases h

theorem NodeLoop.storeChildren_arrays {P : List ArchNode → Prop} {st : NodeLoop}
    (h : st.build.Arrays P) (old : List ArchNode) {new : List ArchNode} (hnew : P new) :
    (st.storeChildren old new).build.Arrays P := by
  unfold NodeLoop.storeChildren
  split
  · split
    · exact h
    · exact h.writeHeap _ hnew
  · intro a cs hget
    rw [NodeLoop.assign_heap, Build.moveHeap_heap] at hget
    split at hget
    · cases hget
      exact hnew
    · split at hget
      · cases hget
      · exact h a cs hget

/-- **A round keeps what its `placeCpu` keeps.** -/
theorem processCpu_arrays {P : List ArchNode → Prop} (hnil : P []) {st st' : NodeLoop}
    {cpu : Int}
    (hplace : ∀ st₁ children children', locateDie S mem st cpu = .ok (some st₁) →
      st₁.build.loadChildren st₁.deref = some children → P children →
      placeCpu S mem children cpu (S.sharedL2 cpu) (S.sharedL1 cpu) = some children' → P children')
    (h : st.build.Arrays P) (hstep : processCpu S mem st cpu = .ok st') :
    st'.build.Arrays P := by
  rcases processCpu_cases hstep with ⟨_, rfl⟩ | ⟨st₁, children, children', hlocate, _, _, hload,
    hchildren, rfl⟩
  · exact h
  · have harrays : st₁.build.Arrays P := by
      intro a cs hget
      rw [locateDie_heap hlocate] at hget
      exact h a cs hget
    exact NodeLoop.storeChildren_arrays harrays children
      (hplace _ _ _ hlocate hload (harrays.loadChildren hnil hload) hchildren)

theorem processNode_arrays {P : List ArchNode → Prop} (hnil : P [])
    (hplace : ∀ mem children children' cpu l2 l1, P children →
      placeCpu S mem children cpu l2 l1 = some children' → P children')
    {b b' : Build} {node : DieNode × Nat} (h : b.Arrays P)
    (hstep : processNode S b node = .ok b') : b'.Arrays P := by
  obtain ⟨_, st, hrun, rfl⟩ := processNode_ok hstep
  exact Transition.run_invariant (I := fun st : NodeLoop => st.build.Arrays P)
    (fun s round _ s' hinv hround => processCpu_arrays hnil
      (fun _ children children' _ _ => hplace _ children children' _ _ _) hinv hround) h hrun

theorem processNodes_arrays {P : List ArchNode → Prop} (hnil : P [])
    (hplace : ∀ mem children children' cpu l2 l1, P children →
      placeCpu S mem children cpu l2 l1 = some children' → P children')
    {b : Build} (h : processNodes S = .ok b) : b.Arrays P :=
  Transition.run_invariant (I := Build.Arrays P)
    (fun _ _ _ _ hinv hstep => processNode_arrays hnil hplace hinv hstep)
    (Build.arrays_empty P) h

end Rounds

section Finish

theorem foldlM_updateDie_arrays {σ : Type u} {f : σ → List ArchNode → σ × List ArchNode}
    {P : List ArchNode → Prop} (hP : ∀ s cs, P cs → P (f s cs).2) {dies : List DieNode} :
    ∀ {s s' : σ} {b b' : Build}, b.Arrays P →
      dies.foldlM (updateDie f) (s, b) = some (s', b') → b'.Arrays P := by
  induction dies with
  | nil =>
      intro s s' b b' h hrun
      cases hrun
      exact h
  | cons die dies ih =>
      intro s s' b b' h hrun
      rw [List.foldlM_cons] at hrun
      obtain ⟨⟨s₁, b₁⟩, hstep, hlater⟩ := Option.bind_eq_some_iff.mp hrun
      refine ih ?_ hlater
      rcases updateDie_cases hstep with ⟨-, rfl, rfl⟩ | ⟨a, cs, -, hcs, rfl, rfl⟩
      · exact h
      · exact h.writeHeap _ (hP s cs (h _ _ hcs))

theorem finish_arrays {P : List ArchNode → Prop} (hsort : ∀ cs, P cs → P (sortBlock cs))
    (hnumber : ∀ k cs, P cs → P (renumberDieChildren k cs).2) {b b' : Build} (h : b.Arrays P)
    (hfinish : b.finish = some b') : b'.Arrays P := by
  obtain ⟨b₁, k, hsorted, hnumbered⟩ := Build.finish_loops hfinish
  have hup : b.sortUpper.Arrays P := h
  exact foldlM_updateDie_arrays hnumber
    (foldlM_updateDie_arrays (fun _ cs => hsort cs) hup hsorted) hnumbered

theorem CoreShape.sort {t : ArchNode} (h : t.CoreShape) :
    (sortChildrenRecursive t).CoreShape := by
  refine ⟨by rw [granularity_sortChildrenRecursive, h.1], fun c hc => ?_⟩
  rw [children_sortChildrenRecursive] at hc
  obtain ⟨c', hc', rfl⟩ := mem_sortBlock.mp hc
  exact (h.2 c' hc').sort

theorem MixedShape.sort {t : ArchNode} (h : t.MixedShape) :
    (sortChildrenRecursive t).MixedShape := by
  refine ⟨by rw [granularity_sortChildrenRecursive, h.1], ?_⟩
  rw [children_sortChildrenRecursive]
  exact sortBlock_layer (M := CoreShape) (C := IsThread) (fun _ => CoreShape.sort)
    (fun _ => IsThread.sort) h.2

theorem sortBlock_mixedLayer {cs : List ArchNode} (h : MixedLayer cs) :
    MixedLayer (sortBlock cs) :=
  sortBlock_layer (M := MixedShape) (C := CoreShape) (fun _ => MixedShape.sort)
    (fun _ => CoreShape.sort) h

theorem setId_coreShape {t : ArchNode} (h : t.CoreShape) (i : Int) : (t.setId i).CoreShape :=
  ⟨by rw [granularity_setId, h.1], by rw [children_setId]; exact h.2⟩

theorem renumberCores_mixedChildren (k : Int) {cs : List ArchNode}
    (h : ∀ c ∈ cs, c.CoreShape ∨ c.IsThread) :
    ∀ c ∈ (renumberCores k cs).2, c.CoreShape ∨ c.IsThread := by
  induction cs generalizing k with
  | nil => exact fun c hc => absurd hc List.not_mem_nil
  | cons c cs ih =>
      intro x hx
      rcases List.mem_cons.mp hx with rfl | hx
      · refine (h c (by simp)).imp (fun hc => setId_coreShape hc k) fun hc => ?_
        exact ⟨by rw [granularity_setId, hc.1], by rw [children_setId, hc.2]⟩
      · exact ih (k + 1) (fun y hy => h y (by simp [hy])) x hx

theorem renumberDieChildren_mixedLayer (k : Int) {cs : List ArchNode} (h : MixedLayer cs) :
    MixedLayer (renumberDieChildren k cs).2 := by
  refine renumberDieChildren_layer (M := MixedShape) (C := CoreShape) (fun c hc => ?_)
    (fun c hc => hc.1) (fun c k hc => ?_) (fun c k hc => setId_coreShape hc k) k h
  · rw [hc.1]
    decide
  · refine ⟨by rw [granularity_setChildren, hc.1], ?_⟩
    rw [children_setChildren]
    exact renumberCores_mixedChildren k hc.2

/-- The tree of a build, array by array. -/
theorem Build.tree_cases {b : Build} {hostname : Option String} {t : ArchNode}
    (h : b.tree hostname = some t) :
    t.granularity = .system ∧ ∀ s ∈ t.children, s.granularity = .socket ∧
      ∀ d ∈ s.children, d.granularity = .die ∧
        ∃ die ∈ b.dies, b.loadChildren die = some d.children := by
  obtain ⟨sockets, hsockets, rfl⟩ := Option.map_eq_some_iff.mp h
  refine ⟨rfl, fun s hs => ?_⟩
  obtain ⟨socket, hsocket, hstree⟩ := Partial.exists_of_mem_mapM hsockets hs
  obtain ⟨dies, hdies, rfl⟩ := Option.map_eq_some_iff.mp hstree
  refine ⟨rfl, fun d hd => ?_⟩
  obtain ⟨die, hdie, hdtree⟩ := Partial.exists_of_mem_mapM hdies hd
  obtain ⟨cs, hcs, rfl⟩ := Option.map_eq_some_iff.mp hdtree
  exact ⟨rfl, die, Build.mem_dies hsocket hdie, hcs⟩

/-- **Every tree is formed**, whatever files could be read and whatever memory was
granted. -/
theorem formed_of_init {S : Snapshot} {t : ArchNode} (h : initArchitectureNodes S = .ok t) :
    t.Formed := by
  obtain ⟨hostname, b, b', hrun, hfinish, htree⟩ := initArchitectureNodes_ok h
  have hnil : MixedLayer [] := fun c hc => absurd hc List.not_mem_nil
  have harrays := finish_arrays (P := MixedLayer) (fun _ => sortBlock_mixedLayer)
    (fun k _ => renumberDieChildren_mixedLayer k)
    (processNodes_arrays hnil (fun _ _ _ _ _ _ => placeCpu_mixedLayer) hrun) hfinish
  obtain ⟨hsystem, hsockets⟩ := Build.tree_cases htree
  refine ⟨hsystem, fun s hs => ⟨(hsockets s hs).1, fun d hd => ?_⟩⟩
  obtain ⟨hdie, die, _, hload⟩ := (hsockets s hs).2 d hd
  exact ⟨hdie, harrays.loadChildren hnil hload⟩

end Finish

end ParseArchitecture
end X86Energy
