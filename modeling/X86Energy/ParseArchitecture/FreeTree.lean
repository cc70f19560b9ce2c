import X86Energy.Library.Ownership
import X86Energy.ParseArchitecture.Spanning

/-!
# Freeing the tree

`x86_energy_free_architecture_nodes` walks over the tree and frees the array and the name of
every node behind the subtrees below it.  Only the arrays of the DIEs can be reached through two
structures (see `ProcessNode`), so these are the ones that the heap of a `Build` holds and that
are freed here; the arrays above and below them and the names are not modelled.

**Results.**
* `processNodes_backed`: a build holds no array that has no DIE;
* `initThenFree_iff`: on which machines the tree that was returned can be freed, and
  that nothing is left then.
-/

namespace X86Energy
namespace ParseArchitecture

open Ownership

/-- The addresses of the arrays, DIE by DIE. -/
def Build.arrays (b : Build) : List Addr := b.dies.filterMap DieNode.children

/-- `x86_energy_free_architecture_nodes` on a DIE: its children are visited and their array is
freed, which is undefined if it was freed before. -/
def freeDie (heap : Addr → Option (List ArchNode)) (die : DieNode) :
    Option (Addr → Option (List ArchNode)) :=
  match die.children with
  | none => some heap
  | some a => free heap a

/-- `x86_energy_free_architecture_nodes` on the SYSTEM node, as far as it frees the arrays of the
DIEs; the result is what is left. -/
def freeArchitectureNodes (b : Build) : Option (Addr → Option (List ArchNode)) :=
  b.dies.foldlM freeDie b.heap

/-- A client that gets the tree and frees it. -/
def initThenFree (S : Snapshot) : Except BuildStop (Addr → Option (List ArchNode)) :=
  match S.hostname with
  | none => .error .failed
  | some _ =>
      match processNodes S with
      | .error e => .error e
      | .ok b =>
          match b.finish with
          | none => .error .undefined
          | some b =>
              match freeArchitectureNodes b with
              | none => .error .undefined
              | some heap => .ok heap

theorem freeArchitectureNodes_eq (b : Build) :
    freeArchitectureNodes b = b.arrays.foldlM free b.heap := by
  unfold freeArchitectureNodes Build.arrays
  induction b.dies generalizing b with
  | nil => rfl
  | cons die dies ih =>
      cases hptr : die.children with
      | none =>
          have hstep : freeDie b.heap die = some b.heap := by rw [freeDie, hptr]
          rw [List.foldlM_cons, hstep, List.filterMap_cons_none hptr]
          exact ih b
      | some a =>
          have hstep : freeDie b.heap die = free b.heap a := by rw [freeDie, hptr]
          rw [List.foldlM_cons, hstep, List.filterMap_cons_some hptr, List.foldlM_cons]
          cases free b.heap a with
          | none => rfl
          | some heap => exact ih { b with heap := heap }

theorem Build.mem_arrays {b : Build} {a : Addr} :
    a ∈ b.arrays ↔ ∃ p d, b.addrAt p d = some (some a) := by
  rw [arrays, List.mem_filterMap]
  constructor
  · rintro ⟨die, hdie, ha⟩
    obtain ⟨socket, hs, hd⟩ := List.mem_flatMap.mp hdie
    obtain ⟨p, d, haddr⟩ := Build.addrAt_of_mem hs hd
    exact ⟨p, d, by rw [haddr, ha]⟩
  · rintro ⟨p, d, haddr⟩
    obtain ⟨die, hdie, ha⟩ := Option.map_eq_some_iff.mp haddr
    obtain ⟨socket, hs, hd⟩ := Build.getDie_eq.mp hdie
    exact ⟨die, Build.mem_dies (List.mem_of_getElem? hs) (List.mem_of_getElem? hd), ha⟩

section Backed

/-- Every array is that of a DIE. -/
def Build.Backed (b : Build) : Prop := ∀ a, b.heap a ≠ none → a ∈ b.arrays

theorem Build.Backed.empty : Build.empty.Backed := fun _ h => absurd rfl h

variable {S : Snapshot} {st st' : NodeLoop}

/-- A round leaves no array without a DIE. -/
theorem Round.backed {p d : Nat} {ptr : Option Addr} {children children' : List ArchNode}
    (h : Round st st' p d ptr children children') (hb : st.build.Backed) : st'.build.Backed := by
  -- an array that is not touched keeps its DIE
  have hother : ∀ a, ptr ≠ some a → st.build.heap a ≠ none → a ∈ st'.build.arrays := by
    intro a hptr hheap
    obtain ⟨p', d', haddr⟩ := Build.mem_arrays.mp (hb a hheap)
    have hpos : (p', d') ≠ (p, d) := by
      intro hpos
      cases hpos
      rcases h.source with ⟨_, hsource⟩ | ⟨_, hsource, _⟩
      · rw [hsource] at haddr
        exact hptr (Option.some.inj haddr)
      · rw [hsource] at haddr
        cases haddr
    exact Build.mem_arrays.mpr ⟨p', d', by rw [h.elsewhere p' d' hpos, haddr]⟩
  intro a hheap
  rw [h.heap a] at hheap
  have hcursor := h.cursor
  unfold storedHeap at hheap
  unfold storedAddr at hcursor
  by_cases hlen : children'.length = children.length
  · rw [if_pos hlen] at hheap hcursor
    by_cases hptr : ptr = some a
    · exact Build.mem_arrays.mpr ⟨p, d, by rw [hcursor, hptr]⟩
    · rw [if_neg hptr] at hheap
      exact hother a hptr hheap
  · rw [if_neg hlen] at hheap hcursor
    by_cases hnext : a = st.build.next
    · exact Build.mem_arrays.mpr ⟨p, d, by rw [hcursor, hnext]⟩
    · rw [if_neg hnext] at hheap
      by_cases hptr : ptr = some a
      · rw [if_pos hptr] at hheap
        exact absurd rfl hheap
      · rw [if_neg hptr] at hheap
        exact hother a hptr hheap

variable (hS : S.Readable)
include hS

theorem processCpu_backed {i k : Nat} {cpu : Int} (hok : st.Ok) (hb : st.build.Backed)
    (hread : S.CpuReadable cpu) (hstep : processCpu S (S.memory i k) st cpu = .ok st') :
    st'.Ok ∧ st'.build.Backed := by
  rcases processCpu_granted (hS.memory i k) hok hread with ⟨_, _, _, hstop⟩ |
    ⟨_, _, ⟨_, hstay⟩ | ⟨_, st₂, d, ptr, children, hplace, _, hround⟩⟩
  · rw [hstop] at hstep
    cases hstep
  · rw [hstay] at hstep
    cases hstep
    exact ⟨hok, hb⟩
  · rw [hplace] at hstep
    cases hstep
    exact ⟨hround.ok, hround.backed hb⟩

theorem processNode_backed {b b' : Build} (hb : b.Backed) {node : DieNode × Nat}
    (hnode : node.1 ∈ getNodes S.nodeDir) (hstep : processNode S b node = .ok b') :
    b'.Backed := by
  obtain ⟨_, st, hrun, rfl⟩ := processNode_ok hstep
  exact (Transition.run_invariant (I := fun u : NodeLoop => u.Ok ∧ u.build.Backed)
    (fun _ _ hround _ hinv h =>
      processCpu_backed hS hinv.1 hinv.2 (cpuReadable_of_mem_zipIdx hS hnode hround) h)
    ⟨nodeLoop_ok hnode b, hb⟩ hrun).2

/-- **No array is lost** while the tree is built. -/
theorem processNodes_backed {b : Build} (hrun : processNodes S = .ok b) : b.Backed :=
  Transition.run_invariant
    (fun _ _ hnode _ hb h => processNode_backed hS hb (List.fst_mem_of_mem_zipIdx hnode) h)
    Build.Backed.empty hrun

end Backed

section Finish

universe u

/-- The final loops allocate nothing. -/
theorem foldlM_updateDie_allocated {σ : Type u} {f : σ → List ArchNode → σ × List ArchNode}
    {dies : List DieNode} {a : Addr} : ∀ {s s' : σ} {b b' : Build},
      dies.foldlM (updateDie f) (s, b) = some (s', b') → b'.heap a ≠ none → b.heap a ≠ none := by
  induction dies with
  | nil =>
      intro s s' b b' h ha
      cases h
      exact ha
  | cons die dies ih =>
      intro s s' b b' h ha
      rw [List.foldlM_cons] at h
      obtain ⟨⟨s₁, b₁⟩, hstep, hlater⟩ := Option.bind_eq_some_iff.mp h
      have ha₁ := ih hlater ha
      rcases updateDie_cases hstep with ⟨_, _, rfl⟩ | ⟨a₀, cs₀, _, hcs₀, _, rfl⟩
      · exact ha₁
      · rw [Build.writeHeap_heap] at ha₁
        by_cases haa : a = a₀
        · rw [haa, hcs₀]
          exact Option.some_ne_none cs₀
        · rwa [if_neg haa] at ha₁

/-- The finished build has the arrays of the build, all of them allocated. -/
theorem Build.finish_arrays {b b' : Build} (h : b.finish = some b') :
    b'.arrays.Perm b.arrays ∧ (∀ a ∈ b'.arrays, b'.heap a ≠ none) ∧
      ∀ a, b'.heap a ≠ none → b.heap a ≠ none := by
  obtain ⟨hsockets, hkeep, hlive⟩ :=
    Build.finish_some (P := fun _ => True) (fun _ _ => trivial) (fun _ _ _ => trivial) h
  have hperm : b'.arrays.Perm b.arrays := by
    rw [arrays, dies, hsockets]
    exact (Build.dies_sortUpper b).filterMap _
  refine ⟨hperm, fun a ha => ?_, fun a ha => ?_⟩
  · obtain ⟨die, hd, hptr⟩ := List.mem_filterMap.mp (hperm.mem_iff.mp ha)
    obtain ⟨cs, hcs⟩ := Option.ne_none_iff_exists'.mp (hlive die hd a hptr)
    obtain ⟨cs', hcs', _⟩ := hkeep a cs hcs trivial
    rw [hcs']
    exact Option.some_ne_none cs'
  · obtain ⟨b₁, k, hsorted, hnumbered⟩ := Build.finish_loops h
    have hsame : b.sortUpper.heap a ≠ none :=
      foldlM_updateDie_allocated hsorted (foldlM_updateDie_allocated hnumbered ha)
    exact hsame

/-- The addresses that are not shared own the heap of a finished build. -/
theorem Build.owns_arrays {b b' : Build} (hb : b.Backed) (h : b.finish = some b')
    (hnodup : b.arrays.Nodup) : Owns b'.heap b'.arrays := by
  obtain ⟨hperm, hlive, hheap⟩ := Build.finish_arrays h
  refine ⟨hperm.nodup_iff.mpr hnodup, fun a => ⟨fun ha => ?_, hlive a⟩⟩
  exact hperm.mem_iff.mpr (hb a (hheap a ha))

/-- In a ruined build an address is there twice or was freed. -/
theorem Build.Ruined.not_nodup_arrays {b : Build} (h : b.Ruined) (hthreaded : b.Threaded)
    (hlive : ∀ a ∈ b.arrays, b.heap a ≠ none) : ¬ b.arrays.Nodup := by
  intro hnodup
  have hpointers : b.dies.map DieNode.children = b.arrays.map some := by
    rw [arrays, List.map_filterMap]
    refine (List.filterMap_eq_map_iff_forall_eq_some.mpr fun die hd => ?_).symm
    obtain ⟨socket, hs, hds⟩ := List.mem_flatMap.mp hd
    obtain ⟨p, d, haddr⟩ := Build.addrAt_of_mem hs hds
    obtain ⟨a, ha, _⟩ := hthreaded p d _ haddr
    rw [ha]
    rfl
  have hdistinct : (b.dies.map DieNode.children).Nodup := by
    rw [hpointers]
    exact hnodup.map (Option.some_injective _)
  rw [Build.dies_nodup_iff] at hdistinct
  obtain ⟨p, d, a, haddr, hbad⟩ := h
  rcases hbad with hfreed | ⟨p', d', hne, haddr'⟩
  · exact hlive a (Build.mem_arrays.mpr ⟨p, d, haddr⟩) hfreed
  · obtain ⟨die, hdie, ha⟩ := Option.map_eq_some_iff.mp haddr
    obtain ⟨die', hdie', ha'⟩ := Option.map_eq_some_iff.mp haddr'
    exact hne (hdistinct p' d' p d die' die hdie' hdie (ha'.trans ha.symm))

end Finish

section Main

/-- What happens in a client that gets the tree and frees it. -/
theorem initThenFree_ok {S : Snapshot} {heap : Addr → Option (List ArchNode)}
    (h : initThenFree S = .ok heap) :
    ∃ b b', processNodes S = .ok b ∧ b.finish = some b' ∧
      freeArchitectureNodes b' = some heap := by
  unfold initThenFree at h
  split at h
  · cases h
  · split at h
    · cases h
    · rename_i b hrun
      split at h
      · cases h
      · rename_i b' hfinish
        split at h
        · cases h
        · rename_i heap' hfree
          cases h
          exact ⟨b, b', hrun, hfinish, hfree⟩

/-- **Which trees can be freed.**  The arrays of the DIEs of the tree that
`x86_energy_init_architecture_nodes` returns are freed once each exactly on the machines on which
every NUMA node lies in one package, and then none of them is left. -/
theorem initThenFree_iff (S : Snapshot) (hS : Consistent S) :
    ((∃ heap, initThenFree S = .ok heap) ↔ NoSpan S) ∧
      ∀ heap, initThenFree S = .ok heap → heap = empty := by
  have hends : ∀ {heap}, initThenFree S = .ok heap → ∃ b b', processNodes S = .ok b ∧
      b.Backed ∧ b.finish = some b' ∧ b'.arrays.Nodup ∧
        b'.arrays.foldlM free b'.heap = some heap := by
    intro heap h
    obtain ⟨b, b', hrun, hfinish, hfree⟩ := initThenFree_ok h
    rw [freeArchitectureNodes_eq] at hfree
    exact ⟨b, b', hrun, processNodes_backed hS.readable hrun, hfinish,
      (foldlM_free_iff.mp hfree).1, hfree⟩
  refine ⟨⟨?_, fun hspan => ?_⟩, fun heap h => ?_⟩
  · rintro ⟨heap, h⟩
    obtain ⟨b, b', hrun, _, hfinish, hnodup, _⟩ := hends h
    by_contra hspan
    obtain ⟨hthreaded, hruined⟩ := processNodes_ruined hS hspan hrun
    obtain ⟨hperm, hlive, hheap⟩ := Build.finish_arrays hfinish
    exact hruined.not_nodup_arrays hthreaded
      (fun a ha => hheap a (hlive a (hperm.mem_iff.mpr ha))) (hperm.nodup_iff.mp hnodup)
  · obtain ⟨hostname, hhost⟩ := Option.ne_none_iff_exists'.mp hS.hostname
    obtain ⟨b, hrun, hclean⟩ := processNodes_clean hS.readable hspan hS.busyNodes hS.packageInt
    obtain ⟨b', hfinish, _⟩ := hclean.separatedBuild.finish (some hostname)
    have hnodup : b.arrays.Nodup := by
      have hdistinct := hclean.separatedBuild.distinct.filterMap (f := id)
        (fun ptr ptr' a ha ha' => ha.trans ha'.symm)
      rwa [List.filterMap_map] at hdistinct
    have howns := Build.owns_arrays (processNodes_backed hS.readable hrun) hfinish hnodup
    refine ⟨empty, ?_⟩
    unfold initThenFree
    rw [hhost]
    simp only [hrun, hfinish, freeArchitectureNodes_eq, howns.freeAll]
  · obtain ⟨b, b', hrun, hbacked, hfinish, hnodup, hfree⟩ := hends h
    obtain ⟨hperm, _⟩ := Build.finish_arrays hfinish
    have howns := Build.owns_arrays hbacked hfinish (hperm.nodup_iff.mp hnodup)
    rw [howns.freeAll] at hfree
    exact (Option.some.inj hfree).symm

theorem initThenFree_twoPackages :
    ∃ heap, initThenFree twoPackages = .ok heap ∧ heap = empty := by
  obtain ⟨hiff, hleft⟩ := initThenFree_iff twoPackages twoPackages_consistent
  obtain ⟨heap, hheap⟩ := hiff.mpr (by decide)
  exact ⟨heap, hheap, hleft heap hheap⟩

end Main

end ParseArchitecture
end X86Energy
