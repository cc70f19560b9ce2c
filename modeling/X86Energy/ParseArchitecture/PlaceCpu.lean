import X86Energy.ParseArchitecture.ProcessNode

/-!
# What one round does to the children of a DIE

With readable files and granted memory, `add_cpu_and_core_to_node` is the pure
function `placeThread` and `placeCpu` is `placeRound`.  This file states what
these do to the layering of the subtree and to the THREADs in it.

`find_child` looks a core up by its bare id among MODULEs and COREs alike.  A
round `HitsModule` when it finds a MODULE this way and puts the THREAD directly
below it.
-/

namespace X86Energy
namespace ParseArchitecture

open CInt

theorem findChild_some {ids : List Int} {id : Int} {k : Nat}
    (h : findChild ids id = some k) : ids[k]? = some id := by
  rw [findChild, List.findIdx?_eq_some_iff_getElem] at h
  obtain ⟨hk, hid, _⟩ := h
  rw [List.getElem?_eq_getElem hk]
  simpa using hid

theorem findChild_eq_none {ids : List Int} {id : Int} :
    findChild ids id = none ↔ id ∉ ids := by
  rw [findChild, List.findIdx?_eq_none_iff]
  constructor
  · intro h hmem
    simpa using h id hmem
  · intro h x hx
    have hne : x ≠ id := fun he => h (he ▸ hx)
    simpa using hne

/-- The index that `find_child` delivers for an array of nodes. -/
theorem findChild_map_some {children : List ArchNode} {id : Int} {k : Nat}
    (h : findChild (children.map ArchNode.id) id = some k) :
    ∃ c, children[k]? = some c ∧ c.id = id := by
  have hget := findChild_some h
  rw [List.getElem?_map, Option.map_eq_some_iff] at hget
  exact hget

/-- A fresh THREAD. -/
def threadNode (cpu : Int) : ArchNode :=
  .node .thread (toInt32 cpu) (some s!"CPU {cpu}") []

/-- A fresh CORE with its first THREAD. -/
def coreNode (core cpu : Int) : ArchNode :=
  .node .core (toInt32 core) (some s!"Core {core}") [threadNode cpu]

/-- A fresh MODULE. -/
def moduleNode (position : Nat) (children : List ArchNode) : ArchNode :=
  .node .module (toInt32 position) (some s!"module {position}") children

/-- The node found for the core, after the CPU was looked for in it. -/
def withThread (cpu : Int) (found : ArchNode) : ArchNode :=
  match findChild (found.children.map ArchNode.id) cpu with
  | some _ => found
  | none => found.setChildren (found.children ++ [threadNode cpu])

/-- The children after a CPU of the given core was added. -/
def placeThread (children : List ArchNode) (core cpu : Int) : List ArchNode :=
  match findChild (children.map ArchNode.id) core with
  | some k => children.modify k (withThread cpu)
  | none => children ++ [coreNode core cpu]

/-- The children of a MODULE that holds the given CPUs. -/
def placeGroup (coreOf : Int → Int) (children : List ArchNode) (cpus : List Int) :
    List ArchNode :=
  cpus.foldl (fun children cpu => placeThread children (coreOf cpu) cpu) children

/-- The children of a DIE after a round that placed a CPU. -/
def placeRound (coreOf : Int → Int) (children : List ArchNode) (cpu : Int)
    (sharedCpusL2 sharedCpusL1 : List Int) : List ArchNode :=
  if sharedCpusL1.length < sharedCpusL2.length then
    children ++ [moduleNode children.length (placeGroup coreOf [] sharedCpusL2)]
  else placeThread children (coreOf cpu) cpu

theorem modify_last {α : Type*} (l : List α) (x : α) (f : α → α) :
    (l ++ [x]).modify l.length f = l ++ [f x] := by
  induction l with
  | nil => rfl
  | cons a l ih => simp [ih]

section Calls

variable {S : Snapshot} {mem : InsertSite → Bool}

/-- The requests for memory of a call of `add_cpu_and_core_to_node`: the THREAD, if it is
not there, and before it the CORE, if that is not there. -/
def requests (j : Nat) (children : List ArchNode) (core cpu : Int) : List InsertSite :=
  match findChild (children.map ArchNode.id) core with
  | none => [.core j, .thread j]
  | some k =>
      match (children[k]?).bind fun found => findChild (found.children.map ArchNode.id) cpu with
      | none => [.thread j]
      | some _ => []

/-- A call of `add_cpu_and_core_to_node` that can read the `core_id` and gets the memory
that it asks for. -/
def CallSucceeds (S : Snapshot) (mem : InsertSite → Bool) (j : Nat) (children : List ArchNode)
    (cpu : Int) : Prop :=
  ∃ core, S.readLong (.coreId cpu) = some core ∧
    ∀ site ∈ requests j children core cpu, mem site = true

/-- A call that gets the memory for a new CORE and not that for its THREAD. -/
def LeavesEmptyCore (S : Snapshot) (mem : InsertSite → Bool) (j : Nat)
    (children : List ArchNode) (cpu : Int) : Prop :=
  ∃ core, S.readLong (.coreId cpu) = some core ∧
    findChild (children.map ArchNode.id) core = none ∧
    mem (.core j) = true ∧ mem (.thread j) = false

theorem insertNewChild_granted {granted : Bool} (h : granted = true) (children : List ArchNode)
    (g : Granularity) (id : Int) (name : String) :
    insertNewChild granted children g id name =
      some (children ++ [.node g (toInt32 id) (some name) []]) := by
  rw [insertNewChild, if_pos h]

theorem insertNewChild_refused {granted : Bool} (h : ¬ granted = true)
    (children : List ArchNode) (g : Granularity) (id : Int) (name : String) :
    insertNewChild granted children g id name = none := by
  rw [insertNewChild, if_neg h]

/-- The THREAD is there or can be inserted. -/
theorem addThread_ok {j k : Nat} {children : List ArchNode} {found : ArchNode}
    (hk : children[k]? = some found) {cpu : Int}
    (hthread : findChild (found.children.map ArchNode.id) cpu = none → mem (.thread j) = true) :
    addThread mem j k children cpu = (0, children.modify k (withThread cpu)) := by
  have hmodify : children.modify k (withThread cpu) = children.set k (withThread cpu found) := by
    rw [List.modify_eq_set_getElem?, hk]
    rfl
  rw [hmodify, addThread, hk]
  simp only
  rw [withThread]
  cases hfind : findChild (found.children.map ArchNode.id) cpu with
  | none =>
      simp only
      rw [insertNewChild_granted (hthread hfind)]
      rfl
  | some i =>
      obtain ⟨hlt, hget⟩ := List.getElem?_eq_some_iff.mp hk
      simp only
      rw [← hget, List.set_getElem_self]

/-- `add_cpu_and_core_to_node` for a CPU whose `core_id` can be read. -/
theorem addCpuAndCoreToNode_ok {j : Nat} {children : List ArchNode} {cpu core : Int}
    (hcore : S.readLong (.coreId cpu) = some core)
    (hmem : ∀ site ∈ requests j children core cpu, mem site = true) :
    addCpuAndCoreToNode S mem j children cpu = (0, placeThread children core cpu) := by
  rw [addCpuAndCoreToNode, hcore]
  simp only
  unfold requests at hmem
  rw [placeThread]
  cases hfind : findChild (children.map ArchNode.id) core with
  | some k =>
      obtain ⟨found, hk, _⟩ := findChild_map_some hfind
      refine addThread_ok hk fun hcpu => hmem _ ?_
      rw [hfind]
      simp [hk, hcpu]
  | none =>
      rw [hfind] at hmem
      simp only
      rw [insertNewChild_granted (hmem _ (by simp))]
      simp only
      have hlast : ∀ c : ArchNode, (children ++ [c])[children.length]? = some c := by simp
      rw [addThread_ok (hlast _) fun _ => hmem _ (by simp), modify_last]
      rfl

/-- **The outcomes of a call** that leaves no empty CORE: it adds the CPU, or it fails and
changes nothing. -/
theorem addCpuAndCoreToNode_cases {j : Nat} {children : List ArchNode} {cpu : Int}
    (h : ¬ LeavesEmptyCore S mem j children cpu) :
    (∃ core, S.readLong (.coreId cpu) = some core ∧
      addCpuAndCoreToNode S mem j children cpu = (0, placeThread children core cpu)) ∨
    ¬ CallSucceeds S mem j children cpu ∧
      addCpuAndCoreToNode S mem j children cpu = (1, children) := by
  by_cases hcall : CallSucceeds S mem j children cpu
  · obtain ⟨core, hcore, hmem⟩ := hcall
    exact .inl ⟨core, hcore, addCpuAndCoreToNode_ok hcore hmem⟩
  · refine .inr ⟨hcall, ?_⟩
    unfold addCpuAndCoreToNode
    cases hcore : S.readLong (.coreId cpu) with
    | none => rfl
    | some core =>
        simp only
        cases hfind : findChild (children.map ArchNode.id) core with
        | some k =>
            obtain ⟨found, hk, _⟩ := findChild_map_some hfind
            simp only
            rw [addThread, hk]
            simp only
            cases hcpu : findChild (found.children.map ArchNode.id) cpu with
            | some _ =>
                refine absurd ⟨core, hcore, fun site hsite => ?_⟩ hcall
                simp [requests, hfind, hk, hcpu] at hsite
            | none =>
                have hrefused : ¬ mem (.thread j) = true := fun hthread =>
                  hcall ⟨core, hcore, by simpa [requests, hfind, hk, hcpu] using hthread⟩
                simp only
                rw [insertNewChild_refused hrefused]
        | none =>
            have hrefused : ¬ mem (.core j) = true := by
              intro hgranted
              by_cases hthread : mem (.thread j) = true
              · exact hcall ⟨core, hcore, by simp [requests, hfind, hgranted, hthread]⟩
              · exact h ⟨core, hcore, hfind, hgranted, Bool.eq_false_iff.mpr hthread⟩
            simp only
            rw [insertNewChild_refused hrefused]

end Calls

section Granted

variable {S : Snapshot} {mem : InsertSite → Bool} (hmem : ∀ site, mem site = true)
include hmem

/-- `add_cpu_and_core_to_node` when memory is granted. -/
theorem addCpuAndCoreToNode_granted (j : Nat) (children : List ArchNode) {cpu core : Int}
    (hcore : S.readLong (.coreId cpu) = some core) :
    addCpuAndCoreToNode S mem j children cpu = (0, placeThread children core cpu) :=
  addCpuAndCoreToNode_ok hcore fun site _ => hmem site

theorem addGroup_granted {coreOf : Int → Int} :
    ∀ (cpus : List Int) (j : Nat) (children : List ArchNode),
      (∀ cpu ∈ cpus, S.readLong (.coreId cpu) = some (coreOf cpu)) →
      addGroup S mem j cpus children = placeGroup coreOf children cpus
  | [], _, _, _ => rfl
  | cpu :: cpus, j, children, hread => by
      rw [addGroup, addCpuAndCoreToNode_granted hmem j children (hread cpu (by simp)),
        addGroup_granted cpus (j + 1) _ (fun c hc => hread c (by simp [hc]))]
      rfl

/-- **A round with readable files and granted memory is `placeRound`.** -/
theorem placeCpu_granted {coreOf : Int → Int} (children : List ArchNode) (cpu : Int)
    (sharedCpusL2 sharedCpusL1 : List Int)
    (hcpu : S.readLong (.coreId cpu) = some (coreOf cpu))
    (hgroup : ∀ c ∈ sharedCpusL2, S.readLong (.coreId c) = some (coreOf c)) :
    placeCpu S mem children cpu sharedCpusL2 sharedCpusL1 =
      some (placeRound coreOf children cpu sharedCpusL2 sharedCpusL1) := by
  rw [placeCpu, placeRound]
  split
  · rw [insertNewChild_granted (hmem .module)]
    simp only
    rw [addGroup_granted hmem _ _ _ hgroup, modify_last]
    rfl
  · rw [addCpuAndCoreToNode_granted hmem 0 children hcpu]

end Granted

end ParseArchitecture
end X86Energy
