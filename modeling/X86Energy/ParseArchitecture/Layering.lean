import X86Energy.ParseArchitecture.Round

/-!
# The layers of the tree

The descent of `get_test_cpu` and the renumbering loops rely on the granularities
of a tree: SYSTEM, SOCKET, DIE, MODULE or CORE, CORE below MODULE, THREAD.

This file says which rounds keep the layers below one DIE.  `find_child` looks a
core up by its bare id among the MODULEs and COREs of the DIE: a CPU whose core has
the id of a MODULE becomes a child of the MODULE, and stays one.
-/

namespace X86Energy

namespace ArchNode

/-- A leaf. -/
def IsThread (t : ArchNode) : Prop := t.granularity = .thread ∧ t.children = []

def IsCore (t : ArchNode) : Prop :=
  t.granularity = .core ∧ t.children ≠ [] ∧ ∀ c ∈ t.children, c.IsThread

def IsModule (t : ArchNode) : Prop :=
  t.granularity = .module ∧ t.children ≠ [] ∧ ∀ c ∈ t.children, c.IsCore

/-- The children that a DIE may have. -/
def DieLayer (cs : List ArchNode) : Prop := ∀ c ∈ cs, c.IsModule ∨ c.IsCore

def IsDie (t : ArchNode) : Prop :=
  t.granularity = .die ∧ t.children ≠ [] ∧ DieLayer t.children

def IsSocket (t : ArchNode) : Prop :=
  t.granularity = .socket ∧ t.children ≠ [] ∧ ∀ c ∈ t.children, c.IsDie

/-- Every node has children of the layer below it only, and some unless it is the
SYSTEM node or a THREAD. -/
def Layered (t : ArchNode) : Prop :=
  t.granularity = .system ∧ ∀ c ∈ t.children, c.IsSocket

/-- A THREAD directly below a MODULE. -/
def Misplaced (cs : List ArchNode) : Prop :=
  ∃ c ∈ cs, c.granularity = .module ∧ ∃ t ∈ c.children, t.granularity = .thread

theorem Misplaced.not_dieLayer {cs : List ArchNode} (h : Misplaced cs) : ¬ DieLayer cs := by
  obtain ⟨c, hc, hmodule, t, ht, hthread⟩ := h
  intro hlayer
  rcases hlayer c hc with hc | hc
  · rw [(hc.2.2 t ht).1] at hthread
    cases hthread
  · rw [hc.1] at hmodule
    cases hmodule

end ArchNode

namespace ParseArchitecture

open CInt ArchNode

section Place

theorem threadNode_isThread (cpu : Int) : (threadNode cpu).IsThread := ⟨rfl, rfl⟩

theorem coreNode_isCore (core cpu : Int) : (coreNode core cpu).IsCore := by
  refine ⟨rfl, by simp [coreNode], fun c hc => ?_⟩
  rw [coreNode, children_node, List.mem_singleton] at hc
  rw [hc]
  exact threadNode_isThread cpu

@[simp] theorem granularity_withThread (cpu : Int) (found : ArchNode) :
    (withThread cpu found).granularity = found.granularity := by
  unfold withThread
  cases findChild (found.children.map ArchNode.id) cpu <;> simp

/-- A child is never lost. -/
theorem mem_children_withThread {cpu : Int} {found t : ArchNode} (ht : t ∈ found.children) :
    t ∈ (withThread cpu found).children := by
  unfold withThread
  cases findChild (found.children.map ArchNode.id) cpu with
  | some _ => exact ht
  | none =>
      rw [children_setChildren]
      exact List.mem_append_left _ ht

theorem withThread_isCore {cpu : Int} {found : ArchNode} (h : found.IsCore) :
    (withThread cpu found).IsCore := by
  refine ⟨by rw [granularity_withThread, h.1], ?_, fun c hc => ?_⟩
  · obtain ⟨t, ht⟩ := List.exists_mem_of_ne_nil _ h.2.1
    exact List.ne_nil_of_mem (mem_children_withThread ht)
  · unfold withThread at hc
    cases hfind : findChild (found.children.map ArchNode.id) cpu with
    | some _ =>
        rw [hfind] at hc
        exact h.2.2 c hc
    | none =>
        rw [hfind, children_setChildren, List.mem_append, List.mem_singleton] at hc
        rcases hc with hc | rfl
        · exact h.2.2 c hc
        · exact threadNode_isThread cpu

/-- Where the members of an array come from after one entry was changed. -/
theorem mem_modify {α : Type*} {l : List α} {k : Nat} {f : α → α} {x : α}
    (h : x ∈ l.modify k f) : x ∈ l ∨ ∃ y, l[k]? = some y ∧ x = f y := by
  obtain ⟨i, hi, rfl⟩ := List.mem_iff_getElem.mp h
  rw [List.getElem_modify]
  rw [List.length_modify] at hi
  split
  · rename_i hk
    subst hk
    exact .inr ⟨_, List.getElem?_eq_getElem hi, rfl⟩
  · exact .inl (List.getElem_mem hi)

/-- Where the nodes come from after a CPU was added: they were there, or they are a new
CORE, or the node that was found for the core. -/
theorem mem_placeThread_cases {children : List ArchNode} {core cpu : Int} {c : ArchNode}
    (hc : c ∈ placeThread children core cpu) :
    c ∈ children ∨ c = coreNode core cpu ∨
      ∃ k found, findChild (children.map ArchNode.id) core = some k ∧
        children[k]? = some found ∧ c = withThread cpu found := by
  unfold placeThread at hc
  cases hfind : findChild (children.map ArchNode.id) core with
  | some k =>
      rw [hfind] at hc
      rcases mem_modify hc with hc | ⟨found, hfound, rfl⟩
      · exact .inl hc
      · exact .inr (.inr ⟨k, found, rfl, hfound, rfl⟩)
  | none =>
      rw [hfind, List.mem_append, List.mem_singleton] at hc
      exact hc.imp id .inl

theorem placeThread_isCore {children : List ArchNode} (h : ∀ c ∈ children, c.IsCore)
    (core cpu : Int) : ∀ c ∈ placeThread children core cpu, c.IsCore := by
  intro c hc
  rcases mem_placeThread_cases hc with hc | rfl | ⟨k, found, _, hfound, rfl⟩
  · exact h c hc
  · exact coreNode_isCore core cpu
  · exact withThread_isCore (h found (List.mem_of_getElem? hfound))

/-- A group is placed as COREs. -/
theorem placeGroup_isCore (coreOf : Int → Int) (cpus : List Int) :
    ∀ {children : List ArchNode}, (∀ c ∈ children, c.IsCore) →
      ∀ c ∈ placeGroup coreOf children cpus, c.IsCore := by
  induction cpus with
  | nil => exact fun h => h
  | cons cpu cpus ih => exact fun h => ih (placeThread_isCore h (coreOf cpu) cpu)

theorem placeGroup_ne_nil (coreOf : Int → Int) {cpus : List Int} (h : cpus ≠ []) :
    placeGroup coreOf [] cpus ≠ [] := by
  obtain ⟨init, last, rfl⟩ := List.eq_nil_or_concat cpus |>.resolve_left h
  rw [placeGroup, List.concat_eq_append, List.foldl_append]
  exact placeThread_ne_nil _ _ _

theorem moduleNode_isModule (position : Nat) (coreOf : Int → Int) {cpus : List Int}
    (h : cpus ≠ []) : (moduleNode position (placeGroup coreOf [] cpus)).IsModule :=
  ⟨rfl, placeGroup_ne_nil coreOf h, placeGroup_isCore coreOf cpus (by simp)⟩

end Place

/-- A round for this CPU finds a MODULE by the id of the CPU's core and gives it
the THREAD. -/
def HitsModule (S : Snapshot) (children : List ArchNode) (cpu : Int) : Prop :=
  ¬ S.Modular cpu ∧ ∃ k found, findChild (children.map ArchNode.id) (S.coreOf cpu) = some k ∧
    children[k]? = some found ∧ found.granularity = .module ∧
    findChild (found.children.map ArchNode.id) cpu = none

theorem place_modular {S : Snapshot} {cpu : Int} (h : S.Modular cpu)
    (children : List ArchNode) :
    S.place children cpu = children ++
      [moduleNode children.length (placeGroup S.coreOf [] (S.sharedL2 cpu))] := by
  unfold Snapshot.place placeRound
  exact if_pos h

theorem place_plain {S : Snapshot} {cpu : Int} (h : ¬ S.Modular cpu)
    (children : List ArchNode) :
    S.place children cpu = placeThread children (S.coreOf cpu) cpu := by
  unfold Snapshot.place placeRound
  exact if_neg h

theorem Snapshot.Modular.ne_nil {S : Snapshot} {cpu : Int} (h : S.Modular cpu) :
    S.sharedL2 cpu ≠ [] := by
  intro hnil
  unfold Snapshot.Modular at h
  rw [hnil] at h
  exact absurd h (Nat.not_lt_zero _)

/-- A round that hits no MODULE keeps the layers. -/
theorem place_dieLayer {S : Snapshot} {children : List ArchNode} {cpu : Int}
    (h : DieLayer children) (hhit : ¬ HitsModule S children cpu) :
    DieLayer (S.place children cpu) := by
  intro c hc
  by_cases hmod : S.Modular cpu
  · rw [place_modular hmod, List.mem_append, List.mem_singleton] at hc
    rcases hc with hc | rfl
    · exact h c hc
    · exact .inl (moduleNode_isModule _ _ hmod.ne_nil)
  · rw [place_plain hmod] at hc
    rcases mem_placeThread_cases hc with hc | rfl | ⟨k, found, hfind, hfound, rfl⟩
    · exact h c hc
    · exact .inr (coreNode_isCore _ _)
    · rcases h found (List.mem_of_getElem? hfound) with hm | hcore
      · left
        cases hcpu : findChild (found.children.map ArchNode.id) cpu with
        | none => exact absurd ⟨hmod, k, found, hfind, hfound, hm.1, hcpu⟩ hhit
        | some _ =>
            unfold withThread
            rw [hcpu]
            exact hm
      · exact .inr (withThread_isCore hcore)

/-- A round that hits a MODULE leaves a THREAD below it. -/
theorem place_misplaced_of_hits {S : Snapshot} {children : List ArchNode} {cpu : Int}
    (h : HitsModule S children cpu) : Misplaced (S.place children cpu) := by
  obtain ⟨hmod, k, found, hfind, hfound, hmodule, hcpu⟩ := h
  rw [place_plain hmod]
  unfold placeThread
  rw [hfind]
  refine ⟨withThread cpu found, ?_, by rw [granularity_withThread, hmodule], threadNode cpu, ?_,
    rfl⟩
  · rw [List.mem_iff_getElem?]
    exact ⟨k, by rw [List.getElem?_modify_eq, hfound]; rfl⟩
  · unfold withThread
    rw [hcpu]
    simp

/-- A misplaced THREAD stays where it is. -/
theorem place_misplaced {S : Snapshot} {children : List ArchNode} (h : Misplaced children)
    (cpu : Int) : Misplaced (S.place children cpu) := by
  obtain ⟨c, hc, hmodule, t, ht, hthread⟩ := h
  have happend : ∀ x, Misplaced (children ++ [x]) :=
    fun x => ⟨c, List.mem_append_left _ hc, hmodule, t, ht, hthread⟩
  by_cases hmod : S.Modular cpu
  · rw [place_modular hmod]
    exact happend _
  · rw [place_plain hmod]
    unfold placeThread
    cases findChild (children.map ArchNode.id) (S.coreOf cpu) with
    | none => exact happend _
    | some k =>
        obtain ⟨i, hi⟩ := List.mem_iff_getElem?.mp hc
        by_cases hik : k = i
        · refine ⟨withThread cpu c, ?_, by rw [granularity_withThread, hmodule], t,
            mem_children_withThread ht, hthread⟩
          rw [List.mem_iff_getElem?]
          exact ⟨i, by rw [hik, List.getElem?_modify_eq, hi]; rfl⟩
        · refine ⟨c, ?_, hmodule, t, ht, hthread⟩
          rw [List.mem_iff_getElem?]
          exact ⟨i, by rw [List.getElem?_modify_ne _ _ hik, hi]⟩

end ParseArchitecture
end X86Energy
