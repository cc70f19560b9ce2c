import X86Energy.Architecture.TestCpu
import X86Energy.ParseArchitecture.FindArch

/-!
# From an index to a CPU and back

`get_test_cpu` takes an id of a granularity to a CPU, and `x86_energy_find_arch_for_cpu`
takes the CPU back to a node.  On a tree in which ids name one node each this is the node
with the id.
-/

namespace X86Energy
namespace Architecture

open CInt ArchNode

/-- No two nodes of one granularity have the same id. -/
def UniqueIds (t : ArchNode) : Prop := ∀ g, ((level g t).map ArchNode.id).Nodup

/-- The ids are stored in `int32_t`s. -/
def IntIds (t : ArchNode) : Prop := ∀ x ∈ t.preorder, IsInt32 x.id

variable {t : ArchNode}

theorem UniqueIds.threads (h : UniqueIds t) : t.threads.Nodup := h .thread

/-- With unique ids the search can only find the node itself. -/
theorem UniqueIds.findNodeInternal (h : UniqueIds t) (hints : IntIds t) {x : ArchNode}
    (hx : x ∈ t.preorder) :
    findNodeInternal x.granularity (toSize x.id) t = some x := by
  obtain ⟨found, hfind⟩ := findNodeInternal_isSome hx rfl rfl
  obtain ⟨hfound, hg, hid⟩ := findNodeInternal_some hfind
  have hsame : found.id = x.id := toSize_inj (hints found hfound) (hints x hx) hid
  rw [hfind]
  congr 1
  exact List.inj_on_of_nodup_map (h x.granularity) (mem_level.mpr ⟨hfound, hg⟩)
    (mem_level.mpr ⟨hx, rfl⟩) hsame

/-- **The round trip.**  `get_test_cpu` fails exactly for an id that does not exist, and
from the CPU that it delivers otherwise `x86_energy_find_arch_for_cpu` gets back to the
node. -/
theorem findArch_getTestCpu (hshape : t.Shaped) (hpopulated : t.Populated)
    (hpos : ∀ cpu ∈ t.threads, 0 ≤ cpu) (hunique : UniqueIds t) (hints : IntIds t)
    (g : Granularity) (id : UInt64) :
    (getTestCpu t g id.toNat = some (-1) ↔
      ¬ ∃ x ∈ t.preorder, x.granularity = g ∧ toSize x.id = id.toNat) ∧
      ∀ x ∈ t.preorder, x.granularity = g → toSize x.id = id.toNat →
        ∃ cpu, getTestCpu t g id.toNat = some cpu ∧ cpu ∈ x.threads ∧
          findArchForCpu g cpu t = some x := by
  have hformed := hshape.formed
  have hfound : ∀ x ∈ t.preorder, x.granularity = g → toSize x.id = id.toNat →
      ∃ cpu, getTestCpu t g id.toNat = some cpu ∧ cpu ∈ x.threads ∧
        findArchForCpu g cpu t = some x := by
    rintro x hx rfl hid
    obtain ⟨cpu, hcpu⟩ := (hpopulated.of_mem_preorder hx).firstThread_isSome
    have hmem : cpu ∈ x.threads := mem_threads.mpr (firstThread_some hcpu)
    refine ⟨cpu, ?_, hmem, ?_⟩
    · unfold getTestCpu
      rw [← hid, hunique.findNodeInternal hints hx]
      exact hcpu
    · exact findArchForCpu_onPath hformed.leaves hunique.threads (hformed.graded.unnested _)
        (.of_mem_threads hx rfl hmem)
  refine ⟨⟨fun hminus => ?_, getTestCpu_missing⟩, hfound⟩
  rintro ⟨x, hx, hg, hid⟩
  obtain ⟨cpu, hcpu, hmem, _⟩ := hfound x hx hg hid
  rw [hminus] at hcpu
  cases hcpu
  obtain ⟨y, hy, hthread⟩ := mem_threads.mp hmem
  exact absurd (hpos (-1) (mem_threads.mpr ⟨y, preorder_trans hx hy, hthread⟩)) (by decide)

/-- Two SOCKETs, the second with a MODULE. -/
def twoSocketTree : ArchNode :=
  .node .system 0 none
    [.node .socket 0 none [.node .die 0 none [.node .core 0 none [.node .thread 2 none []]]],
      .node .socket 4 none [.node .die 1 none [.node .module 0 none
        [.node .core 1 none [.node .thread 0 none [], .node .thread 1 none []]]]]]

theorem findArch_getTestCpu_twoSocketTree :
    getTestCpu twoSocketTree .socket 1 = some (-1) ∧
      ∃ cpu, getTestCpu twoSocketTree .core 1 = some cpu ∧
        findArchForCpu .core cpu twoSocketTree = some (.node .core 1 none
          [.node .thread 0 none [], .node .thread 1 none []]) := by
  have hshape : twoSocketTree.Shaped := by
    simp [twoSocketTree, Shaped, SocketShape, DieShape, ModuleShape, CoreShape, IsThread]
  have hpopulated : twoSocketTree.Populated := by
    simp [twoSocketTree, Populated, preorder, preorderAll]
  have hunique : UniqueIds twoSocketTree := by
    intro g
    cases g <;> decide
  have hints : IntIds twoSocketTree := by
    simp [twoSocketTree, IntIds, preorder, preorderAll, IsInt32, intMin, intMax]
  have htrip := findArch_getTestCpu hshape hpopulated (by decide) hunique hints
  refine ⟨(htrip .socket 1).1.mpr ?_, ?_⟩
  · simp [twoSocketTree, preorder, preorderAll, toSize]
  · obtain ⟨cpu, hcpu, _, hfind⟩ := (htrip .core 1).2
      (.node .core 1 none [.node .thread 0 none [], .node .thread 1 none []])
      (by simp [twoSocketTree, preorder, preorderAll]) rfl rfl
    exact ⟨cpu, hcpu, hfind⟩

end Architecture
end X86Energy
