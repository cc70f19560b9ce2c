import X86Energy.Architecture.RoundTrip
import X86Energy.ParseArchitecture.ModuleNumbers

/-!
# Which trees have unique ids

The header promises that the id of a node is unique for its level.  SOCKETs and DIEs have
the numbers of the kernel, COREs are renumbered over the whole tree, and THREADs have the
numbers of the CPUs.  But a MODULE is numbered within its DIE: two DIEs that begin with a
MODULE have two MODULEs with the id 0.
-/

namespace X86Energy
namespace Architecture

open CInt ArchNode ParseArchitecture

section Levels

/-- The DIEs of a layered tree. -/
theorem level_die {t : ArchNode} (h : t.Layered) :
    level .die t = t.children.flatMap ArchNode.children := by
  have hun := (graded_of_layered h).unnested .die
  rw [level_of_ne (by rw [h.1]; decide)]
  apply List.flatMap_congr
  intro s hs
  have hone : ∀ d ∈ s.children, level .die d = [d] := by
    intro d hd
    have hd' := mem_preorder_of_mem_children hs
      (mem_preorder_of_mem_children hd (self_mem_preorder d))
    rw [level_eq, if_pos ((h.2 s hs).2.2 d hd).1, List.flatMap_eq_nil_iff.mpr fun c hc =>
      hun d hd' ((h.2 s hs).2.2 d hd).1 c hc, List.append_nil]
  rw [level_of_ne (by rw [(h.2 s hs).1]; decide), List.flatMap_congr hone, List.flatMap_singleton']

/-- A layered tree has no nodes of other granularities. -/
theorem level_other {t : ArchNode} (h : t.Layered) {g : Granularity}
    (hg : g = .device ∨ g = .size) : level g t = [] := by
  have hne : ∀ {g'}, g' ∈ [Granularity.system, .socket, .die, .module, .core, .thread] → g' ≠ g := by
    rintro g' hmem rfl
    rcases hg with rfl | rfl <;> simp at hmem
  have hcore : ∀ c : ArchNode, c.IsCore → level g c = [] := by
    intro c hc
    rw [level_of_ne (by rw [hc.1]; exact hne (by simp)), List.flatMap_eq_nil_iff]
    intro x hx
    rw [level_of_ne (by rw [(hc.2.2 x hx).1]; exact hne (by simp)), (hc.2.2 x hx).2]
    rfl
  rw [level_of_ne (by rw [h.1]; exact hne (by simp)), List.flatMap_eq_nil_iff]
  intro s hs
  rw [level_of_ne (by rw [(h.2 s hs).1]; exact hne (by simp)), List.flatMap_eq_nil_iff]
  intro d hd
  have hdie := (h.2 s hs).2.2 d hd
  rw [level_of_ne (by rw [hdie.1]; exact hne (by simp)), List.flatMap_eq_nil_iff]
  intro c hc
  rcases hdie.2.2 c hc with hmodule | hcorec
  · rw [level_of_ne (by rw [hmodule.1]; exact hne (by simp)), List.flatMap_eq_nil_iff]
    exact fun x hx => hcore x (hmodule.2.2 x hx)
  · exact hcore c hcorec

theorem numbers_nodup (k : Int) (n : Nat) : (numbers k n).Nodup := by
  refine List.nodup_range.map fun i j hij => ?_
  have hij : k + (i : Int) = k + j := hij
  omega

/-- Finishing makes the ids of the COREs unique and leaves the other levels to the build. -/
theorem uniqueIds_finish_iff {t : ArchNode} (h : t.Layered) (hsockets : (idsAt .socket t).Nodup)
    (hdies : (idsAt .die t).Nodup) :
    UniqueIds (finish t) ↔ t.threads.Nodup ∧ (idsAt .module t).Nodup := by
  constructor
  · intro hunique
    exact ⟨h.threads_finish.nodup_iff.mp hunique.threads,
      (h.idsAt_finish (by decide)).nodup_iff.mp (hunique .module)⟩
  · rintro ⟨hthreads, hmodules⟩ g
    by_cases hg : g = .core
    · obtain ⟨n, hids⟩ := h.coreIds_finish
      have hcores : (finish t).coreIds.Nodup := hids ▸ numbers_nodup 0 n
      rw [hg]
      exact hcores
    · refine (h.idsAt_finish hg).nodup_iff.mpr ?_
      cases g with
      | system =>
          rw [idsAt, level_system h]
          exact List.nodup_singleton _
      | socket => exact hsockets
      | die => exact hdies
      | module => exact hmodules
      | core => exact absurd rfl hg
      | thread => exact hthreads
      | device =>
          rw [idsAt, level_other h (.inl rfl)]
          exact List.nodup_nil
      | size =>
          rw [idsAt, level_other h (.inr rfl)]
          exact List.nodup_nil

end Levels

section Main

/-- Lists over distinct indices are distinct as a whole if they are so one by one and have
no entry in common. -/
theorem nodup_flatMap_iff {α β : Type*} {l : List α} (hl : l.Nodup) {f : α → List β}
    (hf : ∀ a ∈ l, (f a).Nodup) :
    (l.flatMap f).Nodup ↔ ∀ a ∈ l, ∀ a' ∈ l, a ≠ a' → ∀ x ∈ f a, x ∉ f a' := by
  rw [List.nodup_flatMap]
  constructor
  · rintro ⟨_, hpairs⟩ a ha a' ha' hne x hx hx'
    have hsymm : Std.Symm (Function.onFun List.Disjoint f) := ⟨fun _ _ h => h.symm⟩
    exact hpairs.forall ha ha' hne hx hx'
  · intro h
    exact ⟨hf, hl.pairwise_of_forall_ne fun a ha a' ha' hne x hx hx' => h a ha a' ha' hne x hx hx'⟩

variable {S : Snapshot} (hS : Consistent S)
  (hcore : ∀ cpu ∈ S.online, IsInt32 (S.coreOf cpu)) (havoid : AvoidsModules S)
include hS

/-- The numbers of the MODULEs of one DIE stay apart as `int32_t`s. -/
theorem moduleIds_nodup {n : Int} (hn : n ∈ S.nodes) :
    (∀ k ∈ S.moduleNumbers (S.cpulist n), k < 4294967296) ∧
      ((S.moduleNumbers (S.cpulist n)).map fun k : Nat => toInt32 k).Nodup := by
  obtain ⟨hnodup, hlt⟩ := @moduleNumbers_lt S _ (hS.groups n hn) (S.cpulist n) fun _ hc => hc
  have hbound : ∀ k ∈ S.moduleNumbers (S.cpulist n), k < 4294967296 := by
    intro k hk
    have hcount := childCount_le (S := S) (S.cpulist n)
    have hlen : (S.cpulist n).length ≤ 4294967296 :=
      length_le_of_isInt32 ((List.nodup_flatMap.mp hS.nodup).1 n hn) fun c hc =>
        hS.cpuInt c (mem_online hn hc)
    have hk := hlt k hk
    omega
  exact ⟨hbound, hnodup.map_on fun k hk k' hk' => toInt32_natCast_inj (hbound k hk) (hbound k' hk')⟩

include hcore havoid

/-- The ids of the MODULEs of the tree. -/
theorem moduleIds_perm {b : Build}
    (h : Clean b (busy S S.nodes) S.nodePackage fun n => dieBlock S (S.cpulist n))
    (hleaders : LeadersFirst S) :
    (idsAt .module (b.viewTree S.hostname)).Perm ((busyNodes S S.nodes).flatMap fun n =>
      (S.moduleNumbers (S.cpulist n)).map fun k : Nat => toInt32 k) := by
  have hview : idsAt .module (b.viewTree S.hostname) =
      b.dies.flatMap fun die => (b.viewBlock die).flatMap (idsAt .module) := by
    rw [idsAt, Build.level_viewTree b S.hostname (by decide), List.map_flatMap]
    exact List.flatMap_congr fun die _ => List.map_flatMap
  rw [hview]
  refine (h.flatMap_dies hS.busyNodes (fun _ => mem_busyNodes) _).trans ?_
  apply List.Perm.flatMap_left
  intro n hn
  have hn : n ∈ S.nodes := (mem_busyNodes.mp hn).1
  have hsplit : S.cpulist n = S.cpulist n ++ [] := (List.append_nil _).symm
  rw [idsAt_module (dieBlock_threads hS havoid hn _ [] hsplit).1,
    (dieBlock_heads hS hcore havoid hn (hleaders n hn) _ [] hsplit).modules]

/-- The ids of the MODULEs differ exactly if their numbers do from DIE to DIE. -/
theorem moduleIds_nodup_iff {b : Build}
    (h : Clean b (busy S S.nodes) S.nodePackage fun n => dieBlock S (S.cpulist n))
    (hleaders : LeadersFirst S) :
    (idsAt .module (b.viewTree S.hostname)).Nodup ↔ ModulesApart S := by
  have hmem : ∀ n ∈ busyNodes S S.nodes, n ∈ S.nodes := fun n hn => (mem_busyNodes.mp hn).1
  have hbusy : ∀ n ∈ S.nodes, S.moduleNumbers (S.cpulist n) ≠ [] → n ∈ busyNodes S S.nodes := by
    intro n hn hne
    refine mem_busyNodes.mpr ⟨hn, fun hnil => hne ?_⟩
    rw [hnil]
    rfl
  rw [(moduleIds_perm hS hcore havoid h hleaders).nodup_iff,
    nodup_flatMap_iff hS.busyNodes
      fun n hn => (moduleIds_nodup hS (hmem n hn)).2]
  constructor
  · intro hapart n hn n' hn' hne k hk hk'
    exact hapart n (hbusy n hn (List.ne_nil_of_mem hk)) n' (hbusy n' hn' (List.ne_nil_of_mem hk'))
      hne (toInt32 k) (List.mem_map_of_mem hk) (List.mem_map_of_mem hk')
  · intro hapart n hn n' hn' hne x hx hx'
    obtain ⟨k, hk, rfl⟩ := List.mem_map.mp hx
    obtain ⟨k', hk', heq⟩ := List.mem_map.mp hx'
    have hsame := toInt32_natCast_inj ((moduleIds_nodup hS (hmem n' hn')).1 k' hk')
      ((moduleIds_nodup hS (hmem n hn)).1 k hk) heq
    exact hapart n (hmem n hn) n' (hmem n' hn') hne k hk (hsame ▸ hk')

end Main

section Machines

/-- Two NUMA nodes of one package with two CPUs each that share an L2 cache. -/
def twoModuleDies : Snapshot :=
  .ofMachine [[0, 1], [2, 3]] fun cpu =>
    ⟨0, cpu, if cpu < 2 then [0, 1] else [2, 3], [cpu]⟩

/-- A MODULE 0 with two CPUs on a CORE each. -/
def moduleDie (die first : Int) : ArchNode :=
  let core (n : Int) : ArchNode :=
    .node .core n (some s!"Core {n}") [.node .thread n (some s!"CPU {n}") []]
  .node .die die (some s!"{die}")
    [.node .module 0 (some "module 0") [core first, core (first + 1)]]

theorem twoModuleDies_consistent : Consistent twoModuleDies where
  readable := Snapshot.ofMachine_readable (by decide)
  hostname := by decide
  nodup := by decide
  cpuInt := by decide
  packageInt := by decide
  groups := by
    intro n hn
    have hn : n = 0 ∨ n = 1 := by simpa using (show n ∈ [0, 1] from hn)
    rcases hn with rfl | rfl
    · exact ⟨by decide, by decide, by decide, by decide⟩
    · exact ⟨by decide, by decide, by decide, by decide⟩
  groupPackage := by decide

end Machines

end Architecture
end X86Energy
