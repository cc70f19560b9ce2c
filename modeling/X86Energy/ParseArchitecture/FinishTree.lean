import X86Energy.Library.Partial
import X86Energy.ParseArchitecture.CoreNumbers

/-!
# What sorting and renumbering do to a layered tree

Sorting permutes every array of children and renumbering only writes ids of COREs.
So the layers stay, the SOCKETs and DIEs keep their ids and their THREADs, and the
COREs get the numbers 0, 1, … in the order of the tree.
-/

namespace X86Energy

open Partial

namespace ArchNode

section Sorting

theorem mem_sortBlock {cs : List ArchNode} {c : ArchNode} :
    c ∈ sortBlock cs ↔ ∃ c' ∈ cs, sortChildrenRecursive c' = c := by
  rw [(sortBlock_perm cs).mem_iff, List.mem_map]

@[simp] theorem children_sortChildrenRecursive (t : ArchNode) :
    (sortChildrenRecursive t).children = sortBlock t.children := by
  cases t with
  | node g i n cs => rw [sortChildrenRecursive_node, children_node, children_node]

/-- A layer that asks for a granularity, for some children and for a property of the
children survives sorting if the property does. -/
theorem layer_sort {P : ArchNode → Prop}
    (hP : ∀ c, P c → P (sortChildrenRecursive c)) {g : Granularity} {t : ArchNode}
    (h : t.granularity = g ∧ t.children ≠ [] ∧ ∀ c ∈ t.children, P c) :
    (sortChildrenRecursive t).granularity = g ∧ (sortChildrenRecursive t).children ≠ [] ∧
      ∀ c ∈ (sortChildrenRecursive t).children, P c := by
  obtain ⟨hg, hne, hchildren⟩ := h
  rw [granularity_sortChildrenRecursive, children_sortChildrenRecursive]
  refine ⟨hg, ?_, fun c hc => ?_⟩
  · obtain ⟨c, hc⟩ := List.exists_mem_of_ne_nil _ hne
    exact List.ne_nil_of_mem (mem_sortBlock.mpr ⟨c, hc, rfl⟩)
  · obtain ⟨c', hc', rfl⟩ := mem_sortBlock.mp hc
    exact hP c' (hchildren c' hc')

/-- Sorting keeps a layer of two kinds of nodes if it keeps both kinds. -/
theorem sortBlock_layer {M C : ArchNode → Prop} (hM : ∀ c, M c → M (sortChildrenRecursive c))
    (hC : ∀ c, C c → C (sortChildrenRecursive c)) {cs : List ArchNode}
    (h : ∀ c ∈ cs, M c ∨ C c) : ∀ c ∈ sortBlock cs, M c ∨ C c := by
  intro c hc
  obtain ⟨c', hc', rfl⟩ := mem_sortBlock.mp hc
  exact (h c' hc').imp (hM c') (hC c')

theorem IsThread.sort {t : ArchNode} (h : t.IsThread) : (sortChildrenRecursive t).IsThread := by
  refine ⟨by rw [granularity_sortChildrenRecursive, h.1], ?_⟩
  rw [children_sortChildrenRecursive, h.2]
  rfl

theorem IsCore.sort {t : ArchNode} (h : t.IsCore) : (sortChildrenRecursive t).IsCore :=
  layer_sort (P := IsThread) (fun _ => IsThread.sort) h

theorem IsModule.sort {t : ArchNode} (h : t.IsModule) : (sortChildrenRecursive t).IsModule :=
  layer_sort (P := IsCore) (fun _ => IsCore.sort) h

theorem IsDie.sort {t : ArchNode} (h : t.IsDie) : (sortChildrenRecursive t).IsDie :=
  layer_sort (P := fun c => c.IsModule ∨ c.IsCore)
    (fun _ hc => hc.imp IsModule.sort IsCore.sort) h

theorem IsSocket.sort {t : ArchNode} (h : t.IsSocket) : (sortChildrenRecursive t).IsSocket :=
  layer_sort (P := IsDie) (fun _ => IsDie.sort) h

theorem Layered.sort {t : ArchNode} (h : t.Layered) : (sortChildrenRecursive t).Layered := by
  refine ⟨by rw [granularity_sortChildrenRecursive, h.1], fun c hc => ?_⟩
  rw [children_sortChildrenRecursive] at hc
  obtain ⟨c', hc', rfl⟩ := mem_sortBlock.mp hc
  exact (h.2 c' hc').sort

end Sorting

section Renumbering

@[simp] theorem setId_isCore {t : ArchNode} {i : Int} : (t.setId i).IsCore ↔ t.IsCore := by
  simp [IsCore]

theorem renumberDieChildren_length (k : Int) (cs : List ArchNode) :
    (renumberDieChildren k cs).2.length = cs.length := by
  induction cs generalizing k with
  | nil => rfl
  | cons c cs ih =>
      rw [renumberDieChildren]
      split
      · simp [ih]
      · simp [ih]

/-- Numbering keeps a layer of MODULEs and COREs if it keeps both kinds. -/
theorem renumberDieChildren_layer {M C : ArchNode → Prop}
    (hne : ∀ c, M c → c.granularity ≠ .core) (hcore : ∀ c, C c → c.granularity = .core)
    (hM : ∀ c k, M c → M (c.setChildren (renumberCores k c.children).2))
    (hC : ∀ c k, C c → C (c.setId k)) (k : Int) {cs : List ArchNode}
    (h : ∀ c ∈ cs, M c ∨ C c) : ∀ c ∈ (renumberDieChildren k cs).2, M c ∨ C c := by
  induction cs generalizing k with
  | nil => exact h
  | cons c cs ih =>
      have hrest : ∀ x ∈ cs, M x ∨ C x := fun x hx => h x (by simp [hx])
      rw [renumberDieChildren]
      intro x hx
      split at hx
      · rename_i hg
        rcases List.mem_cons.mp hx with rfl | hx
        · exact .inr (hC c k ((h c (by simp)).resolve_left fun hm => hne c hm hg))
        · exact ih (k + 1) hrest x hx
      · rename_i hg
        rcases List.mem_cons.mp hx with rfl | hx
        · exact .inl (hM c k ((h c (by simp)).resolve_right fun hc => hg (hcore c hc)))
        · exact ih _ hrest x hx

/-- The nodes of two arrays agree in id and THREADs, entry by entry. -/
def SameThreads (cs ds : List ArchNode) : Prop :=
  List.Forall₂ (fun c d => d.id = c.id ∧ d.threads = c.threads) cs ds

theorem SameThreads.exists_mem {cs ds : List ArchNode} (h : SameThreads cs ds) {c : ArchNode}
    (hc : c ∈ cs) : ∃ d ∈ ds, d.id = c.id ∧ d.threads = c.threads :=
  exists_of_mem_forall₂ h hc

/-- The SOCKETs of two arrays agree in id and THREADs, entry by entry, and so do their
DIEs. -/
def SameSockets (cs ds : List ArchNode) : Prop :=
  List.Forall₂
    (fun c d => d.id = c.id ∧ d.threads = c.threads ∧ SameThreads c.children d.children) cs ds

/-- The layers do not depend on the ids of the COREs. -/
@[simp] theorem isThread_forgetCoreIds (t : ArchNode) :
    (forgetCoreIds t).IsThread ↔ t.IsThread := by
  simp [IsThread]

@[simp] theorem isCore_forgetCoreIds (t : ArchNode) : (forgetCoreIds t).IsCore ↔ t.IsCore := by
  simp [IsCore]

@[simp] theorem isModule_forgetCoreIds (t : ArchNode) :
    (forgetCoreIds t).IsModule ↔ t.IsModule := by
  simp [IsModule]

@[simp] theorem isDie_forgetCoreIds (t : ArchNode) : (forgetCoreIds t).IsDie ↔ t.IsDie := by
  simp [IsDie, DieLayer]

@[simp] theorem isSocket_forgetCoreIds (t : ArchNode) :
    (forgetCoreIds t).IsSocket ↔ t.IsSocket := by
  simp [IsSocket]

@[simp] theorem threads_forgetCoreIds (t : ArchNode) :
    (forgetCoreIds t).threads = t.threads :=
  idsAt_forgetCoreIds (by decide) t

/-- A loop keeps what does not depend on the ids of the COREs. -/
theorem Renumbers.keeps {P : ArchNode → Prop} (hP : ∀ t, P (forgetCoreIds t) ↔ P t) {k : Int}
    {cs : List ArchNode} {r : Int × List ArchNode} (h : Renumbers k cs r)
    (hcs : ∀ c ∈ cs, P c) : ∀ c ∈ r.2, P c := by
  intro c hc
  have hmem : forgetCoreIds c ∈ cs.map forgetCoreIds := by
    rw [← h.rest]
    exact List.mem_map_of_mem hc
  obtain ⟨c', hc', heq⟩ := List.mem_map.mp hmem
  rw [← hP, ← heq, hP]
  exact hcs c' hc'

/-- The loop over the children of a DIE keeps the layers and the THREADs. -/
theorem renumberDieChildren_layered (k : Int) {cs : List ArchNode} (h : DieLayer cs) :
    DieLayer (renumberDieChildren k cs).2 ∧
      blockThreads (renumberDieChildren k cs).2 = blockThreads cs := by
  have hloop := renumberDieChildren_renumbers k fun c hc =>
    (h c hc).imp IsModule.moduleShape IsCore.coreShape
  exact ⟨hloop.keeps (P := fun c => c.IsModule ∨ c.IsCore) (fun t => by simp) h,
    hloop.blockThreads⟩

/-- Arrays that differ in the ids of COREs only. -/
theorem sameThreads_of_forget {cs ds : List ArchNode}
    (h : ds.map forgetCoreIds = cs.map forgetCoreIds) (hne : ∀ c ∈ cs, c.granularity ≠ .core) :
    SameThreads cs ds := by
  refine forall₂_of_map_eq h fun c hc d hd => ?_
  have hg : d.granularity = c.granularity := by
    rw [← granularity_forgetCoreIds, hd, granularity_forgetCoreIds]
  constructor
  · rw [← id_forgetCoreIds (hne c hc), ← hd, id_forgetCoreIds (hg ▸ hne c hc)]
  · rw [← threads_forgetCoreIds, hd, threads_forgetCoreIds]

theorem sameSockets_of_forget {cs ds : List ArchNode}
    (h : ds.map forgetCoreIds = cs.map forgetCoreIds) (hcs : ∀ c ∈ cs, c.IsSocket) :
    SameSockets cs ds := by
  refine forall₂_of_map_eq h fun c hc d hd => ?_
  have hsocket : c.IsSocket := hcs c hc
  have hone : SameThreads [c] [d] :=
    sameThreads_of_forget (by simpa using hd) fun x hx => by
      rw [List.mem_singleton.mp hx, hsocket.1]
      decide
  obtain ⟨⟨hid, hthreads⟩, _⟩ := List.forall₂_cons.mp hone
  refine ⟨hid, hthreads, sameThreads_of_forget ?_ fun x hx => ?_⟩
  · rw [← children_forgetCoreIds, hd, children_forgetCoreIds]
  · rw [(hsocket.2.2 x hx).1]
    decide

end Renumbering

section Finish

theorem children_finish (t : ArchNode) :
    (finish t).children = (renumberSockets 0 (sortBlock t.children)).2 := by
  rw [finish, renumber, children_setChildren, children_sortChildrenRecursive]

@[simp] theorem granularity_finish (t : ArchNode) :
    (finish t).granularity = t.granularity := by
  rw [finish, renumber, granularity_setChildren, granularity_sortChildrenRecursive]

@[simp] theorem id_finish (t : ArchNode) : (finish t).id = t.id := by
  rw [finish, renumber, id_setChildren, id_sortChildrenRecursive]

theorem SameSockets.map_id {cs ds : List ArchNode} (h : SameSockets cs ds) :
    ds.map ArchNode.id = cs.map ArchNode.id := by
  induction h with
  | nil => rfl
  | cons hcd _ ih => rw [List.map_cons, List.map_cons, hcd.1, ih]

theorem SameSockets.exists_mem {cs ds : List ArchNode} (h : SameSockets cs ds) {c : ArchNode}
    (hc : c ∈ cs) :
    ∃ d ∈ ds, d.id = c.id ∧ d.threads = c.threads ∧ SameThreads c.children d.children :=
  exists_of_mem_forall₂ h hc

variable {t : ArchNode} (h : t.Layered)
include h

theorem sortBlock_sockets : ∀ s ∈ sortBlock t.children, s.IsSocket := by
  intro s hs
  obtain ⟨s', hs', rfl⟩ := mem_sortBlock.mp hs
  exact (h.2 s' hs').sort

/-- The loops over the sorted tree write the ids of COREs and nothing else. -/
theorem Layered.renumbers :
    Renumbers 0 (sortBlock t.children) (renumberSockets 0 (sortBlock t.children)) := by
  have hshaped := h.sort.shaped.2
  rw [children_sortChildrenRecursive] at hshaped
  exact renumberSockets_renumbers 0 hshaped

/-- The finished tree is layered. -/
theorem Layered.finished : (finish t).Layered := by
  refine ⟨by rw [granularity_finish, h.1], ?_⟩
  rw [children_finish]
  exact h.renumbers.keeps isSocket_forgetCoreIds (sortBlock_sockets h)

/-- **The COREs of a finished layered tree are numbered 0, 1, … in order.** -/
theorem Layered.coreIds_finish : ∃ n : Nat, (finish t).coreIds = numbers 0 n := by
  rw [coreIds_of_ne (by rw [granularity_finish, h.1]; decide), children_finish]
  exact ⟨_, h.renumbers.ids⟩

theorem Layered.sameSockets :
    SameSockets (sortBlock t.children) (finish t).children := by
  rw [children_finish]
  exact sameSockets_of_forget h.renumbers.rest (sortBlock_sockets h)

/-- Finishing permutes every level but the COREs. -/
theorem Layered.idsAt_finish {g : Granularity} (hg : g ≠ .core) :
    (idsAt g (finish t)).Perm (idsAt g t) := by
  have hsame := ((renumberSockets_renumbers 0 h.sort.shaped.2).below h.sort.shaped.ne_core).2.2
  rw [finish, ← idsAt_forgetCoreIds hg, renumber, hsame, idsAt_forgetCoreIds hg]
  exact idsAt_sortChildrenRecursive g t

/-- Finishing a layered tree permutes its THREADs. -/
theorem Layered.threads_finish : (finish t).threads.Perm t.threads :=
  h.idsAt_finish (by decide)

/-- The SOCKETs keep their ids. -/
theorem Layered.socketIds_finish :
    ((finish t).children.map ArchNode.id).Perm (t.children.map ArchNode.id) := by
  rw [h.sameSockets.map_id]
  have hids : t.children.map (ArchNode.id ∘ sortChildrenRecursive) =
      t.children.map ArchNode.id :=
    List.map_congr_left fun s _ => id_sortChildrenRecursive s
  have hsort := (sortBlock_perm t.children).map ArchNode.id
  rw [List.map_map, hids] at hsort
  exact hsort

/-- Every SOCKET and each of its DIEs is found again, with its id and its THREADs. -/
theorem Layered.place_finish {s d : ArchNode} (hs : s ∈ t.children) (hd : d ∈ s.children) :
    ∃ s' ∈ (finish t).children, s'.id = s.id ∧ s'.threads.Perm s.threads ∧
      ∃ d' ∈ s'.children, d'.id = d.id ∧ d'.threads.Perm d.threads := by
  obtain ⟨s', hs', hid, hthreads, hdies⟩ :=
    h.sameSockets.exists_mem (mem_sortBlock.mpr ⟨s, hs, rfl⟩)
  have hd' : sortChildrenRecursive d ∈ (sortChildrenRecursive s).children := by
    rw [children_sortChildrenRecursive]
    exact mem_sortBlock.mpr ⟨d, hd, rfl⟩
  obtain ⟨d', hd', hdid, hdthreads⟩ := hdies.exists_mem hd'
  refine ⟨s', hs', by rw [hid, id_sortChildrenRecursive], ?_, d', hd',
    by rw [hdid, id_sortChildrenRecursive], ?_⟩
  · rw [hthreads]
    exact threads_sortChildrenRecursive s
  · rw [hdthreads]
    exact threads_sortChildrenRecursive d

end Finish

end ArchNode

end X86Energy
