import X86Energy.ParseArchitecture.Threads

/-!
# Shapes of trees

Granularities get finer on the way down (`Graded`).  `Shaped` says which granularities
follow each other in a tree of the library, with any numbers of children; `Formed` allows
THREADs next to the COREs of a MODULE as well, and every tree that
`x86_energy_init_architecture_nodes` can return is formed.
-/

namespace X86Energy

/-- The values of `enum x86_energy_granularity`. -/
def Granularity.value : Granularity → Nat
  | .system => 0
  | .socket => 1
  | .die => 2
  | .module => 3
  | .core => 4
  | .thread => 5
  | .device => 6
  | .size => 7

namespace ArchNode

section Graded

/-- Granularities get finer from a node to its children. -/
def Graded (t : ArchNode) : Prop :=
  ∀ x ∈ t.preorder, ∀ c ∈ x.children, x.granularity.value < c.granularity.value

theorem Graded.child {t c : ArchNode} (h : t.Graded) (hc : c ∈ t.children) : c.Graded :=
  fun x hx => h x (mem_preorder_of_mem_children hc hx)

theorem graded_of_children {t : ArchNode}
    (h : ∀ c ∈ t.children, t.granularity.value < c.granularity.value ∧ c.Graded) : t.Graded := by
  intro x hx
  rw [preorder_eq_cons] at hx
  rcases List.mem_cons.mp hx with rfl | hx
  · exact fun c hc => (h c hc).1
  · obtain ⟨c, hc, hxc⟩ := List.mem_flatMap.mp hx
    exact (h c hc).2 x hxc

/-- A node is at least as fine as the root. -/
theorem Graded.le {t x : ArchNode} (h : t.Graded) (hx : x ∈ t.preorder) :
    t.granularity.value ≤ x.granularity.value := by
  induction t using induct with
  | h g i n cs ih =>
      rw [preorder_eq_cons] at hx
      rcases List.mem_cons.mp hx with rfl | hx
      · exact Nat.le_refl _
      · obtain ⟨c, hc, hxc⟩ := List.mem_flatMap.mp hx
        have hlt := h _ (self_mem_preorder _) c hc
        have hle := ih c hc (h.child hc) hxc
        exact Nat.le_trans (Nat.le_of_lt hlt) hle

theorem Graded.of_mem {t x : ArchNode} (h : t.Graded) (hx : x ∈ t.preorder) : x.Graded := by
  induction t using induct with
  | h g i n cs ih =>
      rw [preorder_eq_cons] at hx
      rcases List.mem_cons.mp hx with rfl | hx
      · exact h
      · obtain ⟨c, hc, hxc⟩ := List.mem_flatMap.mp hx
        exact ih c hc (h.child hc) hxc

/-- In a graded tree no granularity is nested. -/
theorem Graded.unnested {t : ArchNode} (h : t.Graded) (g : Granularity) : t.Unnested g := by
  intro x hx hg c hc
  rw [List.eq_nil_iff_forall_not_mem]
  intro y hy
  obtain ⟨hy, hyg⟩ := mem_level.mp hy
  have hlt := h x hx c hc
  have hle := ((h.of_mem hx).child hc).le hy
  rw [hg] at hlt
  rw [hyg] at hle
  exact absurd hlt (Nat.not_lt.mpr hle)

theorem IsThread.graded {t : ArchNode} (h : t.IsThread) : t.Graded :=
  graded_of_children fun c hc => by
    rw [h.2] at hc
    cases hc

theorem IsCore.graded {t : ArchNode} (h : t.IsCore) : t.Graded :=
  graded_of_children fun c hc =>
    ⟨by rw [h.1, (h.2.2 c hc).1]; decide, (h.2.2 c hc).graded⟩

end Graded

section Children

theorem populated_of_children {t : ArchNode} (hne : t.granularity ≠ .thread → t.children ≠ [])
    (h : ∀ c ∈ t.children, c.Populated) : t.Populated := by
  intro x hx hthread
  rw [preorder_eq_cons] at hx
  rcases List.mem_cons.mp hx with rfl | hx
  · exact hne hthread
  · obtain ⟨c, hc, hxc⟩ := List.mem_flatMap.mp hx
    exact h c hc x hxc hthread

theorem populated_of_core {t : ArchNode} (h : t.IsCore) : t.Populated := by
  refine populated_of_children (fun _ => h.2.1) fun c hc => ?_
  have hthread := h.2.2 c hc
  refine populated_of_children (fun hne => absurd hthread.1 hne) fun x hx => ?_
  rw [hthread.2] at hx
  cases hx

theorem populated_of_socket {t : ArchNode} (h : t.IsSocket) : t.Populated := by
  refine populated_of_children (fun _ => h.2.1) fun d hd => ?_
  have hdie := h.2.2 d hd
  refine populated_of_children (fun _ => hdie.2.1) fun c hc => ?_
  rcases hdie.2.2 c hc with hmod | hcore
  · exact populated_of_children (fun _ => hmod.2.1) fun x hx => populated_of_core (hmod.2.2 x hx)
  · exact populated_of_core hcore

theorem populated_of_layered {t : ArchNode} (h : t.Layered) (hne : t.children ≠ []) :
    t.Populated :=
  populated_of_children (fun _ => hne) fun s hs => populated_of_socket (h.2 s hs)

end Children

section Shapes

/-- A CORE with any number of THREADs. -/
def CoreShape (t : ArchNode) : Prop := t.granularity = .core ∧ ∀ c ∈ t.children, c.IsThread

def ModuleShape (t : ArchNode) : Prop := t.granularity = .module ∧ ∀ c ∈ t.children, c.CoreShape

def DieShape (t : ArchNode) : Prop :=
  t.granularity = .die ∧ ∀ c ∈ t.children, c.ModuleShape ∨ c.CoreShape

def SocketShape (t : ArchNode) : Prop := t.granularity = .socket ∧ ∀ c ∈ t.children, c.DieShape

/-- SYSTEM, SOCKET, DIE, maybe MODULE, CORE, THREAD, with any numbers of children. -/
def Shaped (t : ArchNode) : Prop := t.granularity = .system ∧ ∀ c ∈ t.children, c.SocketShape

theorem CoreShape.graded {t : ArchNode} (h : t.CoreShape) : t.Graded :=
  graded_of_children fun c hc => ⟨by rw [h.1, (h.2 c hc).1]; decide, (h.2 c hc).graded⟩

theorem ModuleShape.graded {t : ArchNode} (h : t.ModuleShape) : t.Graded :=
  graded_of_children fun c hc => ⟨by rw [h.1, (h.2 c hc).1]; decide, (h.2 c hc).graded⟩

theorem DieShape.graded {t : ArchNode} (h : t.DieShape) : t.Graded := by
  refine graded_of_children fun c hc => ?_
  rcases h.2 c hc with hmodule | hcore
  · exact ⟨by rw [h.1, hmodule.1]; decide, hmodule.graded⟩
  · exact ⟨by rw [h.1, hcore.1]; decide, hcore.graded⟩

theorem SocketShape.graded {t : ArchNode} (h : t.SocketShape) : t.Graded :=
  graded_of_children fun c hc => ⟨by rw [h.1, (h.2 c hc).1]; decide, (h.2 c hc).graded⟩

theorem Shaped.graded {t : ArchNode} (h : t.Shaped) : t.Graded :=
  graded_of_children fun c hc => ⟨by rw [h.1, (h.2 c hc).1]; decide, (h.2 c hc).graded⟩

/-- A MODULE with THREADs next to its COREs. -/
def MixedShape (t : ArchNode) : Prop :=
  t.granularity = .module ∧ ∀ c ∈ t.children, c.CoreShape ∨ c.IsThread

/-- What lies below the DIEs of every tree. -/
def MixedLayer (cs : List ArchNode) : Prop := ∀ c ∈ cs, c.MixedShape ∨ c.CoreShape

/-- The layers of every tree that `x86_energy_init_architecture_nodes` returns. -/
def Formed (t : ArchNode) : Prop :=
  t.granularity = .system ∧ ∀ s ∈ t.children, s.granularity = .socket ∧
    ∀ d ∈ s.children, d.granularity = .die ∧ MixedLayer d.children

theorem MixedShape.graded {t : ArchNode} (h : t.MixedShape) : t.Graded := by
  refine graded_of_children fun c hc => ?_
  rcases h.2 c hc with hcore | hthread
  · exact ⟨by rw [h.1, hcore.1]; decide, hcore.graded⟩
  · exact ⟨by rw [h.1, hthread.1]; decide, hthread.graded⟩

theorem Formed.graded {t : ArchNode} (h : t.Formed) : t.Graded := by
  refine graded_of_children fun s hs => ⟨by rw [h.1, (h.2 s hs).1]; decide, ?_⟩
  refine graded_of_children fun d hd => ?_
  obtain ⟨hg, hlayer⟩ := (h.2 s hs).2 d hd
  refine ⟨by rw [(h.2 s hs).1, hg]; decide, graded_of_children fun c hc => ?_⟩
  rcases hlayer c hc with hmixed | hcore
  · exact ⟨by rw [hg, hmixed.1]; decide, hmixed.graded⟩
  · exact ⟨by rw [hg, hcore.1]; decide, hcore.graded⟩

/-- The SOCKETs of a formed tree are the children of its root. -/
theorem Formed.mem_children {t s : ArchNode} (h : t.Formed) (hs : s ∈ t.preorder)
    (hsocket : s.granularity = .socket) : s ∈ t.children := by
  rw [preorder_eq_cons] at hs
  rcases List.mem_cons.mp hs with rfl | hs
  · rw [h.1] at hsocket
    cases hsocket
  · obtain ⟨c, hc, hsc⟩ := List.mem_flatMap.mp hs
    rw [preorder_eq_cons] at hsc
    rcases List.mem_cons.mp hsc with rfl | hsc
    · exact hc
    · -- a SOCKET is not below another one
      obtain ⟨d, hd, hsd⟩ := List.mem_flatMap.mp hsc
      have hnone := h.graded.unnested .socket c
        (mem_preorder_of_mem_children hc (self_mem_preorder c)) (h.2 c hc).1 d hd
      have hmem := mem_level.mpr ⟨hsd, hsocket⟩
      rw [hnone] at hmem
      exact absurd hmem List.not_mem_nil

theorem CoreShape.leaves {t : ArchNode} (h : t.CoreShape) : t.ThreadsAreLeaves :=
  leaves_of_children (by rw [h.1]; decide) fun c hc => (h.2 c hc).leaves

theorem MixedShape.leaves {t : ArchNode} (h : t.MixedShape) : t.ThreadsAreLeaves :=
  leaves_of_children (by rw [h.1]; decide) fun c hc =>
    (h.2 c hc).elim CoreShape.leaves IsThread.leaves

theorem Formed.leaves {t : ArchNode} (h : t.Formed) : t.ThreadsAreLeaves := by
  refine leaves_of_children (by rw [h.1]; decide) fun s hs => ?_
  refine leaves_of_children (by rw [(h.2 s hs).1]; decide) fun d hd => ?_
  obtain ⟨hg, hlayer⟩ := (h.2 s hs).2 d hd
  exact leaves_of_children (by rw [hg]; decide) fun c hc =>
    (hlayer c hc).elim MixedShape.leaves CoreShape.leaves

theorem IsCore.coreShape {t : ArchNode} (h : t.IsCore) : t.CoreShape := ⟨h.1, h.2.2⟩

theorem IsModule.moduleShape {t : ArchNode} (h : t.IsModule) : t.ModuleShape :=
  ⟨h.1, fun c hc => (h.2.2 c hc).coreShape⟩

/-- A layered tree is shaped. -/
theorem Layered.shaped {t : ArchNode} (h : t.Layered) : t.Shaped := by
  refine ⟨h.1, fun s hs => ⟨(h.2 s hs).1, fun d hd => ⟨((h.2 s hs).2.2 d hd).1, fun c hc => ?_⟩⟩⟩
  exact (((h.2 s hs).2.2 d hd).2.2 c hc).imp IsModule.moduleShape IsCore.coreShape

/-- A shaped tree is formed. -/
theorem Shaped.formed {t : ArchNode} (h : t.Shaped) : t.Formed := by
  refine ⟨h.1, fun s hs => ⟨(h.2 s hs).1, fun d hd => ⟨((h.2 s hs).2 d hd).1, fun c hc => ?_⟩⟩⟩
  rcases ((h.2 s hs).2 d hd).2 c hc with hmodule | hcore
  · exact .inl ⟨hmodule.1, fun x hx => .inl (hmodule.2 x hx)⟩
  · exact .inr hcore

end Shapes

end ArchNode
end X86Energy
