import X86Energy.ParseArchitecture.AnyBuild

/-!
# The node of a CPU

`x86_energy_find_arch_for_cpu` looks for the THREAD of a CPU and is meant to return the
node of the wanted granularity on the way to it.  When there is none on the way, it goes
down to the THREAD and returns that (`findArchForCpu_path`).
-/

namespace X86Energy
namespace ArchNode

mutual

/-- `x86_energy_find_arch_for_cpu`. -/
def findArchForCpu (g : Granularity) (cpu : Int) : ArchNode → Option ArchNode
  | node g' i n cs =>
      if g' = .thread then if i = cpu then some (node g' i n cs) else none
      else if g' = g then if findCpuAny cpu cs then some (node g' i n cs) else none
      else findArchForCpuAny g cpu cs

def findArchForCpuAny (g : Granularity) (cpu : Int) : List ArchNode → Option ArchNode
  | [] => none
  | c :: cs =>
      match findArchForCpu g cpu c with
      | some found => some found
      | none => findArchForCpuAny g cpu cs

end

theorem findArchForCpuAny_eq_findSome (g : Granularity) (cpu : Int) (cs : List ArchNode) :
    findArchForCpuAny g cpu cs = cs.findSome? (findArchForCpu g cpu) := by
  induction cs with
  | nil => rfl
  | cons c cs ih =>
      rw [findArchForCpuAny, List.findSome?_cons, ih]
      cases findArchForCpu g cpu c <;> rfl

/-- The nodes on the way from a node down to the THREAD of a CPU. -/
inductive PathTo (cpu : Int) : ArchNode → List ArchNode → Prop
  | thread {t : ArchNode} (hthread : t.granularity = .thread) (hid : t.id = cpu) : PathTo cpu t [t]
  | child {t c : ArchNode} {path : List ArchNode} (hc : c ∈ t.children) (h : PathTo cpu c path) :
      PathTo cpu t (t :: path)

section Paths

variable {t : ArchNode} {cpu : Int} {path : List ArchNode}

theorem PathTo.mem_preorder (h : PathTo cpu t path) : ∀ x ∈ path, x ∈ t.preorder := by
  induction h with
  | @thread t _ _ =>
      intro x hx
      rw [List.mem_singleton.mp hx]
      exact self_mem_preorder t
  | @child t c path hc _ ih =>
      intro x hx
      rcases List.mem_cons.mp hx with rfl | hx
      · exact self_mem_preorder x
      · exact mem_preorder_of_mem_children hc (ih x hx)

/-- Every node on the way has the THREAD below it. -/
theorem PathTo.mem_threads (h : PathTo cpu t path) : ∀ x ∈ path, cpu ∈ x.threads := by
  induction h with
  | @thread t hthread hid =>
      intro x hx
      rw [List.mem_singleton.mp hx, threads_eq, if_pos hthread, hid]
      simp
  | @child t c path hc hpath ih =>
      intro x hx
      rcases List.mem_cons.mp hx with rfl | hx
      · have hbelow : cpu ∈ c.threads := by
          cases hpath with
          | thread _ _ => exact ih c (by simp)
          | child _ _ => exact ih c (by simp)
        rw [threads_eq]
        exact List.mem_append_right _ (mem_blockThreads.mpr ⟨c, hc, hbelow⟩)
      · exact ih x hx

theorem PathTo.root_mem_threads (h : PathTo cpu t path) : cpu ∈ t.threads := by
  cases h with
  | thread hthread hid => exact (PathTo.thread hthread hid).mem_threads t (by simp)
  | child hc h => exact (PathTo.child hc h).mem_threads t (by simp)

/-- There is a way to every THREAD. -/
theorem exists_pathTo_iff : (∃ path, PathTo cpu t path) ↔ cpu ∈ t.threads := by
  constructor
  · rintro ⟨path, h⟩
    exact h.root_mem_threads
  · intro hmem
    induction t using induct with
    | h g i n cs ih =>
        rw [threads_eq, List.mem_append] at hmem
        rcases hmem with hself | hbelow
        · split at hself
          · rename_i hthread
            exact ⟨_, .thread hthread (List.mem_singleton.mp hself).symm⟩
          · cases hself
        · obtain ⟨c, hc, hmem⟩ := mem_blockThreads.mp hbelow
          obtain ⟨path, hpath⟩ := ih c hc hmem
          exact ⟨_, .child hc hpath⟩

/-- Without repeated THREADs one child at most has the CPU below it. -/
theorem eq_of_mem_blockThreads {cs : List ArchNode} (hnodup : (blockThreads cs).Nodup)
    {c c' : ArchNode} (hc : c ∈ cs) (hc' : c' ∈ cs) (hmem : cpu ∈ c.threads)
    (hmem' : cpu ∈ c'.threads) : c = c' := by
  have hdisjoint := (List.nodup_flatMap.mp hnodup).2
  have : Std.Symm (Function.onFun List.Disjoint threads) := ⟨fun _ _ hab => hab.symm⟩
  by_contra hne
  exact hdisjoint.forall hc hc' hne hmem hmem'

theorem nodup_blockThreads (h : t.threads.Nodup) : (blockThreads t.children).Nodup := by
  rw [threads_eq] at h
  exact (List.nodup_append.mp h).2.1

theorem nodup_child (h : t.threads.Nodup) {c : ArchNode} (hc : c ∈ t.children) :
    c.threads.Nodup :=
  (List.nodup_flatMap.mp (nodup_blockThreads h)).1 c hc

theorem ThreadsAreLeaves.not_thread (h : t.ThreadsAreLeaves) {c : ArchNode}
    (hc : c ∈ t.children) : t.granularity ≠ .thread := by
  intro hthread
  rw [h t (self_mem_preorder t) hthread] at hc
  cases hc

theorem ThreadsAreLeaves.of_children (h : t.ThreadsAreLeaves) {c : ArchNode}
    (hc : c ∈ t.children) : c.ThreadsAreLeaves :=
  fun x hx => h x (mem_preorder_of_mem_children hc hx)

/-- The way to a THREAD is the only one. -/
theorem PathTo.unique (h : PathTo cpu t path) (hleaves : t.ThreadsAreLeaves)
    (hnodup : t.threads.Nodup) {path' : List ArchNode} (h' : PathTo cpu t path') :
    path' = path := by
  induction h generalizing path' with
  | @thread t hthread _ =>
      cases h' with
      | thread _ _ => rfl
      | child hc _ => exact absurd hthread (hleaves.not_thread hc)
  | @child t c path hc hpath ih =>
      cases h' with
      | thread hthread _ => exact absurd hthread (hleaves.not_thread hc)
      | @child _ c' path' hc' hpath' =>
          obtain rfl := eq_of_mem_blockThreads (nodup_blockThreads hnodup) hc hc'
            hpath.root_mem_threads hpath'.root_mem_threads
          rw [ih (hleaves.of_children hc) (nodup_child hnodup hc) hpath']

/-- On the way down a granularity that is not nested is met once at most. -/
theorem PathTo.eq_of_granularity {g : Granularity} (h : PathTo cpu t path) (hun : t.Unnested g)
    {x y : ArchNode} (hx : x ∈ path) (hy : y ∈ path) (hxg : x.granularity = g)
    (hyg : y.granularity = g) : x = y := by
  induction h with
  | thread _ _ => rw [List.mem_singleton.mp hx, List.mem_singleton.mp hy]
  | @child t c path hc hpath ih =>
      have hbelow : t.granularity = g → ∀ z ∈ path, z.granularity ≠ g := by
        intro hg z hz hzg
        have hnil := hun t (self_mem_preorder t) hg c hc
        have hmem := mem_level.mpr ⟨hpath.mem_preorder z hz, hzg⟩
        rw [hnil] at hmem
        cases hmem
      rcases List.mem_cons.mp hx with rfl | hx
      · rcases List.mem_cons.mp hy with rfl | hy
        · rfl
        · exact absurd hyg (hbelow hxg y hy)
      · rcases List.mem_cons.mp hy with hy | hy
        · exact absurd hxg (hbelow (hy ▸ hyg) x hx)
        · exact ih (hun.child hc) hx hy

end Paths

section Find

variable {t : ArchNode} {cpu : Int} {g : Granularity}

/-- No THREAD, no node. -/
theorem findArchForCpu_absent (hleaves : t.ThreadsAreLeaves) (hmem : cpu ∉ t.threads) :
    findArchForCpu g cpu t = none := by
  induction t using induct with
  | h g' i n cs ih =>
      rw [threads_eq, List.mem_append, not_or] at hmem
      obtain ⟨hself, hbelow⟩ := hmem
      rw [findArchForCpu]
      by_cases hthread : g' = .thread
      · have hne : i ≠ cpu := fun hid => hself (by simp [hthread, hid])
        rw [if_pos hthread, if_neg hne]
      · rw [if_neg hthread]
        split
        · have hiff : findCpuAny cpu cs = true ↔ cpu ∈ blockThreads cs :=
            findCpuAny_iff fun c hc => hleaves.of_children hc
          rw [if_neg fun hfind => hbelow (hiff.mp hfind)]
        · rw [findArchForCpuAny_eq_findSome, List.findSome?_eq_none_iff]
          exact fun c hc => ih c hc (hleaves.of_children hc)
            fun hmem => hbelow (mem_blockThreads.mpr ⟨c, hc, hmem⟩)

/-- The only entry with a result gives the result. -/
theorem findSome_eq_of_unique {α β : Type*} {f : α → Option β} {l : List α} {a : α} {b : β}
    (ha : a ∈ l) (hfa : f a = some b) (hother : ∀ x ∈ l, x ≠ a → f x = none) :
    l.findSome? f = some b := by
  induction l with
  | nil => cases ha
  | cons x l ih =>
      rw [List.findSome?_cons]
      by_cases hx : x = a
      · rw [hx, hfa]
      · rw [hother x (by simp) hx]
        exact ih ((List.mem_cons.mp ha).resolve_left (Ne.symm hx)) fun y hy =>
          hother y (by simp [hy])

/-- **What the search returns**: the first node of the granularity on the way to the
THREAD, and the THREAD itself if there is none. -/
theorem findArchForCpu_path {path : List ArchNode} (h : PathTo cpu t path)
    (hleaves : t.ThreadsAreLeaves) (hnodup : t.threads.Nodup) :
    ∃ leaf, leaf ∈ path ∧ leaf.granularity = .thread ∧ leaf.id = cpu ∧
      findArchForCpu g cpu t = some ((path.find? fun x => x.granularity = g).getD leaf) := by
  induction h with
  | @thread t hthread hid =>
      refine ⟨t, by simp, hthread, hid, ?_⟩
      have hfound : findArchForCpu g cpu t = some t := by
        cases t with
        | node g' i n cs =>
            rw [granularity_node] at hthread
            rw [id_node] at hid
            rw [findArchForCpu, if_pos hthread, if_pos hid]
      rw [hfound, List.find?_cons]
      split <;> rfl
  | @child t c path hc hpath ih =>
      obtain ⟨leaf, hmem, hthread, hid, hfound⟩ :=
        ih (hleaves.of_children hc) (nodup_child hnodup hc)
      refine ⟨leaf, List.mem_cons_of_mem _ hmem, hthread, hid, ?_⟩
      have hne := hleaves.not_thread hc
      have hunique := fun c' (hc' : c' ∈ t.children) (hmem' : cpu ∈ c'.threads) =>
        eq_of_mem_blockThreads (nodup_blockThreads hnodup) hc' hc hmem' hpath.root_mem_threads
      have hsearch : findArchForCpuAny g cpu t.children =
          some ((path.find? fun x => x.granularity = g).getD leaf) := by
        rw [findArchForCpuAny_eq_findSome]
        refine findSome_eq_of_unique hc hfound fun c' hc' hother => ?_
        exact findArchForCpu_absent (hleaves.of_children hc')
          fun hmem' => hother (hunique c' hc' hmem')
      have hthere : findCpuAny cpu t.children = true :=
        (findCpuAny_iff fun c hc => hleaves.of_children hc).mpr
          (mem_blockThreads.mpr ⟨c, hc, hpath.root_mem_threads⟩)
      cases t with
      | node g' i n cs =>
          rw [granularity_node] at hne
          rw [children_node] at hsearch hthere
          rw [findArchForCpu, if_neg hne, List.find?_cons]
          by_cases hg : g' = g
          · simp [hg, hthere]
          · simp [hg, hsearch]

/-- A node of the granularity lies on the way to the THREAD. -/
def OnPath (t : ArchNode) (g : Granularity) (cpu : Int) (x : ArchNode) : Prop :=
  ∃ path, PathTo cpu t path ∧ x ∈ path ∧ x.granularity = g

/-- A node of the granularity with the THREAD below it is on the way. -/
theorem OnPath.of_mem_threads {x : ArchNode} (hx : x ∈ t.preorder) (hg : x.granularity = g)
    (hmem : cpu ∈ x.threads) : OnPath t g cpu x := by
  induction t using induct with
  | h g' i n cs ih =>
      rw [preorder_eq_cons] at hx
      rcases List.mem_cons.mp hx with rfl | hx
      · obtain ⟨path, hpath⟩ := exists_pathTo_iff.mpr hmem
        refine ⟨path, hpath, ?_, hg⟩
        cases hpath <;> simp
      · obtain ⟨c, hc, hxc⟩ := List.mem_flatMap.mp hx
        obtain ⟨path, hpath, hmemx, _⟩ := ih c hc hxc
        exact ⟨_, .child hc hpath, List.mem_cons_of_mem _ hmemx, hg⟩

/-- The result is the node of the granularity on the way to the THREAD, and `NULL` if
there is none. -/
structure FindsArch (t : ArchNode) (g : Granularity) (cpu : Int) : Prop where
  found : ∀ x, findArchForCpu g cpu t = some x ↔ OnPath t g cpu x
  missing : findArchForCpu g cpu t = none ↔ cpu ∉ t.threads ∨ ∀ x, ¬ OnPath t g cpu x

/-- A node of the granularity on the way is found. -/
theorem findArchForCpu_onPath (hleaves : t.ThreadsAreLeaves) (hnodup : t.threads.Nodup)
    (hun : t.Unnested g) {x : ArchNode} (hx : OnPath t g cpu x) :
    findArchForCpu g cpu t = some x := by
  obtain ⟨path, hpath, hmem, hg⟩ := hx
  obtain ⟨leaf, _, _, _, hfound⟩ := findArchForCpu_path (g := g) hpath hleaves hnodup
  obtain ⟨y, hy⟩ : ∃ y, path.find? (fun x => x.granularity = g) = some y := by
    apply Option.isSome_iff_exists.mp
    rw [List.find?_isSome]
    exact ⟨x, hmem, by simpa using hg⟩
  rw [hfound, hy, Option.getD_some]
  congr 1
  exact hpath.eq_of_granularity hun (List.mem_of_find?_eq_some hy) hmem
    (by simpa using List.find?_some hy) hg

theorem findsArch_iff (hleaves : t.ThreadsAreLeaves) (hnodup : t.threads.Nodup)
    (hun : t.Unnested g) :
    FindsArch t g cpu ↔ cpu ∉ t.threads ∨ ∃ x, OnPath t g cpu x := by
  have hthreads : ∀ x, OnPath t g cpu x → cpu ∈ t.threads :=
    fun x ⟨_, hpath, _⟩ => hpath.root_mem_threads
  constructor
  · intro h
    by_contra hnot
    rw [not_or, not_not] at hnot
    obtain ⟨hmem, hnone⟩ := hnot
    -- the search ends at the THREAD
    obtain ⟨path, hpath⟩ := exists_pathTo_iff.mpr hmem
    obtain ⟨leaf, _, _, _, hfound⟩ := findArchForCpu_path (g := g) hpath hleaves hnodup
    exact hnone ⟨_, (h.found _).mp hfound⟩
  · rintro (hmem | ⟨x, hx⟩)
    · have hnone := findArchForCpu_absent (g := g) hleaves hmem
      refine ⟨fun x => ⟨fun h => ?_, fun hx => absurd (hthreads x hx) hmem⟩,
        fun _ => .inl hmem, fun _ => hnone⟩
      rw [hnone] at h
      cases h
    · have hfound := findArchForCpu_onPath hleaves hnodup hun hx
      refine ⟨fun y => ⟨fun hy => ?_, fun hy => findArchForCpu_onPath hleaves hnodup hun hy⟩,
        fun hnone => ?_, ?_⟩
      · rw [hfound] at hy
        cases hy
        exact hx
      · rw [hfound] at hnone
        cases hnone
      · rintro (hmem | hnone)
        · exact absurd (hthreads x hx) hmem
        · exact absurd hx (hnone x)

end Find

end ArchNode

namespace ParseArchitecture

open ArchNode

/-- **When `x86_energy_find_arch_for_cpu` keeps its promise** on a tree of the library
without repeated THREADs: the CPU has no THREAD, or the granularity occurs on the way to
it. -/
theorem findsArch_of_init {S : Snapshot} {t : ArchNode} (hinit : initArchitectureNodes S = .ok t)
    (hnodup : t.threads.Nodup) (g : Granularity) (cpu : Int) :
    (∀ path path', PathTo cpu t path → PathTo cpu t path' → path' = path) ∧
      (FindsArch t g cpu ↔ cpu ∉ t.threads ∨ ∃ x, OnPath t g cpu x) := by
  have hformed := formed_of_init hinit
  exact ⟨fun path path' h h' => h.unique hformed.leaves hnodup h',
    findsArch_iff hformed.leaves hnodup (hformed.graded.unnested g)⟩

/-- One CPU, on a core of its own. -/
def oneCpu : Snapshot := .ofMachine [[0]] fun _ => ⟨0, 0, [0], [0]⟩

def oneCpuTree : ArchNode :=
  .node .system 0 (some "host") [.node .socket 0 (some "Processor 0") [.node .die 0 (some "0")
    [.node .core 0 (some "Core 0") [.node .thread 0 (some "CPU 0") []]]]]

theorem findsArch_of_init_oneCpu : FindsArch oneCpuTree .die 0 := by
  have hinit : initArchitectureNodes oneCpu = .ok oneCpuTree := by rfl
  have hpath : ∃ socket die core thread, PathTo 0 oneCpuTree [oneCpuTree, socket, die, core, thread] ∧
      die.granularity = .die :=
    ⟨_, _, _, _, .child (List.mem_singleton_self _) (.child (List.mem_singleton_self _)
      (.child (List.mem_singleton_self _) (.child (List.mem_singleton_self _)
        (.thread rfl rfl)))), rfl⟩
  obtain ⟨_, die, _, _, hpath, hg⟩ := hpath
  exact (findsArch_of_init hinit (by decide) .die 0).2.mpr (.inr ⟨die, _, hpath, by simp, hg⟩)

/-- **A granularity that the machine does not have**: the THREAD is returned. -/
theorem not_findsArch_oneCpu :
    initArchitectureNodes oneCpu = .ok oneCpuTree ∧ oneCpuTree.threads.Nodup ∧
      findArchForCpu .module 0 oneCpuTree = some (.node .thread 0 (some "CPU 0") []) ∧
      ¬ FindsArch oneCpuTree .module 0 := by
  refine ⟨rfl, by decide, rfl, fun h => ?_⟩
  obtain ⟨_, _, _, hg⟩ := (h.found (.node .thread 0 (some "CPU 0") [])).mp rfl
  cases hg

end ParseArchitecture
end X86Energy
