import X86Energy.ParseArchitecture.Accounting

/-!
# Nodes that lie in several packages

When a round of `process_node` reaches a CPU of another package, the DIE structure
is copied into that package together with its pointer to the children.  From then
on two DIEs of the tree share an array, or one of them points to an array that was
freed: the build is `Ruined`, and its tree has THREADs twice or cannot be read.
-/

namespace X86Energy
namespace ParseArchitecture

open CInt ArchNode

section Loose

/-- A MODULE that may have THREADs among its children, besides a CORE. -/
def IsMixed (t : ArchNode) : Prop :=
  t.granularity = .module ∧ (∃ x ∈ t.children, x.IsCore) ∧
    ∀ x ∈ t.children, x.IsCore ∨ x.IsThread

/-- The children of a DIE, whether or not rounds hit MODULEs. -/
def LooseLayer (cs : List ArchNode) : Prop := ∀ c ∈ cs, IsMixed c ∨ c.IsCore

theorem LooseLayer.findCpuAny_iff {cs : List ArchNode} (h : LooseLayer cs) (cpu : Int) :
    findCpuAny cpu cs = true ↔ cpu ∈ blockThreads cs := by
  have hleaves : ∀ c ∈ cs, c.ThreadsAreLeaves := by
    intro c hc
    rcases h c hc with hmixed | hcore
    · refine leaves_of_children (by rw [hmixed.1]; decide) fun x hx => ?_
      rcases hmixed.2.2 x hx with hx | hx
      · exact hx.leaves
      · exact hx.leaves
    · exact hcore.leaves
  exact ArchNode.findCpuAny_iff hleaves

theorem IsMixed.withThread {c : ArchNode} (h : IsMixed c) (cpu : Int) :
    IsMixed (withThread cpu c) := by
  obtain ⟨core, hmem, hcore⟩ := h.2.1
  refine ⟨by rw [granularity_withThread, h.1], ⟨core, mem_children_withThread hmem, hcore⟩,
    fun x hx => ?_⟩
  unfold ParseArchitecture.withThread at hx
  cases hfind : findChild (c.children.map ArchNode.id) cpu with
  | some _ =>
      rw [hfind] at hx
      exact h.2.2 x hx
  | none =>
      rw [hfind, children_setChildren, List.mem_append, List.mem_singleton] at hx
      rcases hx with hx | rfl
      · exact h.2.2 x hx
      · exact .inr (threadNode_isThread cpu)

theorem place_loose {S : Snapshot} {children : List ArchNode} (h : LooseLayer children)
    (cpu : Int) : LooseLayer (S.place children cpu) := by
  intro c hc
  by_cases hmod : S.Modular cpu
  · rw [place_modular hmod, List.mem_append, List.mem_singleton] at hc
    rcases hc with hc | rfl
    · exact h c hc
    · have hmodule := moduleNode_isModule children.length S.coreOf hmod.ne_nil
      obtain ⟨core, hcore⟩ := List.exists_mem_of_ne_nil _ hmodule.2.1
      exact .inl ⟨hmodule.1, ⟨core, hcore, hmodule.2.2 core hcore⟩,
        fun x hx => .inl (hmodule.2.2 x hx)⟩
  · rw [place_plain hmod] at hc
    rcases mem_placeThread_cases hc with hc | rfl | ⟨k, found, _, hfound, rfl⟩
    · exact h c hc
    · exact .inr (coreNode_isCore _ _)
    · exact (h found (List.mem_of_getElem? hfound)).imp (fun hm => hm.withThread cpu)
        withThread_isCore

theorem IsCore.threads_ne_nil {t : ArchNode} (h : t.IsCore) : t.threads ≠ [] := by
  rw [h.threads, ne_eq, List.map_eq_nil_iff]
  exact h.2.1

theorem blockThreads_ne_nil {cs : List ArchNode} (h : LooseLayer cs) (hne : cs ≠ []) :
    blockThreads cs ≠ [] := by
  obtain ⟨c, hc⟩ := List.exists_mem_of_ne_nil _ hne
  obtain ⟨x, hx⟩ : ∃ x, x ∈ c.threads := by
    rcases h c hc with hmixed | hcore
    · obtain ⟨core, hmem, hcore⟩ := hmixed.2.1
      obtain ⟨x, hx⟩ := List.exists_mem_of_ne_nil _ (IsCore.threads_ne_nil hcore)
      refine ⟨x, ?_⟩
      rw [threads_of_ne (by rw [hmixed.1]; decide)]
      exact mem_blockThreads.mpr ⟨core, hmem, hx⟩
    · exact List.exists_mem_of_ne_nil _ (IsCore.threads_ne_nil hcore)
  exact List.ne_nil_of_mem (mem_blockThreads.mpr ⟨c, hc, hx⟩)

theorem dieBlock_loose (S : Snapshot) (cpus : List Int) : LooseLayer (dieBlock S cpus) := by
  induction cpus using List.reverseRecOn with
  | nil => simp [dieBlock, LooseLayer]
  | append_singleton cpus cpu ih =>
      rw [dieBlock_append_singleton, dieStep]
      split
      · exact ih
      · exact place_loose ih cpu

end Loose

section Added

theorem threads_withThread (cpu : Int) (c : ArchNode) :
    ∃ new, (∀ x ∈ new, x = toInt32 cpu) ∧ (withThread cpu c).threads = c.threads ++ new := by
  unfold withThread
  cases findChild (c.children.map ArchNode.id) cpu with
  | some _ => exact ⟨[], by simp, by simp⟩
  | none =>
      refine ⟨[toInt32 cpu], by simp, ?_⟩
      simp only
      rw [threads_eq, threads_eq c, granularity_setChildren, id_setChildren, children_setChildren,
        blockThreads_append, blockThreads_singleton, threads_threadNode, List.append_assoc]

/-- Whatever it finds, a round never loses a THREAD and adds only the CPU. -/
theorem placeThread_added (children : List ArchNode) (core cpu : Int) :
    ∃ new, (∀ x ∈ new, x = toInt32 cpu) ∧
      (blockThreads (placeThread children core cpu)).Perm (blockThreads children ++ new) := by
  unfold placeThread
  cases hfind : findChild (children.map ArchNode.id) core with
  | none => exact ⟨[toInt32 cpu], by simp, by simp⟩
  | some k =>
      obtain ⟨found, hk, _⟩ := findChild_map_some hfind
      obtain ⟨new, hnew, hthreads⟩ := threads_withThread cpu found
      exact ⟨new, hnew, blockThreads_modify hk hthreads⟩

theorem placeGroup_added (coreOf : Int → Int) (cpus : List Int) :
    ∀ children, ∃ new, (∀ x ∈ new, ∃ c ∈ cpus, x = toInt32 c) ∧
      (blockThreads (placeGroup coreOf children cpus)).Perm (blockThreads children ++ new) := by
  induction cpus with
  | nil => exact fun children => ⟨[], by simp, by simp [placeGroup]⟩
  | cons cpu cpus ih =>
      intro children
      obtain ⟨new₁, hnew₁, hperm₁⟩ := placeThread_added children (coreOf cpu) cpu
      obtain ⟨new₂, hnew₂, hperm₂⟩ := ih (placeThread children (coreOf cpu) cpu)
      refine ⟨new₁ ++ new₂, fun x hx => ?_, ?_⟩
      · rcases List.mem_append.mp hx with hx | hx
        · exact ⟨cpu, by simp, hnew₁ x hx⟩
        · obtain ⟨c, hc, rfl⟩ := hnew₂ x hx
          exact ⟨c, by simp [hc], rfl⟩
      · rw [← List.append_assoc]
        exact hperm₂.trans (hperm₁.append_right new₂)

/-- A round adds the CPU or members of its L2 group. -/
theorem place_added (S : Snapshot) (children : List ArchNode) (cpu : Int) :
    ∃ new, (∀ x ∈ new, x = toInt32 cpu ∨ ∃ c ∈ S.sharedL2 cpu, x = toInt32 c) ∧
      (blockThreads (S.place children cpu)).Perm (blockThreads children ++ new) := by
  by_cases hmod : S.Modular cpu
  · rw [place_modular hmod, blockThreads_append, blockThreads_singleton, threads_moduleNode]
    obtain ⟨new, hnew, hperm⟩ := placeGroup_added S.coreOf (S.sharedL2 cpu) []
    exact ⟨new, fun x hx => .inr (hnew x hx), hperm.append_left _⟩
  · rw [place_plain hmod]
    obtain ⟨new, hnew, hperm⟩ := placeThread_added children (S.coreOf cpu) cpu
    exact ⟨new, fun x hx => .inl (hnew x hx), hperm⟩

end Added

section Ruined

/-- Every DIE has an array, and the arrays that can be read are children of a DIE. -/
def Build.Threaded (b : Build) : Prop :=
  ∀ p d ptr, b.addrAt p d = some ptr → ∃ a, ptr = some a ∧ a < b.next ∧
    ∀ cs, b.heap a = some cs → LooseLayer cs ∧ cs ≠ []

/-- A DIE whose array was freed or belongs to another DIE as well. -/
def Build.Ruined (b : Build) : Prop :=
  ∃ p d a, b.addrAt p d = some (some a) ∧
    (b.heap a = none ∨ ∃ p' d', (p', d') ≠ (p, d) ∧ b.addrAt p' d' = some (some a))

theorem Build.Threaded.eachArray {b : Build} (h : b.Threaded) :
    b.EachArray fun cs => LooseLayer cs ∧ cs ≠ [] := h

theorem Build.Threaded.allocated {b : Build} (h : b.Threaded) : b.Allocated :=
  h.eachArray.allocated

theorem Clean.threaded {b : Build} {done : Set Int} {pkg : Int → Int}
    {block : Int → List ArchNode} (h : Clean b done pkg block)
    (hblock : ∀ n ∈ done, LooseLayer (block n) ∧ block n ≠ []) : b.Threaded := by
  intro p d ptr haddr
  obtain ⟨n, hn⟩ := Build.dieIdAt_of_addrAt haddr
  obtain ⟨hdone, _, a, haddr', hlt, hheap⟩ := h.stored p d n hn
  rw [haddr] at haddr'
  cases haddr'
  refine ⟨a, rfl, hlt, fun cs hcs => ?_⟩
  rw [hheap] at hcs
  cases hcs
  exact hblock n hdone

variable {S : Snapshot} {st st' : NodeLoop} {cpu : Int} {p d : Nat} {ptr : Option Addr}
  {children : List ArchNode}

/-- A round leaves a THREAD in every array. -/
theorem Round.threaded (h : Round st st' p d ptr children (S.place children cpu))
    (hok : st.Ok) (hthreaded : st.build.Threaded) : st'.build.Threaded := by
  have hold : LooseLayer children := by
    rcases hthreaded.eachArray.loaded (hok.pointer h.source) h.loaded with rfl | hold
    · simp [LooseLayer]
    · exact hold.1
  exact h.eachArray hok (placeRound_ne_nil _ _ _ _ _)
    ⟨place_loose hold cpu, placeRound_ne_nil _ _ _ _ _⟩ hthreaded.eachArray

/-- A ruined build stays ruined. -/
theorem Round.ruined (h : Round st st' p d ptr children (S.place children cpu))
    (hall : st.build.Allocated) (hruined : st.build.Ruined) : st'.build.Ruined := by
  obtain ⟨p₁, d₁, a, haddr, hbad⟩ := hruined
  have hlt := hall p₁ d₁ a haddr
  -- the address at the cursor is that of the round
  have hcursor : ∀ p' d', (p', d') = (p, d) → st.build.addrAt p' d' = some (some a) →
      ptr = some a := by
    intro p' d' hpos hget
    cases hpos
    rcases h.source with ⟨_, hsource⟩ | ⟨_, hsource, _⟩
    · rw [hget] at hsource
      exact (Option.some.inj hsource).symm
    · rw [hget] at hsource
      cases hsource
  have hkeep : ∀ p' d', (p', d') ≠ (p, d) → st.build.addrAt p' d' = some (some a) →
      st'.build.addrAt p' d' = some (some a) :=
    fun p' d' hpos hget => by rw [h.elsewhere p' d' hpos, hget]
  have hheap := h.other hlt
  rcases hbad with hfreed | ⟨p₂, d₂, hne, haddr₂⟩
  · have hptr : ptr ≠ some a := by
      rintro rfl
      have hloaded := h.loaded
      rw [Build.loadAddr, hfreed] at hloaded
      cases hloaded
    have hpos : (p₁, d₁) ≠ (p, d) := fun hpos => hptr (hcursor p₁ d₁ hpos haddr)
    exact ⟨p₁, d₁, a, hkeep p₁ d₁ hpos haddr, .inl (by rw [hheap, if_neg hptr, hfreed])⟩
  · by_cases hptr : ptr = some a
    · by_cases hlen : (S.place children cpu).length = children.length
      · have hstay : ∀ p' d', st.build.addrAt p' d' = some (some a) →
            st'.build.addrAt p' d' = some (some a) := by
          intro p' d' hget
          by_cases hpos : (p', d') = (p, d)
          · cases hpos
            rw [h.cursor, storedAddr, if_pos hlen, hptr]
          · exact hkeep p' d' hpos hget
        exact ⟨p₁, d₁, a, hstay p₁ d₁ haddr, .inr ⟨p₂, d₂, hne, hstay p₂ d₂ haddr₂⟩⟩
      · have hnone : st'.build.heap a = none := by rw [hheap, if_pos hptr, if_neg hlen]
        by_cases hpos : (p₁, d₁) = (p, d)
        · exact ⟨p₂, d₂, a, hkeep p₂ d₂ (hpos ▸ hne) haddr₂, .inl hnone⟩
        · exact ⟨p₁, d₁, a, hkeep p₁ d₁ hpos haddr, .inl hnone⟩
    · have hpos₁ : (p₁, d₁) ≠ (p, d) := fun hpos => hptr (hcursor p₁ d₁ hpos haddr)
      have hpos₂ : (p₂, d₂) ≠ (p, d) := fun hpos => hptr (hcursor p₂ d₂ hpos haddr₂)
      exact ⟨p₁, d₁, a, hkeep p₁ d₁ hpos₁ haddr, .inr ⟨p₂, d₂, hne, hkeep p₂ d₂ hpos₂ haddr₂⟩⟩

/-- A round at a copy of a DIE ruins the build. -/
theorem Round.ruined_of_copy (h : Round st st' p d ptr children (S.place children cpu))
    (hall : st.build.Allocated) {p₀ d₀ : Nat} {a : Addr} (hne : (p₀, d₀) ≠ (p, d))
    (haddr : st.build.addrAt p₀ d₀ = some (some a)) (hptr : ptr = some a) :
    st'.build.Ruined := by
  have hkept : st'.build.addrAt p₀ d₀ = some (some a) := by rw [h.elsewhere p₀ d₀ hne, haddr]
  by_cases hlen : (S.place children cpu).length = children.length
  · exact ⟨p₀, d₀, a, hkept, .inr ⟨p, d, Ne.symm hne, by
      rw [h.cursor, storedAddr, if_pos hlen, hptr]⟩⟩
  · exact ⟨p₀, d₀, a, hkept, .inl (by
      rw [h.other (hall p₀ d₀ a haddr), if_pos hptr, if_neg hlen])⟩

variable {mem : InsertSite → Bool} (hmem : ∀ site, mem site = true)
include hmem

theorem processCpu_threaded (hok : st.Ok) (hthreaded : st.build.Threaded)
    (hread : S.CpuReadable cpu) (hstep : processCpu S mem st cpu = .ok st') :
    (st'.Ok ∧ st'.build.Threaded) ∧ (st.build.Ruined → st'.build.Ruined) := by
  rcases processCpu_granted hmem hok hread with ⟨_, _, _, hstop⟩ |
    ⟨_, _, ⟨_, hstay⟩ | ⟨_, st₂, d, ptr, children, hplace, _, hround⟩⟩
  · rw [hstop] at hstep
    cases hstep
  · rw [hstay] at hstep
    cases hstep
    exact ⟨⟨hok, hthreaded⟩, id⟩
  · rw [hplace] at hstep
    cases hstep
    exact ⟨⟨hround.ok, hround.threaded hok hthreaded⟩, hround.ruined hthreaded.allocated⟩

end Ruined

section Nodes

/-- A list with an entry off `P` has a first one. -/
theorem exists_first {α : Type*} {P : α → Prop} [DecidablePred P] {l : List α}
    (h : ∃ x ∈ l, ¬ P x) : ∃ pre x post, l = pre ++ x :: post ∧ (∀ y ∈ pre, P y) ∧ ¬ P x := by
  obtain ⟨x, hx, hnot⟩ := h
  have hsome : (l.find? fun y => ¬ P y).isSome := List.find?_isSome.mpr ⟨x, hx, by simpa using hnot⟩
  obtain ⟨y, hfirst⟩ := Option.isSome_iff_exists.mp hsome
  obtain ⟨hy, pre, post, rfl, hpre⟩ := List.find?_eq_some_iff_append.mp hfirst
  exact ⟨pre, y, post, rfl, by simpa using hpre, by simpa using hy⟩

variable {S : Snapshot} (hS : Consistent S)
include hS

/-- The rounds of a node keep the array addresses backed, and a ruined build stays ruined. -/
theorem processCpus_threaded {node : DieNode × Nat} {s t : NodeLoop} {rounds : List (Int × Nat)}
    (hread : ∀ round ∈ rounds, S.CpuReadable round.1) (hok : s.Ok) (hthreaded : s.build.Threaded)
    (hrun : processCpus S node.2 s rounds = .ok t) :
    (t.Ok ∧ t.build.Threaded) ∧ (s.build.Ruined → t.build.Ruined) := by
  have hround : ∀ u, ∀ round ∈ rounds, ∀ u', u.Ok ∧ u.build.Threaded →
      processCpu S (S.memory node.2 round.2) u round.1 = .ok u' →
      (u'.Ok ∧ u'.build.Threaded) ∧ (u.build.Ruined → u'.build.Ruined) :=
    fun u round hr u' hinv h =>
      processCpu_threaded (hS.readable.memory node.2 round.2) hinv.1 hinv.2 (hread round hr) h
  constructor
  · exact Transition.run_invariant (I := fun u : NodeLoop => u.Ok ∧ u.build.Threaded)
      (fun u r hr u' hinv h => (hround u r hr u' hinv h).1) ⟨hok, hthreaded⟩ hrun
  · exact fun hruined => (Transition.run_invariant
      (I := fun u : NodeLoop => (u.Ok ∧ u.build.Threaded) ∧ u.build.Ruined)
      (fun u r hr u' hinv h =>
        ⟨(hround u r hr u' hinv.1 h).1, (hround u r hr u' hinv.1 h).2 hinv.2⟩)
      ⟨⟨hok, hthreaded⟩, hruined⟩ hrun).2

theorem processNode_threaded {b b' : Build} (hb : b.Threaded) {node : DieNode × Nat}
    (hnode : node.1 ∈ getNodes S.nodeDir) (hstep : processNode S b node = .ok b') :
    b'.Threaded ∧ (b.Ruined → b'.Ruined) := by
  obtain ⟨_, st, hrun, rfl⟩ := processNode_ok hstep
  obtain ⟨⟨_, hthreaded⟩, hruined⟩ := processCpus_threaded hS
    (fun _ hround => cpuReadable_of_mem_zipIdx hS.readable hnode hround) (nodeLoop_ok hnode b) hb
    hrun
  exact ⟨hthreaded, hruined⟩

/-- The THREADs of a DIE that was built from CPUs of one package are of that package. -/
theorem packageOf_dieBlock {n : Int} (hn : n ∈ S.nodes) {pkg : Int} {pre : List Int}
    (hmem : ∀ c ∈ pre, c ∈ S.cpulist n) (hpkg : ∀ c ∈ pre, S.packageOf c = pkg) :
    ∀ x ∈ blockThreads (dieBlock S pre), S.packageOf x = pkg := by
  induction pre using List.reverseRecOn with
  | nil => simp [dieBlock]
  | append_singleton pre cpu ih =>
      have ih := ih (fun c hc => hmem c (by simp [hc])) (fun c hc => hpkg c (by simp [hc]))
      have hcpu : cpu ∈ S.cpulist n := hmem cpu (by simp)
      have honline := mem_online hn hcpu
      have hown : S.packageOf cpu = pkg := hpkg cpu (by simp)
      rw [dieBlock_append_singleton, dieStep]
      split
      · exact ih
      · obtain ⟨new, hnew, hperm⟩ := place_added S (dieBlock S pre) cpu
        intro x hx
        rcases List.mem_append.mp (hperm.mem_iff.mp hx) with hx | hx
        · exact ih x hx
        · rcases hnew x hx with rfl | ⟨c, hc, rfl⟩
          · rw [toInt32_of_isInt32 (hS.cpuInt cpu honline), hown]
          · have hc' := (hS.groups n hn).closed cpu hcpu c hc
            rw [toInt32_of_isInt32 (hS.cpuInt c (mem_online hn hc')),
              hS.groupPackage cpu honline c hc, hown]

/-- The round that reaches a CPU of another package ruins the build. -/
theorem processCpu_spanning {mem : InsertSite → Bool} (hmem : ∀ site, mem site = true)
    {n : Int} (hn : n ∈ S.nodes) {done : Set Int} {pkg : Int → Int}
    {block : Int → List ArchNode} {pre : List Int} (hne : pre ≠ [])
    (hpre : ∀ c ∈ pre, c ∈ S.cpulist n ∧ S.packageOf c = pkg n) {st st' : NodeLoop}
    (h : Growing n done pkg block st (dieBlock S pre)) {cpu : Int}
    (hcpu : cpu ∈ S.cpulist n) (hother : S.packageOf cpu ≠ pkg n)
    (hstep : processCpu S mem st cpu = .ok st') : st'.build.Ruined := by
  have hread : S.CpuReadable cpu := by
    obtain ⟨node, hnode, rfl⟩ := List.mem_map.mp hn
    exact hS.readable.cpu node hnode cpu hcpu
  have hint := hS.cpuInt cpu (mem_online hn hcpu)
  have hnot : findCpuAny (toInt32 cpu) (dieBlock S pre) = false := by
    rw [Bool.eq_false_iff, ne_eq, (dieBlock_loose S pre).findCpuAny_iff, toInt32_of_isInt32 hint]
    exact fun hmem => hother (packageOf_dieBlock hS hn (fun c hc => (hpre c hc).1)
      (fun c hc => (hpre c hc).2) cpu hmem)
  rcases h.state with ⟨hnil, _⟩ | ⟨p, d, hcursor, hid, hclean⟩
  · exact absurd hnil (dieBlock_ne_nil S hne)
  · rcases processCpu_granted hmem h.ok hread with ⟨_, _, _, hstop⟩ |
      ⟨present, hpresent, ⟨hfind, _⟩ | ⟨_, st₂, d', ptr, children, hplace, hids, hround⟩⟩
    · rw [hstop] at hstep
      cases hstep
    · rw [h.present] at hpresent
      cases hpresent
      rw [hnot] at hfind
      cases hfind
    · rw [hplace] at hstep
      cases hstep
      obtain ⟨_, hsocket, a, haddr, _, _⟩ := hclean.stored p d n hid
      obtain ⟨_, hget, hbefore⟩ :=
        openPackage_nodup hclean.nodup (hS.packageInt cpu (mem_online hn hcpu))
      have hp : (openPackage st.build (S.packageOf cpu)).2 ≠ p := by
        intro hp
        rw [hp, hbefore p _ hsocket] at hget
        exact hother (Option.some.inj hget).symm
      have hpos : (p, d) ≠ ((openPackage st.build (S.packageOf cpu)).2, d') :=
        fun heq => hp (Prod.mk.inj heq).1.symm
      rcases hround.source with ⟨hat, _⟩ | ⟨_, _, hptr⟩
      · have hwhere := NodeLoop.dieIdAt_of_dieAt hat
        rw [h.id] at hwhere
        exact absurd (hclean.unique _ _ _ _ n hid hwhere) hpos
      · obtain ⟨die, hdie⟩ := h.ok.cursor p d hcursor
        have hcopy : st.build.addrAt p d = some ptr := by
          rw [Build.addrAt, hdie, Option.map_some, ← NodeLoop.deref_inPackage hcursor hdie, hptr]
        exact hround.ruined_of_copy hclean.allocated hpos haddr
          (Option.some.inj (hcopy.symm.trans haddr))

/-- `process_node` for a node that spans packages ruins the build. -/
theorem processNode_spanning {b b' : Build} {done : Set Int} {block : Int → List ArchNode}
    (hclean : Clean b done S.nodePackage block) (hthreaded : b.Threaded) {node : DieNode × Nat}
    (hnode : node.1 ∈ getNodes S.nodeDir) (hn : node.1.id ∉ done)
    (hspan : ∃ c ∈ S.cpulist node.1.id, ¬ S.packageOf c = S.nodePackage node.1.id)
    (hstep : processNode S b node = .ok b') : b'.Ruined := by
  have hmem : node.1.id ∈ S.nodes := List.mem_map_of_mem hnode
  obtain ⟨pre, x, post, hsplit, hpre, hx⟩ := exists_first hspan
  have hne : pre ≠ [] := by
    rintro rfl
    rw [List.nil_append] at hsplit
    rw [Snapshot.nodePackage, hsplit] at hx
    exact hx rfl
  have hin : ∀ c ∈ pre, c ∈ S.cpulist node.1.id := fun c hc => by rw [hsplit]; simp [hc]
  have hxin : x ∈ S.cpulist node.1.id := by rw [hsplit]; simp
  have hint : IsInt32 (S.nodePackage node.1.id) := by
    obtain ⟨c, hc⟩ := List.exists_mem_of_ne_nil _ hne
    rw [← hpre c hc]
    exact hS.packageInt c (mem_online hmem (hin c hc))
  have hread : ∀ round ∈ (S.cpulist node.1.id).zipIdx, S.CpuReadable round.1 :=
    fun _ hround => cpuReadable_of_mem_zipIdx hS.readable hnode hround
  obtain ⟨_, st, hcpus, rfl⟩ := processNode_ok hstep
  rw [hsplit, List.zipIdx_append] at hcpus hread
  -- the rounds before `x` stay in the package
  obtain ⟨st₁, hrun, hgrown⟩ := processCpus_growing hS.readable hclean hnode hn hin hpre hint
  obtain ⟨⟨hok₁, hthreaded₁⟩, _⟩ := processCpus_threaded hS
    (fun round hround => hread round (List.mem_append_left _ hround)) (nodeLoop_ok hnode b)
    hthreaded hrun
  unfold processCpus at hcpus hrun
  rw [Transition.run_append hrun, List.zipIdx_cons] at hcpus
  rw [List.zipIdx_cons] at hread
  -- the round of `x` ruins the build, and the rest cannot repair it
  obtain ⟨st₂, hx₂, hpost⟩ := Transition.run_cons_success hcpus
  have hxread := hread _ (List.mem_append_right _ (List.mem_cons_self ..))
  have hruined := processCpu_spanning hS (hS.readable.memory node.2 _) hmem hne
    (fun c hc => ⟨hin c hc, hpre c hc⟩) hgrown hxin hx hx₂
  obtain ⟨⟨hok₂, hthreaded₂⟩, _⟩ :=
    processCpu_threaded (hS.readable.memory node.2 _) hok₁ hthreaded₁ hxread hx₂
  exact (processCpus_threaded hS
    (fun round hround => hread round (List.mem_append_right _ (List.mem_cons_of_mem _ hround)))
    hok₂ hthreaded₂ hpost).2 hruined

/-- A build with a node that spans packages ends ruined. -/
theorem run_ruined {block : Int → List ArchNode}
    (hblock : ∀ n, block n = dieBlock S (S.cpulist n)) (rest : List (DieNode × Nat)) :
    ∀ (seen : List Int) (b b' : Build), (∀ node ∈ rest, node.1 ∈ getNodes S.nodeDir) →
      (∃ node ∈ rest, ∃ c ∈ S.cpulist node.1.id,
        ¬ S.packageOf c = S.nodePackage node.1.id) →
      (busyNodes S (seen ++ rest.map fun node => node.1.id)).Nodup →
      Clean b (busy S seen) S.nodePackage block →
      Transition.run (processNode S) b rest = .ok b' → b'.Threaded ∧ b'.Ruined := by
  induction rest with
  | nil =>
      rintro seen b b' _ ⟨node, hnode, _⟩
      cases hnode
  | cons node rest ih =>
      intro seen b b' hnodes hspan hnodup hclean hrun
      have hnode : node.1 ∈ getNodes S.nodeDir := hnodes node (by simp)
      have hrest : ∀ m ∈ rest, m.1 ∈ getNodes S.nodeDir := fun m hm => hnodes m (by simp [hm])
      have hsplit : seen ++ (node :: rest).map (fun node => node.1.id) =
          seen ++ [node.1.id] ++ rest.map fun node => node.1.id := by simp
      rw [hsplit] at hnodup
      have hthreaded : b.Threaded := hclean.threaded fun n hn => by
        rw [hblock]
        exact ⟨dieBlock_loose S _, dieBlock_ne_nil S hn.2⟩
      obtain ⟨b₁, hstep, hlater⟩ := Transition.run_cons_success hrun
      by_cases hhere : ∃ c ∈ S.cpulist node.1.id, ¬ S.packageOf c = S.nodePackage node.1.id
      · have hruined :=
          processNode_spanning hS hclean hthreaded hnode (not_mem_busy hnodup) hhere hstep
        refine Transition.run_invariant (I := fun b : Build => b.Threaded ∧ b.Ruined)
          (fun b m hm b₂ hinv h => ?_)
          ⟨(processNode_threaded hS hthreaded hnode hstep).1, hruined⟩ hlater
        obtain ⟨hkept, hkeep⟩ := processNode_threaded hS hinv.1 (hrest m hm) h
        exact ⟨hkept, hkeep hinv.2⟩
      · have hpkg : ∀ c ∈ S.cpulist node.1.id, S.packageOf c = S.nodePackage node.1.id := by
          intro c hc
          by_contra hne
          exact hhere ⟨c, hc, hne⟩
        obtain ⟨b₂, hstep₂, hclean₂⟩ := processNode_busy hS.readable hblock hclean hnode
          (not_mem_busy hnodup) hpkg
          (fun c hc => hS.packageInt c (mem_online (List.mem_map_of_mem hnode) hc))
        rw [hstep] at hstep₂
        cases hstep₂
        refine ih (seen ++ [node.1.id]) b₁ b' hrest ?_ hnodup hclean₂ hlater
        obtain ⟨m, hm, hspan⟩ := hspan
        rcases List.mem_cons.mp hm with rfl | hm
        · exact absurd hspan hhere
        · exact ⟨m, hm, hspan⟩

/-- **A node that spans packages ruins the build.** -/
theorem processNodes_ruined (hspan : ¬ NoSpan S) {b : Build} (hrun : processNodes S = .ok b) :
    b.Threaded ∧ b.Ruined := by
  have hempty : busy S [] = ∅ := by simp [busy]
  have hexists : ∃ node ∈ (getNodes S.nodeDir).zipIdx, ∃ c ∈ S.cpulist node.1.id,
      ¬ S.packageOf c = S.nodePackage node.1.id := by
    by_contra hnone
    apply hspan
    intro n hn c hc c' hc'
    rw [← map_zipIdx_nodes] at hn
    obtain ⟨node, hnode, rfl⟩ := List.mem_map.mp hn
    have hall : ∀ x ∈ S.cpulist node.1.id, S.packageOf x = S.nodePackage node.1.id := by
      intro x hx
      by_contra hne
      exact hnone ⟨node, hnode, x, hx, hne⟩
    rw [hall c hc, hall c' hc']
  exact run_ruined hS (fun _ => rfl) (getNodes S.nodeDir).zipIdx [] .empty b
    (fun _ h => List.fst_mem_of_mem_zipIdx h) hexists
    (by rw [List.nil_append, map_zipIdx_nodes]; exact hS.busyNodes)
    (by rw [hempty]; exact Clean.empty _ _) hrun

end Nodes

section Finish

universe u

/-- The final loops keep a property of the arrays that each of their steps keeps, and
they end only if every array can be read. -/
theorem foldlM_updateDie_some {σ : Type u} {f : σ → List ArchNode → σ × List ArchNode}
    {P : List ArchNode → Prop} (hP : ∀ s cs, P cs → P (f s cs).2) {dies : List DieNode} :
    ∀ {s s' : σ} {b b' : Build}, dies.foldlM (updateDie f) (s, b) = some (s', b') →
      b'.sockets = b.sockets ∧
      (∀ a cs, b.heap a = some cs → P cs → ∃ cs', b'.heap a = some cs' ∧ P cs') ∧
      ∀ die ∈ dies, ∀ a, die.children = some a → b.heap a ≠ none := by
  induction dies with
  | nil =>
      intro s s' b b' h
      cases h
      exact ⟨rfl, fun a cs hcs hp => ⟨cs, hcs, hp⟩, by simp⟩
  | cons die dies ih =>
      intro s s' b b' h
      rw [List.foldlM_cons] at h
      obtain ⟨⟨s₁, b₁⟩, hstep, hlater⟩ := Option.bind_eq_some_iff.mp h
      obtain ⟨hsockets, hkeep, hlive⟩ := ih hlater
      rcases updateDie_cases hstep with ⟨hptr, rfl, rfl⟩ | ⟨a₀, cs₀, hptr, hcs₀, rfl, rfl⟩
      · refine ⟨hsockets, hkeep, fun d hd a ha => ?_⟩
        rcases List.mem_cons.mp hd with rfl | hd
        · rw [hptr] at ha
          cases ha
        · exact hlive d hd a ha
      · refine ⟨hsockets, fun a cs hcs hp => ?_, fun d hd a ha => ?_⟩
        · by_cases haa : a = a₀
          · subst haa
            rw [hcs₀] at hcs
            cases hcs
            exact hkeep a (f s cs₀).2 (by rw [Build.writeHeap_heap, if_pos rfl]) (hP s cs₀ hp)
          · exact hkeep a cs (by rw [Build.writeHeap_heap, if_neg haa, hcs]) hp
        · rcases List.mem_cons.mp hd with rfl | hd
          · rw [hptr] at ha
            cases ha
            rw [hcs₀]
            simp
          · have hread := hlive d hd a ha
            rw [Build.writeHeap_heap] at hread
            by_cases haa : a = a₀
            · rw [haa, hcs₀]
              simp
            · rwa [if_neg haa] at hread

theorem IsMixed.sort {t : ArchNode} (h : IsMixed t) : IsMixed (sortChildrenRecursive t) := by
  obtain ⟨hg, ⟨core, hmem, hcore⟩, hchildren⟩ := h
  refine ⟨by rw [granularity_sortChildrenRecursive, hg], ⟨_, ?_, hcore.sort⟩, fun x hx => ?_⟩
  · rw [children_sortChildrenRecursive]
    exact mem_sortBlock.mpr ⟨core, hmem, rfl⟩
  · rw [children_sortChildrenRecursive] at hx
    obtain ⟨x', hx', rfl⟩ := mem_sortBlock.mp hx
    exact (hchildren x' hx').imp IsCore.sort IsThread.sort

theorem sortBlock_loose {cs : List ArchNode} (h : LooseLayer cs ∧ cs ≠ []) :
    LooseLayer (sortBlock cs) ∧ sortBlock cs ≠ [] := by
  constructor
  · exact sortBlock_layer (M := IsMixed) (C := IsCore) (fun _ => IsMixed.sort)
      (fun _ => IsCore.sort) h.1
  · obtain ⟨c, hc⟩ := List.exists_mem_of_ne_nil _ h.2
    exact List.ne_nil_of_mem (mem_sortBlock.mpr ⟨c, hc, rfl⟩)

/-- The innermost loop writes ids and nothing else. -/
theorem renumberCores_forall₂ (k : Int) (cs : List ArchNode) :
    List.Forall₂ (fun c d => ∃ i, d = c.setId i) cs (renumberCores k cs).2 := by
  induction cs generalizing k with
  | nil => exact .nil
  | cons c cs ih => exact .cons ⟨k, rfl⟩ (ih (k + 1))

theorem renumberCores_mixed (k : Int) {c : ArchNode} (h : IsMixed c) :
    IsMixed (c.setChildren (renumberCores k c.children).2) := by
  obtain ⟨hg, ⟨core, hmem, hcore⟩, hchildren⟩ := h
  have hsame := renumberCores_forall₂ k c.children
  refine ⟨by rw [granularity_setChildren, hg], ?_, fun x hx => ?_⟩
  · obtain ⟨j, hj⟩ := List.mem_iff_getElem?.mp hmem
    obtain ⟨hlt, rfl⟩ := List.getElem?_eq_some_iff.mp hj
    have hlt' := hsame.length_eq ▸ hlt
    obtain ⟨i, hi⟩ := hsame.get hlt hlt'
    refine ⟨(renumberCores k c.children).2[j], ?_, ?_⟩
    · rw [children_setChildren]
      exact List.getElem_mem hlt'
    · change (renumberCores k c.children).2[j] = _ at hi
      rw [hi]
      exact setId_isCore.mpr hcore
  · rw [children_setChildren] at hx
    obtain ⟨j, hlt', rfl⟩ := List.mem_iff_getElem.mp hx
    have hlt := hsame.length_eq ▸ hlt'
    obtain ⟨i, hi⟩ := hsame.get hlt hlt'
    change (renumberCores k c.children).2[j] = _ at hi
    rw [hi]
    rcases hchildren _ (List.getElem_mem hlt) with hx | hx
    · exact .inl (setId_isCore.mpr hx)
    · exact .inr ⟨by rw [granularity_setId]; exact hx.1, by rw [children_setId]; exact hx.2⟩

theorem renumberDieChildren_loose (k : Int) {cs : List ArchNode}
    (h : LooseLayer cs ∧ cs ≠ []) :
    LooseLayer (renumberDieChildren k cs).2 ∧ (renumberDieChildren k cs).2 ≠ [] := by
  refine ⟨renumberDieChildren_layer (M := IsMixed) (C := IsCore) (fun c hc => ?_)
    (fun c hc => hc.1) (fun c k hc => renumberCores_mixed k hc)
    (fun c k hc => setId_isCore.mpr hc) k h.1, ?_⟩
  · rw [hc.1]
    decide
  · rw [← List.length_pos_iff, renumberDieChildren_length]
    exact List.length_pos_iff.mpr h.2

/-- The final loops of a build that ends: sorting the DIEs, then numbering their COREs. -/
theorem Build.finish_loops {b b' : Build} (h : b.finish = some b') :
    ∃ b₁ k, b.sortUpper.dies.foldlM (updateDie sortStep) ((), b.sortUpper) = some ((), b₁) ∧
      b₁.dies.foldlM (updateDie renumberDieChildren) (0, b₁) = some (k, b') := by
  unfold Build.finish at h
  simp only at h
  rw [foldlM_sortDie, renumberDie_eq] at h
  cases hsort : b.sortUpper.dies.foldlM (updateDie sortStep) ((), b.sortUpper) with
  | none =>
      rw [hsort] at h
      cases h
  | some r =>
      rw [hsort] at h
      obtain ⟨⟨k, b₂⟩, hnumber, heq⟩ := Option.map_eq_some_iff.mp h
      cases heq
      exact ⟨r.2, k, rfl, hnumber⟩

/-- What the final loops do with any build: they end only if every array can be read, and
keep a property of the arrays that sorting and numbering keep. -/
theorem Build.finish_some {P : List ArchNode → Prop} (hsort : ∀ cs, P cs → P (sortBlock cs))
    (hnumber : ∀ k cs, P cs → P (renumberDieChildren k cs).2) {b b' : Build}
    (h : b.finish = some b') :
    b'.sockets = b.sortUpper.sockets ∧
      (∀ a cs, b.heap a = some cs → P cs → ∃ cs', b'.heap a = some cs' ∧ P cs') ∧
      ∀ die ∈ b.dies, ∀ a, die.children = some a → b.heap a ≠ none := by
  obtain ⟨b₁, k, hsorted, hnumbered⟩ := Build.finish_loops h
  obtain ⟨hsockets₁, hkeep₁, hlive⟩ := foldlM_updateDie_some (fun _ => hsort) hsorted
  obtain ⟨hsockets₂, hkeep₂, _⟩ := foldlM_updateDie_some hnumber hnumbered
  refine ⟨hsockets₂.trans hsockets₁, fun a cs hcs hP => ?_, fun die hd => ?_⟩
  · obtain ⟨cs₁, hcs₁, hP₁⟩ := hkeep₁ a cs hcs hP
    exact hkeep₂ a cs₁ hcs₁ hP₁
  · exact hlive die ((Build.dies_sortUpper b).mem_iff.mpr hd)

/-- Finishing permutes the DIEs. -/
theorem Build.mem_dies_finish {b b' : Build} (hsockets : b'.sockets = b.sortUpper.sockets)
    {die : DieNode} : die ∈ b'.dies ↔ die ∈ b.dies := by
  rw [Build.dies, hsockets]
  exact (Build.dies_sortUpper b).mem_iff

/-- The finished tree of a build whose arrays have a property. -/
theorem Build.EachArray.finish {Q : List ArchNode → Prop} (hsort : ∀ cs, Q cs → Q (sortBlock cs))
    (hnumber : ∀ k cs, Q cs → Q (renumberDieChildren k cs).2) {b b' : Build}
    (h : b.EachArray Q) (hfinish : b.finish = some b') {hostname : Option String} {t : ArchNode}
    (ht : b'.tree hostname = some t) :
    t = b'.viewTree hostname ∧ ∀ die ∈ b'.dies, ∃ a, die.children = some a ∧
      b'.heap a = some (b'.viewBlock die) ∧ Q (b'.viewBlock die) := by
  obtain ⟨hsockets, hkeep, hlive⟩ := Build.finish_some hsort hnumber hfinish
  have hall : ∀ die ∈ b'.dies, ∃ a cs, die.children = some a ∧ b'.heap a = some cs ∧ Q cs := by
    intro die hd
    rw [Build.mem_dies_finish hsockets] at hd
    obtain ⟨socket, hs, hds⟩ := List.mem_flatMap.mp hd
    obtain ⟨p, d, haddr⟩ := Build.addrAt_of_mem hs hds
    obtain ⟨a, ha, _, hcs⟩ := h p d _ haddr
    obtain ⟨cs, hread⟩ := Option.ne_none_iff_exists'.mp (hlive die hd a ha)
    obtain ⟨cs', hread', hQ⟩ := hkeep a cs hread (hcs cs hread)
    exact ⟨a, cs', ha, hread', hQ⟩
  have hview := Build.tree_eq_view (b := b')
    (fun die hd => by
      obtain ⟨a, cs, ha, hcs, _⟩ := hall die hd
      exact ⟨a, cs, ha, hcs⟩) hostname
  rw [ht] at hview
  refine ⟨Option.some.inj hview, fun die hd => ?_⟩
  obtain ⟨a, cs, ha, hcs, hQ⟩ := hall die hd
  rw [(Build.loadChildren_eq_view ha hcs).2]
  exact ⟨a, ha, hcs, hQ⟩

/-- A ruined build that can be read at all shows one array under two DIEs. -/
theorem Build.Ruined.shared {b b' : Build} (h : b.Ruined) (hthreaded : b.Threaded)
    (hfinish : b.finish = some b') {hostname : Option String} {t : ArchNode}
    (ht : b'.tree hostname = some t) :
    ∃ b₂ : Build, t = b₂.viewTree hostname ∧
      (∀ die ∈ b₂.dies, LooseLayer (b₂.viewBlock die) ∧ b₂.viewBlock die ≠ []) ∧
      ¬ (b₂.dies.map DieNode.children).Nodup := by
  obtain ⟨hview, hall⟩ := Build.EachArray.finish (Q := fun cs => LooseLayer cs ∧ cs ≠ [])
    (fun _ => sortBlock_loose) (fun k _ => renumberDieChildren_loose k) hthreaded.eachArray
    hfinish ht
  obtain ⟨hsockets, _, hlive⟩ := Build.finish_some (P := fun _ => True)
    (fun _ _ => trivial) (fun _ _ _ => trivial) hfinish
  refine ⟨b', hview, fun die hd => ?_, fun hpointers => ?_⟩
  · obtain ⟨_, _, _, hloose⟩ := hall die hd
    exact hloose
  · have hdies : (b'.dies.map DieNode.children).Perm (b.dies.map DieNode.children) := by
      rw [Build.dies, hsockets]
      exact (Build.dies_sortUpper b).map _
    rw [hdies.nodup_iff, Build.dies_nodup_iff] at hpointers
    obtain ⟨p, d, a, haddr, hbad⟩ := h
    obtain ⟨die, hdie, ha⟩ := Option.map_eq_some_iff.mp haddr
    rcases hbad with hfreed | ⟨p', d', hne, haddr'⟩
    · obtain ⟨socket, hs, hd⟩ := Build.getDie_eq.mp hdie
      have hmem := Build.mem_dies (List.mem_of_getElem? hs) (List.mem_of_getElem? hd)
      exact hlive die hmem a ha hfreed
    · obtain ⟨die', hdie', ha'⟩ := Option.map_eq_some_iff.mp haddr'
      exact hne (hpointers p' d' p d die' die hdie' hdie (ha'.trans ha.symm))

/-- What the blocks of two DIEs with one pointer hold is there twice. -/
theorem Build.shared_not_nodup {β : Type*} {b : Build} {f : List ArchNode → List β}
    (hshared : ¬ (b.dies.map DieNode.children).Nodup)
    (hf : ∀ die ∈ b.dies, f (b.viewBlock die) ≠ []) :
    ¬ (b.dies.flatMap fun die => f (b.viewBlock die)).Nodup := by
  classical
  intro hnodup
  apply hshared
  -- the block of a DIE depends on its pointer alone
  let below : Option Addr → List β := fun ptr => f ((b.loadAddr ptr).getD [])
  have hbelow : ∀ die : DieNode, f (b.viewBlock die) = below die.children := by
    intro die
    rw [Build.viewBlock, Build.loadChildren_eq_loadAddr]
  have hflat : ((b.dies.map DieNode.children).flatMap below).Nodup := by
    rw [List.flatMap_map]
    simpa only [hbelow] using hnodup
  have hfilter := nodup_filter_of_flatMap hflat
  rwa [List.filter_eq_self.mpr] at hfilter
  intro ptr hptr
  obtain ⟨die, hd, rfl⟩ := List.mem_map.mp hptr
  rw [decide_eq_true_eq, ← hbelow]
  exact hf die hd

/-- **The tree of a ruined build has a THREAD twice**, if it can be read at all. -/
theorem Build.Ruined.not_nodup {b b' : Build} (h : b.Ruined) (hthreaded : b.Threaded)
    (hfinish : b.finish = some b') {hostname : Option String} {t : ArchNode}
    (ht : b'.tree hostname = some t) : ¬ t.threads.Nodup := by
  obtain ⟨b₂, rfl, hblocks, hshared⟩ := h.shared hthreaded hfinish ht
  rw [Build.threads_viewTree]
  exact Build.shared_not_nodup hshared fun die hd =>
    blockThreads_ne_nil (hblocks die hd).1 (hblocks die hd).2

end Finish

section Main

theorem initArchitectureNodes_ok {S : Snapshot} {t : ArchNode}
    (h : initArchitectureNodes S = .ok t) :
    ∃ hostname b b', processNodes S = .ok b ∧ b.finish = some b' ∧
      b'.tree hostname = some t := by
  unfold initArchitectureNodes at h
  cases hhost : S.hostname with
  | none =>
      rw [hhost] at h
      cases h
  | some hostname =>
      rw [hhost] at h
      cases hrun : processNodes S with
      | error e =>
          rw [hrun] at h
          cases h
      | ok b =>
          rw [hrun] at h
          cases hfinish : b.finish with
          | none =>
              simp only [hfinish] at h
              cases h
          | some b' =>
              cases htree : b'.tree (some hostname) with
              | none =>
                  simp only [hfinish, htree] at h
                  cases h
              | some t' =>
                  simp only [hfinish, htree] at h
                  cases h
                  exact ⟨some hostname, b, b', rfl, hfinish, htree⟩

/-- Two packages: node 0 has a MODULE of CPUs 0 and 1 and a core with the CPUs 2 and 3,
node 1 has the CPUs 4 and 5. -/
def twoPackages : Snapshot :=
  .ofMachine [[0, 1, 2, 3], [4, 5]] fun cpu =>
    if cpu = 0 then ⟨0, 0, [0, 1], [0]⟩
    else if cpu = 1 then ⟨0, 1, [0, 1], [1]⟩
    else if cpu < 4 then ⟨0, 2, [2, 3], [2, 3]⟩
    else ⟨1, cpu, [cpu], [cpu]⟩

theorem twoPackages_consistent : Consistent twoPackages where
  readable := Snapshot.ofMachine_readable (by decide)
  hostname := by decide
  nodup := by decide
  cpuInt := by decide
  packageInt := by decide
  groups := by
    intro n hn
    have hn : n = 0 ∨ n = 1 := by simpa using (show n ∈ [0, 1] from hn)
    rcases hn with rfl | rfl
    · exact ⟨by decide, by decide, by decide, by decide⟩
    · exact ⟨by decide, by decide, by decide, by decide⟩
  groupPackage := by decide

theorem twoPackages_leaders : LeadersFirst twoPackages := by
  intro n hn
  have hcpus : (twoPackages.cpulist n).Nodup :=
    (List.nodup_flatMap.mp twoPackages_consistent.nodup).1 n hn
  refine (GroupCover.cover_nodup_iff (twoPackages_consistent.groups n hn) (fun _ hx => hx) hcpus).mp ?_
  revert n
  decide

end Main

end ParseArchitecture
end X86Energy
