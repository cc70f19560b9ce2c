import X86Energy.Library.Partial
import X86Energy.ParseArchitecture.Layering

/-!
# Which builds deliver a layered tree

Besides a CPU that hits a MODULE one thing more breaks a tree: a DIE structure that
was copied into a second package shares its array with the original until one of
them grows, which frees the array of the other.

`RoundFine` is the guard of a round and `BuildFine` says that every round of the
build meets it.  `Build.Sound` is the invariant of the fine builds;
`Build.Doomed` is what a round that is not fine leaves behind, and what no later
round repairs.
-/

namespace X86Energy
namespace ParseArchitecture

open CInt ArchNode

section Guard

/-- The DIE structure whose children a round for a CPU of this package changes: the
one of this NUMA node in the package, else a copy of `*node`. -/
def NodeLoop.target (st : NodeLoop) (packageId : Int) : DieNode :=
  match st.targetPos packageId with
  | none => st.deref
  | some (p, d) => (st.build.getDie p d).getD st.deref

/-- The round makes an array grow that a second DIE structure points to. -/
def MovesShared (S : Snapshot) (st : NodeLoop) (children : List ArchNode) (cpu : Int) : Prop :=
  (S.place children cpu).length ≠ children.length ∧
  ∃ a p d, (st.target (S.packageOf cpu)).children = some a ∧
    st.build.addrAt p d = some (some a) ∧ st.targetPos (S.packageOf cpu) ≠ some (p, d)

/-- The round for this CPU, if it places the CPU at all, hits no MODULE and moves no
shared array. -/
def RoundFine (S : Snapshot) (st : NodeLoop) (cpu : Int) : Prop :=
  ∀ present children, st.build.loadChildren st.deref = some present →
    findCpuAny (toInt32 cpu) present = false →
    st.build.loadChildren (st.target (S.packageOf cpu)) = some children →
    ¬ HitsModule S children cpu ∧ ¬ MovesShared S st children cpu

/-- Every round for a NUMA node is fine. -/
def NodeFine (S : Snapshot) (b : Build) (node : DieNode × Nat) : Prop :=
  Transition.Meets (fun st round => processCpu S (S.memory node.2 round.2) st round.1)
    (fun st round => RoundFine S st round.1) ⟨b, node.1, .scratch⟩ (S.cpulist node.1.id).zipIdx

/-- Every round of the build is fine. -/
def BuildFine (S : Snapshot) : Prop :=
  Transition.Meets (processNode S) (NodeFine S) .empty (getNodes S.nodeDir).zipIdx

end Guard

/-- What the pointer of the round has to do with the guard. -/
theorem Round.target {st st' : NodeLoop} {packageId : Int} {d : Nat} {ptr : Option Addr}
    {children children' : List ArchNode}
    (h : Round st st' (openPackage st.build packageId).2 d ptr children children') :
    (st.target packageId).children = ptr ∧
      ∀ p' d', st.build.addrAt p' d' ≠ none →
        (st.targetPos packageId ≠ some (p', d') ↔
          (p', d') ≠ ((openPackage st.build packageId).2, d)) := by
  unfold NodeLoop.target
  rw [NodeLoop.targetPos_eq]
  rcases h.source with ⟨hat, haddr⟩ | ⟨hat, haddr, hptr⟩
  · obtain ⟨die, hdie, hchildren⟩ := Option.map_eq_some_iff.mp haddr
    rw [hat]
    refine ⟨by simp [hdie, hchildren], fun p' d' _ => ?_⟩
    simp only [Option.map_some, ne_eq, Option.some.injEq]
    exact not_congr eq_comm
  · rw [hat]
    refine ⟨hptr.symm, fun p' d' hne => ?_⟩
    simp only [Option.map_none, ne_eq, reduceCtorEq, not_false_eq_true, true_iff]
    rintro hpos
    cases hpos
    exact hne haddr

/-- The children in a round are those that the guard speaks of. -/
theorem Round.loadChildren_target {st st' : NodeLoop} {packageId : Int} {d : Nat}
    {ptr : Option Addr} {children children' : List ArchNode}
    (h : Round st st' (openPackage st.build packageId).2 d ptr children children') :
    st.build.loadChildren (st.target packageId) = some children := by
  rw [Build.loadChildren_eq_loadAddr, h.target.1, h.loaded]

/-- Where the new children of a round are found. -/
theorem Round.stored {st st' : NodeLoop} {p d : Nat} {ptr : Option Addr}
    {children children' : List ArchNode} (h : Round st st' p d ptr children children')
    (hne : children' ≠ []) :
    ∃ a, st'.build.addrAt p d = some (some a) ∧ st'.build.heap a = some children' := by
  have hcursor := h.cursor
  have hheap := h.heap
  unfold storedAddr at hcursor
  unfold storedHeap at hheap
  by_cases hlen : children'.length = children.length
  · rw [if_pos hlen] at hcursor
    cases ptr with
    | none =>
        have hloaded := h.loaded
        cases hloaded
        exact absurd (List.length_eq_zero_iff.mp hlen) hne
    | some a => exact ⟨a, hcursor, by rw [hheap, if_pos hlen, if_pos rfl]⟩
  · rw [if_neg hlen] at hcursor
    exact ⟨_, hcursor, by rw [hheap, if_neg hlen, if_pos rfl]⟩

/-- Every DIE pointer was handed out by the allocator. -/
def Build.Allocated (b : Build) : Prop :=
  ∀ p d a, b.addrAt p d = some (some a) → a < b.next

/-- What a round does to an array other than the one at the cursor. -/
theorem Round.other {st st' : NodeLoop} {p d : Nat} {ptr : Option Addr}
    {children children' : List ArchNode} (h : Round st st' p d ptr children children')
    {a : Addr} (ha : a < st.build.next) :
    st'.build.heap a =
      if ptr = some a then if children'.length = children.length then some children' else none
      else st.build.heap a := by
  rw [h.heap a]
  unfold storedHeap
  have hne : a ≠ st.build.next := Nat.ne_of_lt ha
  by_cases hlen : children'.length = children.length
  · rw [if_pos hlen, if_pos hlen]
  · rw [if_neg hlen, if_neg hlen, if_neg hne]

theorem Round.allocated {st st' : NodeLoop} {p d : Nat} {ptr : Option Addr}
    {children children' : List ArchNode} (h : Round st st' p d ptr children children')
    (hnode : st.Ok) (hall : st.build.Allocated) : st'.build.Allocated := by
  have hle := h.next_le
  have hptr : ∀ a, ptr = some a → a < st.build.next := by
    rintro a rfl
    rcases h.source with ⟨_, haddr⟩ | ⟨_, _, hderef⟩
    · exact hall _ _ a haddr
    · rcases hnode.deref_children with hnone | ⟨p', d', _, haddr⟩
      · rw [hnone] at hderef
        cases hderef
      · rw [← hderef] at haddr
        exact hall _ _ a haddr
  intro p' d' a haddr
  by_cases hpos : (p', d') = (p, d)
  · cases hpos
    rw [h.cursor] at haddr
    unfold storedAddr at haddr
    have hnext := h.next
    split at haddr
    · exact Nat.lt_of_lt_of_le (hptr a (Option.some.inj haddr)) hle
    · rename_i hlen
      cases haddr
      rw [hnext, if_neg hlen]
      exact Nat.lt_succ_self _
  · rw [h.elsewhere p' d' hpos] at haddr
    exact Nat.lt_of_lt_of_le (hall p' d' a haddr) hle

section Sound

/-- The invariant of the builds that go well: every DIE of every package has a live
array with the right layers in it, and every package has a DIE. -/
structure Build.Sound (b : Build) : Prop where
  dies : ∀ p d ptr, b.addrAt p d = some ptr →
    ∃ a cs, ptr = some a ∧ a < b.next ∧ b.heap a = some cs ∧ cs ≠ [] ∧ DieLayer cs
  packages : ∀ p, p < b.sockets.length → b.addrAt p 0 ≠ none

theorem Build.Sound.empty : Build.Sound .empty := by
  refine ⟨fun p d ptr h => ?_, fun p h => absurd h (Nat.not_lt_zero p)⟩
  simp [Build.addrAt, Build.getDie, Build.empty] at h

theorem Build.Sound.allocated {b : Build} (h : b.Sound) : b.Allocated := by
  intro p d a haddr
  obtain ⟨a', cs, ha, hlt, _⟩ := h.dies p d _ haddr
  cases ha
  exact hlt

/-- A package with a DIE has a first DIE. -/
theorem Build.addrAt_zero {b : Build} {p d : Nat} (h : b.addrAt p d ≠ none) :
    b.addrAt p 0 ≠ none := by
  unfold Build.addrAt Build.getDie at h ⊢
  cases hp : b.sockets[p]? with
  | none => simp [hp] at h
  | some package =>
      simp only [hp, ne_eq, Option.map_eq_none_iff, List.getElem?_eq_none_iff] at h ⊢
      omega

theorem Build.Sound.loadAddr {b : Build} (h : b.Sound) {ptr : Option Addr}
    (hptr : ptr = none ∨ ∃ p d, b.addrAt p d = some ptr) :
    ∃ cs, b.loadAddr ptr = some cs ∧ DieLayer cs := by
  rcases hptr with rfl | ⟨p, d, haddr⟩
  · exact ⟨[], rfl, by simp [DieLayer]⟩
  · obtain ⟨a, cs, rfl, _, hcs, _, hlayer⟩ := h.dies p d ptr haddr
    exact ⟨cs, hcs, hlayer⟩

/-- After a round every package has a DIE if it had before. -/
theorem Round.packages_ne_none {st st' : NodeLoop} {p d : Nat} {ptr : Option Addr}
    {children children' : List ArchNode} (h : Round st st' p d ptr children children')
    (hpackages : ∀ p, p < st.build.sockets.length → st.build.addrAt p 0 ≠ none) :
    ∀ p, p < st'.build.sockets.length → st'.build.addrAt p 0 ≠ none := by
  intro p' hp'
  by_cases hp : p' = p
  · rw [hp]
    exact Build.addrAt_zero (d := d) (by rw [h.cursor]; simp)
  · rw [h.elsewhere p' 0 (fun he => hp (Prod.mk.inj he).1)]
    exact hpackages p' ((h.packages p' hp').resolve_left hp)

/-- A fine round keeps the invariant. -/
theorem Round.sound {S : Snapshot} {st st' : NodeLoop} {cpu : Int} {d : Nat}
    {ptr : Option Addr} {children : List ArchNode}
    (h : Round st st' (openPackage st.build (S.packageOf cpu)).2 d ptr children
      (S.place children cpu))
    (hok : st.Ok) (hsound : st.build.Sound) (hlayer : DieLayer children)
    (hhit : ¬ HitsModule S children cpu) (hmove : ¬ MovesShared S st children cpu) :
    st'.build.Sound := by
  have hne : S.place children cpu ≠ [] := placeRound_ne_nil _ _ _ _ _
  obtain ⟨htarget, hother⟩ := h.target
  have hle := h.next_le
  have hcursor : ∃ a, st'.build.addrAt (openPackage st.build (S.packageOf cpu)).2 d =
      some (some a) ∧ st'.build.heap a = some (S.place children cpu) := h.stored hne
  constructor
  · intro p' d' ptr' haddr
    by_cases hpos : (p', d') = ((openPackage st.build (S.packageOf cpu)).2, d)
    · cases hpos
      obtain ⟨a, hat, hheap⟩ := hcursor
      rw [hat] at haddr
      cases haddr
      exact ⟨a, S.place children cpu, rfl, h.allocated hok hsound.allocated _ _ a hat, hheap, hne,
        place_dieLayer hlayer hhit⟩
    · rw [h.elsewhere p' d' hpos] at haddr
      obtain ⟨a, cs, rfl, hlt, hcs, hcsne, hcslayer⟩ := hsound.dies p' d' ptr' haddr
      by_cases hptr : ptr = some a
      · by_cases hlen : (S.place children cpu).length = children.length
        · refine ⟨a, S.place children cpu, rfl, Nat.lt_of_lt_of_le hlt hle, ?_, hne,
            place_dieLayer hlayer hhit⟩
          rw [h.other hlt, if_pos hptr, if_pos hlen]
        · refine absurd ⟨hlen, a, p', d', htarget.trans hptr, haddr, ?_⟩ hmove
          exact (hother p' d' (by rw [haddr]; simp)).mpr hpos
      · refine ⟨a, cs, rfl, Nat.lt_of_lt_of_le hlt hle, ?_, hcsne, hcslayer⟩
        rw [h.other hlt, if_neg hptr, hcs]
  · exact h.packages_ne_none hsound.packages

variable {S : Snapshot} {mem : InsertSite → Bool} (hmem : ∀ site, mem site = true)
include hmem

/-- A fine round from a sound build succeeds and leaves a sound build. -/
theorem processCpu_sound {st : NodeLoop} (hok : st.Ok) (hsound : st.build.Sound) {cpu : Int}
    (hread : S.CpuReadable cpu) (hfine : RoundFine S st cpu) :
    ∃ st', processCpu S mem st cpu = .ok st' ∧ st'.Ok ∧ st'.build.Sound := by
  rcases processCpu_granted hmem hok hread with ⟨ptr, hptr, hload, _⟩ |
    ⟨present, hpresent, ⟨_, hstep⟩ | ⟨hfind, st', d, ptr, children, hstep, _, hround⟩⟩
  · obtain ⟨cs, hcs, _⟩ := hsound.loadAddr hptr
    rw [hload] at hcs
    cases hcs
  · exact ⟨st, hstep, hok, hsound⟩
  · rw [← Build.loadChildren_eq_loadAddr] at hpresent
    obtain ⟨hhit, hmove⟩ :=
      hfine present children hpresent hfind hround.loadChildren_target
    obtain ⟨cs, hcs, hlayer⟩ := hsound.loadAddr (hok.pointer hround.source)
    rw [hround.loaded] at hcs
    cases hcs
    exact ⟨st', hstep, hround.ok, hround.sound hok hsound hlayer hhit hmove⟩

end Sound

section Doomed

/-- A DIE whose array was freed or has a THREAD below a MODULE. -/
def Build.Doomed (b : Build) : Prop :=
  ∃ p d a, b.addrAt p d = some (some a) ∧
    ∀ cs, b.heap a = some cs → Misplaced cs

/-- The array of some DIE was freed or has the property. -/
def Build.Somewhere (Q : List ArchNode → Prop) (b : Build) : Prop :=
  ∃ p d a, b.addrAt p d = some (some a) ∧ ∀ cs, b.heap a = some cs → Q cs

/-- What a round does not take away from an array stays there. -/
theorem Round.somewhere {Q : List ArchNode → Prop} {st st' : NodeLoop} {p d : Nat}
    {ptr : Option Addr} {children children' : List ArchNode}
    (h : Round st st' p d ptr children children') (hne : children' ≠ [])
    (hall : st.build.Allocated) (hQ : Q children → Q children')
    (hsomewhere : st.build.Somewhere Q) : st'.build.Somewhere Q := by
  obtain ⟨p', d', a, haddr, hbad⟩ := hsomewhere
  have hplace : ptr = some a → Q children' := by
    rintro rfl
    exact hQ (hbad children h.loaded)
  by_cases hpos : (p', d') = (p, d)
  · cases hpos
    obtain ⟨a', haddr', hheap⟩ := h.stored hne
    refine ⟨p, d, a', haddr', fun cs hcs => ?_⟩
    rw [hheap] at hcs
    cases hcs
    rcases h.source with ⟨_, hsource⟩ | ⟨_, hsource, _⟩
    · rw [haddr] at hsource
      exact hplace (Option.some.inj hsource).symm
    · rw [haddr] at hsource
      cases hsource
  · refine ⟨p', d', a, by rw [h.elsewhere p' d' hpos, haddr], fun cs hcs => ?_⟩
    rw [h.other (hall p' d' a haddr)] at hcs
    by_cases hptr : ptr = some a
    · rw [if_pos hptr] at hcs
      split at hcs
      · cases hcs
        exact hplace hptr
      · cases hcs
    · rw [if_neg hptr] at hcs
      exact hbad cs hcs

/-- Every DIE has an array, and the arrays that can be read have the property. -/
def Build.EachArray (Q : List ArchNode → Prop) (b : Build) : Prop :=
  ∀ p d ptr, b.addrAt p d = some ptr → ∃ a, ptr = some a ∧ a < b.next ∧
    ∀ cs, b.heap a = some cs → Q cs

theorem Build.EachArray.allocated {Q : List ArchNode → Prop} {b : Build} (h : b.EachArray Q) :
    b.Allocated := by
  intro p d a haddr
  obtain ⟨a', ha, hlt, _⟩ := h p d _ haddr
  cases ha
  exact hlt

/-- An array that can be read is new or has the property. -/
theorem Build.EachArray.loaded {Q : List ArchNode → Prop} {b : Build} (h : b.EachArray Q)
    {ptr : Option Addr} (hptr : ptr = none ∨ ∃ p d, b.addrAt p d = some ptr)
    {children : List ArchNode} (hload : b.loadAddr ptr = some children) :
    children = [] ∨ Q children := by
  rcases hptr with rfl | ⟨p, d, haddr⟩
  · cases hload
    exact .inl rfl
  · obtain ⟨a, rfl, _, hcs⟩ := h p d ptr haddr
    exact .inr (hcs children hload)

/-- A round that stores an array with the property keeps it for all arrays. -/
theorem Round.eachArray {Q : List ArchNode → Prop} {st st' : NodeLoop} {p d : Nat}
    {ptr : Option Addr} {children children' : List ArchNode}
    (h : Round st st' p d ptr children children') (hok : st.Ok) (hne : children' ≠ [])
    (hnew : Q children') (hall : st.build.EachArray Q) : st'.build.EachArray Q := by
  have hle := h.next_le
  intro p' d' ptr' haddr
  by_cases hpos : (p', d') = (p, d)
  · cases hpos
    obtain ⟨a, hcursor, hheap⟩ := h.stored hne
    have hlt := h.allocated hok hall.allocated _ _ a hcursor
    rw [hcursor] at haddr
    cases haddr
    refine ⟨a, rfl, hlt, fun cs hcs => ?_⟩
    rw [hheap] at hcs
    cases hcs
    exact hnew
  · rw [h.elsewhere p' d' hpos] at haddr
    obtain ⟨a, rfl, hlt, hcs⟩ := hall p' d' ptr' haddr
    refine ⟨a, rfl, Nat.lt_of_lt_of_le hlt hle, fun cs hcs' => ?_⟩
    rw [h.other hlt] at hcs'
    split at hcs'
    · split at hcs'
      · cases hcs'
        exact hnew
      · cases hcs'
    · exact hcs cs hcs'

/-- A round never saves a build. -/
theorem Round.doomed {S : Snapshot} {st st' : NodeLoop} {cpu : Int} {p d : Nat}
    {ptr : Option Addr} {children : List ArchNode}
    (h : Round st st' p d ptr children (S.place children cpu))
    (hall : st.build.Allocated) (hdoomed : st.build.Doomed) : st'.build.Doomed :=
  h.somewhere (placeRound_ne_nil _ _ _ _ _) hall (fun hbad => place_misplaced hbad cpu) hdoomed

/-- A round that is not fine dooms the build. -/
theorem Round.doomed_of_not_fine {S : Snapshot} {st st' : NodeLoop} {cpu : Int} {d : Nat}
    {ptr : Option Addr} {children : List ArchNode}
    (h : Round st st' (openPackage st.build (S.packageOf cpu)).2 d ptr children
      (S.place children cpu))
    (hall : st.build.Allocated)
    (hbroken : HitsModule S children cpu ∨ MovesShared S st children cpu) :
    st'.build.Doomed := by
  rcases hbroken with hhit | ⟨hlen, a, p', d', htarget, haddr, hpos⟩
  · obtain ⟨a, haddr, hheap⟩ := h.stored (placeRound_ne_nil _ _ _ _ _)
    refine ⟨_, d, a, haddr, fun cs hcs => ?_⟩
    rw [hheap] at hcs
    cases hcs
    exact place_misplaced_of_hits hhit
  · obtain ⟨hptr, hother⟩ := h.target
    rw [hptr] at htarget
    rw [hother p' d' (by rw [haddr]; simp)] at hpos
    refine ⟨p', d', a, by rw [h.elsewhere p' d' hpos, haddr], fun cs hcs => ?_⟩
    rw [h.other (hall p' d' a haddr), if_pos htarget, if_neg hlen] at hcs
    cases hcs

variable {S : Snapshot} {mem : InsertSite → Bool} (hmem : ∀ site, mem site = true)
include hmem

/-- The three facts about one round that the poisoning rule needs. -/
theorem processCpu_doomed {st st' : NodeLoop} (hok : st.Ok) (hall : st.build.Allocated)
    {cpu : Int} (hread : S.CpuReadable cpu) (hstep : processCpu S mem st cpu = .ok st') :
    (st'.Ok ∧ st'.build.Allocated) ∧ (¬ RoundFine S st cpu → st'.build.Doomed) ∧
      (st.build.Doomed → st'.build.Doomed) := by
  rcases processCpu_granted hmem hok hread with ⟨ptr, hptr, hload, hstop⟩ |
    ⟨present, hpresent, ⟨hfind, hstay⟩ | ⟨hfind, st₂, d, ptr, children, hplace, _, hround⟩⟩
  · rw [hstop] at hstep
    cases hstep
  · rw [hstay] at hstep
    cases hstep
    refine ⟨⟨hok, hall⟩, fun hnot => absurd ?_ hnot, id⟩
    intro present' children hpresent' hfind'
    rw [Build.loadChildren_eq_loadAddr, hpresent] at hpresent'
    cases hpresent'
    rw [hfind] at hfind'
    cases hfind'
  · rw [hplace] at hstep
    cases hstep
    refine ⟨⟨hround.ok, hround.allocated hok hall⟩, fun hnot => ?_, hround.doomed hall⟩
    apply hround.doomed_of_not_fine hall
    by_contra hgood
    apply hnot
    intro present' children' _ _ htarget
    rw [hround.loadChildren_target] at htarget
    cases htarget
    exact not_or.mp hgood

end Doomed

section Tree

theorem Build.addrAt_of_mem {b : Build} {socket : SocketNode} {die : DieNode}
    (hs : socket ∈ b.sockets) (hd : die ∈ socket.children) :
    ∃ p d, b.addrAt p d = some die.children := by
  obtain ⟨p, hp⟩ := List.mem_iff_getElem?.mp hs
  obtain ⟨d, hd⟩ := List.mem_iff_getElem?.mp hd
  refine ⟨p, d, ?_⟩
  unfold Build.addrAt Build.getDie
  rw [hp]
  simp [hd]

theorem Build.mem_of_addrAt {b : Build} {p d : Nat} {ptr : Option Addr}
    (h : b.addrAt p d = some ptr) :
    ∃ socket ∈ b.sockets, ∃ die ∈ socket.children, die.children = ptr := by
  obtain ⟨die, hdie, hptr⟩ := Option.map_eq_some_iff.mp h
  unfold Build.getDie at hdie
  cases hp : b.sockets[p]? with
  | none =>
      rw [hp] at hdie
      cases hdie
  | some socket =>
      rw [hp] at hdie
      exact ⟨socket, List.mem_of_getElem? hp, die, List.mem_of_getElem? hdie, hptr⟩

/-- Every package has a DIE, package by package. -/
theorem Build.children_ne_nil {b : Build}
    (h : ∀ p, p < b.sockets.length → b.addrAt p 0 ≠ none) {socket : SocketNode}
    (hs : socket ∈ b.sockets) : socket.children ≠ [] := by
  obtain ⟨p, hp⟩ := List.mem_iff_getElem?.mp hs
  intro hnil
  apply h p (List.getElem?_eq_some_iff.mp hp).1
  unfold addrAt getDie
  rw [hp]
  simp [hnil]

/-- The subtree of a DIE of a sound build. -/
theorem Build.Sound.dieTree {b : Build} (h : b.Sound) {socket : SocketNode} {die : DieNode}
    (hs : socket ∈ b.sockets) (hd : die ∈ socket.children) :
    ∃ t, b.dieTree die = some t ∧ t.IsDie := by
  obtain ⟨p, d, haddr⟩ := Build.addrAt_of_mem hs hd
  obtain ⟨a, cs, hptr, _, hcs, hne, hlayer⟩ := h.dies p d _ haddr
  refine ⟨.node .die die.id die.name cs, ?_, rfl, hne, hlayer⟩
  unfold Build.dieTree
  rw [Build.loadChildren_eq_loadAddr, hptr]
  simp only [Build.loadAddr, hcs]
  rfl

theorem Build.Sound.socketTree {b : Build} (h : b.Sound) {socket : SocketNode}
    (hs : socket ∈ b.sockets) : ∃ t, b.socketTree socket = some t ∧ t.IsSocket := by
  obtain ⟨dies, hdies⟩ := Partial.exists_mapM (f := b.dieTree) (l := socket.children)
    (fun die hd => by
      obtain ⟨t, ht, _⟩ := h.dieTree hs hd
      exact ⟨t, ht⟩)
  refine ⟨.node .socket socket.id socket.name dies, ?_, rfl, ?_, fun t ht => ?_⟩
  · unfold Build.socketTree
    rw [hdies]
    rfl
  · have hne := Build.children_ne_nil h.packages hs
    obtain ⟨die, hd⟩ := List.exists_mem_of_ne_nil _ hne
    obtain ⟨t, ht, _⟩ := Partial.mem_mapM_of_mem hdies hd
    exact List.ne_nil_of_mem ht
  · obtain ⟨die, hd, hdie⟩ := Partial.exists_of_mem_mapM hdies ht
    obtain ⟨t', ht', hisdie⟩ := h.dieTree hs hd
    rw [hdie] at ht'
    cases ht'
    exact hisdie

/-- A sound build has a layered tree. -/
theorem Build.Sound.tree {b : Build} (h : b.Sound) (hostname : Option String) :
    ∃ t, b.tree hostname = some t ∧ t.Layered := by
  obtain ⟨sockets, hsockets⟩ := Partial.exists_mapM (f := b.socketTree) (l := b.sockets)
    (fun socket hs => by
      obtain ⟨t, ht, _⟩ := h.socketTree hs
      exact ⟨t, ht⟩)
  refine ⟨.node .system 0 hostname sockets, ?_, rfl, fun t ht => ?_⟩
  · unfold Build.tree
    rw [hsockets]
    rfl
  · obtain ⟨socket, hs, hsocket⟩ := Partial.exists_of_mem_mapM hsockets ht
    obtain ⟨t', ht', hissocket⟩ := h.socketTree hs
    rw [hsocket] at ht'
    cases ht'
    exact hissocket

/-- A doomed build has no tree, or one that is not layered. -/
theorem Build.Doomed.tree {b : Build} (h : b.Doomed) {hostname : Option String} {t : ArchNode}
    (ht : b.tree hostname = some t) : ¬ t.Layered := by
  obtain ⟨p, d, a, haddr, hbad⟩ := h
  obtain ⟨socket, hs, die, hd, hptr⟩ := Build.mem_of_addrAt haddr
  obtain ⟨sockets, hsockets, rfl⟩ := Option.map_eq_some_iff.mp ht
  obtain ⟨s, hsmem, hstree⟩ := Partial.mem_mapM_of_mem hsockets hs
  obtain ⟨dies, hdies, rfl⟩ := Option.map_eq_some_iff.mp hstree
  obtain ⟨t, htmem, hdtree⟩ := Partial.mem_mapM_of_mem hdies hd
  obtain ⟨cs, hcs, rfl⟩ := Option.map_eq_some_iff.mp hdtree
  rw [Build.loadChildren_eq_loadAddr, hptr] at hcs
  intro hlayered
  have hdie := (hlayered.2 _ hsmem).2.2 _ htmem
  exact (hbad cs hcs).not_dieLayer hdie.2.2

end Tree

section Run

theorem nodeLoop_ok {S : Snapshot} {node : DieNode} (hnode : node ∈ getNodes S.nodeDir) (b : Build) :
    NodeLoop.Ok ⟨b, node, .scratch⟩ := by
  refine ⟨?_, fun p d h => by cases h⟩
  obtain ⟨entry, _, rfl⟩ := List.mem_map.mp hnode
  rfl

/-- A call of `process_node` that ends reads the cpulist and goes through it. -/
theorem processNode_ok {S : Snapshot} {b b' : Build} {node : DieNode × Nat}
    (h : processNode S b node = .ok b') :
    S.readLongList (.cpulist node.1.id) = some (S.cpulist node.1.id) ∧
      ∃ st, processCpus S node.2 ⟨b, node.1, .scratch⟩ (S.cpulist node.1.id).zipIdx = .ok st ∧
        st.build = b' := by
  unfold processNode at h
  split at h
  · cases h
  · rename_i cpus hread
    have hcpus : S.cpulist node.1.id = cpus := by
      rw [Snapshot.cpulist, hread]
      rfl
    rw [hcpus]
    split at h
    · cases h
    · rename_i st hrun
      cases h
      exact ⟨hread, st, hrun, rfl⟩

variable {S : Snapshot} (hS : S.Readable)
include hS

theorem processNode_eq {node : DieNode × Nat} (hnode : node.1 ∈ getNodes S.nodeDir) (b : Build) :
    processNode S b node =
      match processCpus S node.2 ⟨b, node.1, .scratch⟩ (S.cpulist node.1.id).zipIdx with
      | .error e => .error e
      | .ok st => .ok st.build := by
  cases hrun : processCpus S node.2 ⟨b, node.1, .scratch⟩ (S.cpulist node.1.id).zipIdx with
  | error e => simp only [processNode, hS.cpulist node.1 hnode, hrun]
  | ok st => simp only [processNode, hS.cpulist node.1 hnode, hrun]

theorem cpuReadable_of_mem_zipIdx {node : DieNode} (hnode : node ∈ getNodes S.nodeDir)
    {round : Int × Nat} (hround : round ∈ (S.cpulist node.id).zipIdx) :
    S.CpuReadable round.1 :=
  hS.cpu node hnode round.1 (List.fst_mem_of_mem_zipIdx hround)

theorem processNode_sound {b : Build} (hb : b.Sound) {node : DieNode × Nat}
    (hnode : node.1 ∈ getNodes S.nodeDir) (hfine : NodeFine S b node) :
    ∃ b', processNode S b node = .ok b' ∧ b'.Sound := by
  obtain ⟨st, hrun, _, hsound⟩ := Transition.run_ok_of_meets
    (I := fun st : NodeLoop => st.Ok ∧ st.build.Sound)
    (fun st round hround hinv hfine =>
      processCpu_sound (hS.memory node.2 round.2) hinv.1 hinv.2
        (cpuReadable_of_mem_zipIdx hS hnode hround) hfine)
    ⟨nodeLoop_ok hnode b, hb⟩ hfine
  refine ⟨st.build, ?_, hsound⟩
  rw [processNode_eq hS hnode]
  unfold processCpus
  rw [hrun]

/-- What a node that was processed says about the builds before and after it. -/
theorem processNode_doomed {b b' : Build} (hb : b.Allocated) {node : DieNode × Nat}
    (hnode : node.1 ∈ getNodes S.nodeDir) (hstep : processNode S b node = .ok b') :
    b'.Allocated ∧ (¬ NodeFine S b node → b'.Doomed) ∧ (b.Doomed → b'.Doomed) := by
  obtain ⟨_, st, hrun, rfl⟩ := processNode_ok hstep
  have hround : ∀ s, ∀ round ∈ (S.cpulist node.1.id).zipIdx, ∀ s',
      s.Ok ∧ s.build.Allocated → processCpu S (S.memory node.2 round.2) s round.1 = .ok s' →
      (s'.Ok ∧ s'.build.Allocated) ∧ (¬ RoundFine S s round.1 → s'.build.Doomed) ∧
        (s.build.Doomed → s'.build.Doomed) :=
    fun s round hround s' hinv h =>
      processCpu_doomed (hS.memory node.2 round.2) hinv.1 hinv.2
        (cpuReadable_of_mem_zipIdx hS hnode hround) h
  have hstart : NodeLoop.Ok ⟨b, node.1, .scratch⟩ ∧ b.Allocated :=
    ⟨nodeLoop_ok hnode b, hb⟩
  refine ⟨?_, fun hnot => ?_, fun hdoomed => ?_⟩
  · exact (Transition.run_invariant (I := fun s : NodeLoop => s.Ok ∧ s.build.Allocated)
      (fun s r hr s' hinv h => (hround s r hr s' hinv h).1) hstart hrun).2
  · exact Transition.bad_of_not_meets (I := fun s : NodeLoop => s.Ok ∧ s.build.Allocated)
      (B := fun s => s.build.Doomed)
      (fun s r hr s' hinv h => (hround s r hr s' hinv h).1)
      (fun s r hr s' hinv hnot h => (hround s r hr s' hinv h).2.1 hnot)
      (fun s r hr s' hinv hbad h => (hround s r hr s' hinv h).2.2 hbad) hstart hnot hrun
  · exact (Transition.run_invariant
      (I := fun s : NodeLoop => (s.Ok ∧ s.build.Allocated) ∧ s.build.Doomed)
      (fun s r hr s' hinv h =>
        ⟨(hround s r hr s' hinv.1 h).1, (hround s r hr s' hinv.1 h).2.2 hinv.2⟩)
      ⟨hstart, hdoomed⟩ hrun).2

/-- A build whose rounds are all fine succeeds and is sound. -/
theorem processNodes_sound (hfine : BuildFine S) :
    ∃ b, processNodes S = .ok b ∧ b.Sound :=
  Transition.run_ok_of_meets
    (fun _ _ hnode hb hfine =>
      processNode_sound hS hb (List.fst_mem_of_mem_zipIdx hnode) hfine)
    Build.Sound.empty hfine

/-- A build with a round that is not fine is doomed. -/
theorem processNodes_doomed (hnot : ¬ BuildFine S) {b : Build} (h : processNodes S = .ok b) :
    b.Doomed :=
  Transition.bad_of_not_meets
    (fun _ _ hnode _ hb h =>
      (processNode_doomed hS hb (List.fst_mem_of_mem_zipIdx hnode) h).1)
    (fun _ _ hnode _ hb hnot h =>
      (processNode_doomed hS hb (List.fst_mem_of_mem_zipIdx hnode) h).2.1 hnot)
    (fun _ _ hnode _ hb hbad h =>
      (processNode_doomed hS hb (List.fst_mem_of_mem_zipIdx hnode) h).2.2 hbad)
    Build.Sound.empty.allocated hnot h

end Run

/-- The tree that the calls of `process_node` build has the layers that the rest of
the library relies on. -/
def LayeredTreeBuilt (S : Snapshot) : Prop :=
  ∃ b t, processNodes S = .ok b ∧ b.tree S.hostname = some t ∧ t.Layered

/-- **Which snapshots have a layered tree.**  When all files are readable, the build
delivers a layered tree exactly if no round hits a MODULE or moves a shared array. -/
theorem layeredTreeBuilt_iff_buildFine (S : Snapshot) (hS : S.Readable) :
    LayeredTreeBuilt S ↔ BuildFine S := by
  constructor
  · rintro ⟨b, t, hrun, htree, hlayered⟩
    by_contra hnot
    exact (processNodes_doomed hS hnot hrun).tree htree hlayered
  · intro hfine
    obtain ⟨b, hrun, hsound⟩ := processNodes_sound hS hfine
    obtain ⟨t, htree, hlayered⟩ := hsound.tree S.hostname
    exact ⟨b, t, hrun, htree, hlayered⟩

/-- One package and one node with a MODULE of CPUs 0 and 1 and a core of CPU 2; the
ids of the cores are given. -/
def moduleAndCore (core0 core1 core2 : Int) : Snapshot :=
  .ofMachine [[0, 1, 2]] fun cpu =>
    if cpu = 0 then ⟨0, core0, [0, 1], [0]⟩
    else if cpu = 1 then ⟨0, core1, [0, 1], [1]⟩
    else ⟨0, core2, [2], [2]⟩

theorem moduleAndCore_readable (core0 core1 core2 : Int) :
    (moduleAndCore core0 core1 core2).Readable :=
  Snapshot.ofMachine_readable (by decide)

/-- The tree of this machine when the core ids are 0, 1 and 2. -/
def moduleAndCoreTree : ArchNode :=
  .node .system 0 (some "host") [.node .socket 0 (some "Processor 0") [.node .die 0 (some "0")
    [.node .module 0 (some "module 0")
      [.node .core 0 (some "Core 0") [.node .thread 0 (some "CPU 0") []],
        .node .core 1 (some "Core 1") [.node .thread 1 (some "CPU 1") []]],
      .node .core 2 (some "Core 2") [.node .thread 2 (some "CPU 2") []]]]]

/-- With the core ids 0, 1 and 2 the build is fine. -/
theorem buildFine_moduleAndCore : BuildFine (moduleAndCore 0 1 2) := by
  refine (layeredTreeBuilt_iff_buildFine _ (moduleAndCore_readable 0 1 2)).mp
    ⟨_, moduleAndCoreTree, rfl, rfl, ?_⟩
  simp [moduleAndCoreTree, Layered, IsSocket, IsDie, DieLayer, IsModule, IsCore, IsThread]

/-- If the core of CPU 2 has the id 0 of the MODULE, CPU 2 ends up below the MODULE. -/
theorem not_layeredTreeBuilt_moduleAndCore :
    (moduleAndCore 4 5 0).Readable ∧ ¬ LayeredTreeBuilt (moduleAndCore 4 5 0) := by
  refine ⟨moduleAndCore_readable 4 5 0, ?_⟩
  rintro ⟨b, t, hrun, htree, hlayered⟩
  have hdoomed : ∃ b', processNodes (moduleAndCore 4 5 0) = .ok b' ∧
      b'.addrAt 0 0 = some (some 0) ∧ ∃ core0 core1 name, b'.heap 0 =
        some [.node .module 0 name [core0, core1, threadNode 2]] :=
    ⟨_, rfl, rfl, _, _, _, rfl⟩
  obtain ⟨b', hrun', haddr, core0, core1, name, hheap⟩ := hdoomed
  rw [hrun] at hrun'
  cases hrun'
  refine Build.Doomed.tree ⟨0, 0, 0, haddr, fun cs hcs => ?_⟩ htree hlayered
  rw [hheap] at hcs
  cases hcs
  exact ⟨_, List.mem_singleton_self _, rfl, threadNode 2, by simp, rfl⟩

end ParseArchitecture
end X86Energy
