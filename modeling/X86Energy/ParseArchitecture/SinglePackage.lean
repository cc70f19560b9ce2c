import X86Energy.ParseArchitecture.LayeredBuild
import X86Energy.ParseArchitecture.FinishStore

/-!
# Nodes that lie in one package

When all CPUs of a NUMA node lie in one package, `process_node` attaches one DIE
to that package and grows it CPU by CPU: the DIE ends up with the children
`dieBlock`, which do not depend on the rest of the tree.  `Clean` says that a build
consists of such DIEs and of nothing else.
-/

namespace X86Energy
namespace ParseArchitecture

open CInt ArchNode

/-- A round on the children of the DIE alone. -/
def dieStep (S : Snapshot) (children : List ArchNode) (cpu : Int) : List ArchNode :=
  if findCpuAny (toInt32 cpu) children then children else S.place children cpu

/-- The children of a DIE that is built from a cpulist. -/
def dieBlock (S : Snapshot) (cpus : List Int) : List ArchNode :=
  cpus.foldl (dieStep S) []

/-- The build consists of one DIE for each node in `done`: below the package `pkg`
and with the children `block`, in an array of its own. -/
structure Clean (b : Build) (done : Set Int) (pkg : Int → Int) (block : Int → List ArchNode) :
    Prop where
  nodup : b.socketIds.Nodup
  stored : ∀ p d n, b.dieIdAt p d = some n → n ∈ done ∧ b.socketIds[p]? = some (pkg n) ∧
    ∃ a, b.addrAt p d = some (some a) ∧ a < b.next ∧ b.heap a = some (block n)
  unique : ∀ p d p' d' n, b.dieIdAt p d = some n → b.dieIdAt p' d' = some n → (p, d) = (p', d')
  total : ∀ n ∈ done, ∃ p d, b.dieIdAt p d = some n
  separated : ∀ p d p' d' a, b.addrAt p d = some (some a) → b.addrAt p' d' = some (some a) →
    (p, d) = (p', d')
  packages : ∀ p, p < b.sockets.length → b.dieIdAt p 0 ≠ none

theorem Clean.empty (pkg : Int → Int) (block : Int → List ArchNode) :
    Clean .empty ∅ pkg block := by
  have hnone : ∀ p d, Build.empty.getDie p d = none := by simp [Build.getDie, Build.empty]
  refine ⟨by simp [Build.socketIds, Build.empty], ?_, ?_, by simp, ?_, ?_⟩
  · intro p d n h
    simp [Build.dieIdAt, hnone] at h
  · intro p d p' d' n h
    simp [Build.dieIdAt, hnone] at h
  · intro p d p' d' a h
    simp [Build.addrAt, hnone] at h
  · intro p h
    exact absurd h (Nat.not_lt_zero p)

/-- A position holds an id exactly if it holds a pointer. -/
theorem Build.dieIdAt_of_addrAt {b : Build} {p d : Nat} {ptr : Option Addr}
    (h : b.addrAt p d = some ptr) : ∃ n, b.dieIdAt p d = some n := by
  obtain ⟨die, hdie, _⟩ := Option.map_eq_some_iff.mp h
  exact ⟨die.id, by rw [dieIdAt, hdie, Option.map_some]⟩

theorem Clean.allocated {b : Build} {done : Set Int} {pkg : Int → Int}
    {block : Int → List ArchNode} (h : Clean b done pkg block) : b.Allocated := by
  intro p d a haddr
  obtain ⟨n, hn⟩ := Build.dieIdAt_of_addrAt haddr
  obtain ⟨_, _, a', haddr', hlt, _⟩ := h.stored p d n hn
  rw [haddr] at haddr'
  cases haddr'
  exact hlt

theorem Build.dieIdAt_zero {b : Build} {p d : Nat} {n : Int} (h : b.dieIdAt p d = some n) :
    b.dieIdAt p 0 ≠ none := by
  have hd : b.addrAt p d ≠ none := by
    obtain ⟨die, hdie, _⟩ := Option.map_eq_some_iff.mp h
    rw [addrAt, hdie]
    simp
  have hzero := Build.addrAt_zero hd
  rw [addrAt, ne_eq, Option.map_eq_none_iff] at hzero
  rw [dieIdAt, ne_eq, Option.map_eq_none_iff]
  exact hzero

/-- The package that `add_package` delivers. -/
theorem openPackage_ids (b : Build) (packageId : Int) :
    (b.socketIds[(openPackage b packageId).2]? = some packageId ∧
      (openPackage b packageId).1.socketIds = b.socketIds) ∨
    (packageId ∉ b.socketIds ∧ (openPackage b packageId).2 = b.socketIds.length ∧
      (openPackage b packageId).1.socketIds = b.socketIds ++ [toInt32 packageId]) := by
  unfold openPackage
  cases hfind : findChild (b.sockets.map SocketNode.id) packageId with
  | some p => exact .inl ⟨findChild_some hfind, rfl⟩
  | none =>
      refine .inr ⟨findChild_eq_none.mp hfind, by simp [Build.socketIds], ?_⟩
      simp [Build.socketIds]

/-- `add_package` keeps the ids of the packages apart. -/
theorem openPackage_nodup {b : Build} (hnodup : b.socketIds.Nodup) {packageId : Int}
    (hint : IsInt32 packageId) :
    (openPackage b packageId).1.socketIds.Nodup ∧
      (openPackage b packageId).1.socketIds[(openPackage b packageId).2]? = some packageId ∧
      ∀ (p : Nat) (x : Int), b.socketIds[p]? = some x →
        (openPackage b packageId).1.socketIds[p]? = some x := by
  rcases openPackage_ids b packageId with ⟨hget, hids⟩ | ⟨hnot, hpos, hids⟩
  · rw [hids]
    exact ⟨hnodup, hget, fun _ _ h => h⟩
  · rw [hids, hpos, toInt32_of_isInt32 hint]
    refine ⟨?_, by simp, fun p x h => ?_⟩
    · rw [List.nodup_append]
      refine ⟨hnodup, by simp, fun x hx y hy hxy => ?_⟩
      rw [hxy, List.mem_singleton.mp hy] at hx
      exact hnot hx
    · rw [List.getElem?_append_left (List.getElem?_eq_some_iff.mp h).1, h]

/-- Where `dieAt` finds a DIE. -/
theorem NodeLoop.dieIdAt_of_dieAt {st : NodeLoop} {p d : Nat} (h : st.dieAt p = some d) :
    st.build.dieIdAt p d = some st.deref.id := by
  unfold dieAt at h
  unfold Build.dieIdAt Build.getDie
  cases hp : st.build.sockets[p]? with
  | none =>
      rw [hp] at h
      cases h
  | some package =>
      rw [hp] at h
      have hget := findChild_some h
      rwa [List.getElem?_map] at hget

theorem NodeLoop.dieAt_ne_none {st : NodeLoop} {p d : Nat}
    (h : st.build.dieIdAt p d = some st.deref.id) : st.dieAt p ≠ none := by
  unfold Build.dieIdAt Build.getDie at h
  unfold dieAt
  cases hp : st.build.sockets[p]? with
  | none =>
      rw [hp] at h
      cases h
  | some package =>
      rw [hp] at h
      simp only
      rw [ne_eq, findChild_eq_none, not_not]
      rw [← List.getElem?_map] at h
      exact List.mem_of_getElem? h

/-- A label that tells positions apart still does after one position got a fresh one. -/
theorem apart_of_elsewhere {β : Type*} {f g : Nat → Nat → Option β} {p d : Nat} {x : β}
    (hapart : ∀ p₁ d₁ p₂ d₂ y, f p₁ d₁ = some y → f p₂ d₂ = some y → (p₁, d₁) = (p₂, d₂))
    (hcursor : g p d = some x)
    (helsewhere : ∀ p' d', (p', d') ≠ (p, d) → g p' d' = f p' d')
    (hfresh : ∀ p' d', (p', d') ≠ (p, d) → f p' d' ≠ some x) :
    ∀ p₁ d₁ p₂ d₂ y, g p₁ d₁ = some y → g p₂ d₂ = some y → (p₁, d₁) = (p₂, d₂) := by
  have hother : ∀ p' d' y, g p' d' = some y → (p', d') ≠ (p, d) → y ≠ x := by
    rintro p' d' y hy hpos rfl
    rw [helsewhere p' d' hpos] at hy
    exact hfresh p' d' hpos hy
  have hhere : ∀ p' d' y, g p' d' = some y → (p', d') = (p, d) → y = x := by
    intro p' d' y hy hpos
    cases hpos
    rw [hcursor] at hy
    exact (Option.some.inj hy).symm
  intro p₁ d₁ p₂ d₂ y h₁ h₂
  by_cases hpos₁ : (p₁, d₁) = (p, d)
  · by_cases hpos₂ : (p₂, d₂) = (p, d)
    · rw [hpos₁, hpos₂]
    · exact absurd (hhere p₁ d₁ y h₁ hpos₁) (hother p₂ d₂ y h₂ hpos₂)
  · by_cases hpos₂ : (p₂, d₂) = (p, d)
    · exact absurd (hhere p₂ d₂ y h₂ hpos₂) (hother p₁ d₁ y h₁ hpos₁)
    · rw [helsewhere p₁ d₁ hpos₁] at h₁
      rw [helsewhere p₂ d₂ hpos₂] at h₂
      exact hapart p₁ d₁ p₂ d₂ y h₁ h₂

section OwnDie

variable {st st' : NodeLoop} {p d : Nat} {ptr : Option Addr} {children children' : List ArchNode}
  (h : Round st st' p d ptr children children') {done : Set Int} {pkg : Int → Int}
  {block : Int → List ArchNode} (hclean : Clean st.build done pkg block)
  (hptr : ptr = none ∨ st.build.addrAt p d = some ptr)
include h hclean hptr

/-- The array that a round reads and the one that it stores belong to no other DIE. -/
theorem Round.own_array {p' d' : Nat} (hpos : (p', d') ≠ (p, d)) {a : Addr}
    (haddr : st.build.addrAt p' d' = some (some a)) :
    ptr ≠ some a ∧ st'.build.addrAt p d ≠ some (some a) := by
  have hread : ptr ≠ some a := by
    rintro rfl
    rcases hptr with hnone | hown
    · cases hnone
    · exact hpos (hclean.separated _ _ _ _ a haddr hown)
  refine ⟨hread, fun hstored => ?_⟩
  rw [h.cursor] at hstored
  unfold storedAddr at hstored
  split at hstored
  · exact hread (Option.some.inj hstored)
  · have hlt := hclean.allocated p' d' a haddr
    cases hstored
    exact absurd hlt (Nat.lt_irrefl _)

/-- The other DIEs keep their arrays. -/
theorem Round.stored_elsewhere {p' d' : Nat} (hpos : (p', d') ≠ (p, d)) {n : Int}
    (hn : st.build.dieIdAt p' d' = some n) :
    ∃ a, st'.build.addrAt p' d' = some (some a) ∧ a < st'.build.next ∧
      st'.build.heap a = some (block n) := by
  obtain ⟨_, _, a, haddr, hlt, hblock⟩ := hclean.stored p' d' n hn
  refine ⟨a, by rw [h.elsewhere p' d' hpos, haddr], Nat.lt_of_lt_of_le hlt h.next_le, ?_⟩
  rw [h.other hlt, if_neg (h.own_array hclean hptr hpos haddr).1, hblock]

/-- No two DIEs share an array after the round. -/
theorem Round.separated (hne : children' ≠ []) :
    ∀ p₁ d₁ p₂ d₂ a, st'.build.addrAt p₁ d₁ = some (some a) →
      st'.build.addrAt p₂ d₂ = some (some a) → (p₁, d₁) = (p₂, d₂) := by
  obtain ⟨a₀, hcursor, _⟩ := h.stored hne
  have hapart := apart_of_elsewhere (f := fun p d => (st.build.addrAt p d).join)
    (g := fun p d => (st'.build.addrAt p d).join) (p := p) (d := d) (x := a₀)
    (fun p₁ d₁ p₂ d₂ a h₁ h₂ => hclean.separated p₁ d₁ p₂ d₂ a
      (Option.join_eq_some_iff.mp h₁) (Option.join_eq_some_iff.mp h₂))
    (by simp only [hcursor, Option.join_some])
    (fun p' d' hpos => by simp only [h.elsewhere p' d' hpos])
    (fun p' d' hpos hstored =>
      (h.own_array hclean hptr hpos (Option.join_eq_some_iff.mp hstored)).2 hcursor)
  exact fun p₁ d₁ p₂ d₂ a h₁ h₂ =>
    hapart p₁ d₁ p₂ d₂ a (Option.join_eq_some_iff.mpr h₁) (Option.join_eq_some_iff.mpr h₂)

omit hptr in
/-- The nodes that were in the build still are. -/
theorem Round.total {n : Int} (hn : n ∈ insert st.deref.id done) :
    ∃ p' d', st'.build.dieIdAt p' d' = some n := by
  rcases Set.mem_insert_iff.mp hn with rfl | hn
  · exact ⟨p, d, h.idCursor⟩
  · obtain ⟨p', d', hid⟩ := hclean.total n hn
    by_cases hpos : (p', d') = (p, d)
    · cases hpos
      refine ⟨p, d, ?_⟩
      rw [h.idCursor]
      rcases h.source with ⟨hat, _⟩ | ⟨_, hnone, _⟩
      · rw [← NodeLoop.dieIdAt_of_dieAt hat, hid]
      · obtain ⟨die, hdie, _⟩ := Option.map_eq_some_iff.mp hid
        rw [Build.addrAt, hdie] at hnone
        cases hnone
    · exact ⟨p', d', by rw [h.idElsewhere p' d' hpos, hid]⟩

/-- A round at a DIE of its own, or at a new one, leaves a clean build. -/
theorem Round.clean (hne : children' ≠ []) (hok : st.Ok)
    (hnodup : st'.build.socketIds.Nodup)
    (hpackage : st'.build.socketIds[p]? = some (pkg st.deref.id))
    (hbefore : ∀ (p' : Nat) (x : Int), st.build.socketIds[p']? = some x →
      st'.build.socketIds[p']? = some x)
    (hfresh : ∀ p' d', (p', d') ≠ (p, d) → st.build.dieIdAt p' d' ≠ some st.deref.id) :
    Clean st'.build (insert st.deref.id done) pkg
      (Function.update block st.deref.id children') := by
  refine ⟨hnodup, fun p' d' n hn => ?_, ?_, fun n => h.total hclean,
    h.separated hclean hptr hne, fun p' hp' => ?_⟩
  · by_cases hpos : (p', d') = (p, d)
    · cases hpos
      obtain ⟨a, hcursor, hheap⟩ := h.stored hne
      rw [h.idCursor] at hn
      cases hn
      refine ⟨Set.mem_insert _ _, hpackage, a, hcursor,
        h.allocated hok hclean.allocated _ _ a hcursor, ?_⟩
      rw [hheap, Function.update_self]
    · rw [h.idElsewhere p' d' hpos] at hn
      obtain ⟨hdone, hsocket, _⟩ := hclean.stored p' d' n hn
      have hother : n ≠ st.deref.id := by
        rintro rfl
        exact hfresh p' d' hpos hn
      rw [Function.update_of_ne hother]
      exact ⟨Set.mem_insert_of_mem _ hdone, hbefore p' _ hsocket,
        h.stored_elsewhere hclean hptr hpos hn⟩
  · exact apart_of_elsewhere hclean.unique h.idCursor h.idElsewhere hfresh
  · by_cases hp : p' = p
    · rw [hp]
      exact Build.dieIdAt_zero h.idCursor
    · have hlt := (h.packages p' hp').resolve_left hp
      rw [h.idElsewhere p' 0 fun he => hp (Prod.mk.inj he).1]
      exact hclean.packages p' hlt

end OwnDie

section Growing

variable (S : Snapshot) (n : Int) (done : Set Int) (pkg : Int → Int)
  (block : Int → List ArchNode)

/-- The loop of `process_node` for node `n` so far: nothing was placed yet, or the
DIE of the node has the children `cs`. -/
structure Growing (st : NodeLoop) (cs : List ArchNode) : Prop where
  ok : st.Ok
  id : st.deref.id = n
  state : (cs = [] ∧ st.node = .scratch ∧ Clean st.build done pkg block) ∨
    ∃ p d, st.node = .inPackage p d ∧ st.build.dieIdAt p d = some n ∧
      Clean st.build (insert n done) pkg (Function.update block n cs)

variable {S n done pkg block}

/-- The arrays of a clean build can all be read. -/
theorem Clean.loadAddr {b : Build} (h : Clean b done pkg block) {ptr : Option Addr}
    (hptr : ptr = none ∨ ∃ p d, b.addrAt p d = some ptr) : b.loadAddr ptr ≠ none := by
  rcases hptr with rfl | ⟨p, d, haddr⟩
  · simp [Build.loadAddr]
  · obtain ⟨m, hm⟩ := Build.dieIdAt_of_addrAt haddr
    obtain ⟨_, _, a, haddr', _, hheap⟩ := h.stored p d m hm
    rw [haddr] at haddr'
    cases haddr'
    simp [Build.loadAddr, hheap]

/-- The children of `*node` in the loop. -/
theorem Growing.present {st : NodeLoop} {cs : List ArchNode}
    (h : Growing n done pkg block st cs) :
    st.build.loadAddr st.deref.children = some cs := by
  rcases h.state with ⟨rfl, hnode, _⟩ | ⟨p, d, hnode, hid, hclean⟩
  · have hderef : st.deref = st.scratch := by
      unfold NodeLoop.deref
      rw [hnode]
    rw [hderef, h.ok.scratch]
    rfl
  · obtain ⟨die, hdie⟩ := h.ok.cursor p d hnode
    obtain ⟨_, _, a, haddr, _, hheap⟩ := hclean.stored p d n hid
    rw [Function.update_self] at hheap
    rw [Build.addrAt, hdie, Option.map_some] at haddr
    rw [NodeLoop.deref_inPackage hnode hdie, Option.some.inj haddr]
    exact hheap

/-- The first CPU that is placed: the package has no DIE of this node yet. -/
theorem Round.clean_first (hn : n ∉ done) (hint : IsInt32 (pkg n)) {st st' : NodeLoop}
    (hok : st.Ok) (hid : st.deref.id = n) (hnode : st.node = .scratch)
    (hclean : Clean st.build done pkg block) {d : Nat} {ptr : Option Addr}
    {children children' : List ArchNode} (hne : children' ≠ [])
    (hids : st'.build.socketIds = (openPackage st.build (pkg n)).1.socketIds)
    (h : Round st st' (openPackage st.build (pkg n)).2 d ptr children children') :
    children = [] ∧ Clean st'.build (insert n done) pkg (Function.update block n children') := by
  have hfresh : ∀ p' d', st.build.dieIdAt p' d' ≠ some n :=
    fun p' d' hid => hn (hclean.stored p' d' n hid).1
  rcases h.source with ⟨hat, _⟩ | ⟨_, _, rfl⟩
  · have hwhere := NodeLoop.dieIdAt_of_dieAt hat
    rw [hid] at hwhere
    exact absurd hwhere (hfresh _ _)
  · have hnone : st.deref.children = none := by
      unfold NodeLoop.deref
      rw [hnode]
      exact hok.scratch
    have hloaded := h.loaded
    rw [hnone] at hloaded
    obtain ⟨hnodup, hget, hbefore⟩ := openPackage_nodup hclean.nodup hint
    rw [← hids] at hnodup hget hbefore
    have hnew := h.clean hclean (.inl hnone) hne hok hnodup (by rw [hid, hget]) hbefore
      (by rw [hid]; exact fun p' d' _ => hfresh p' d')
    rw [hid] at hnew
    exact ⟨(Option.some.inj hloaded).symm, hnew⟩

/-- A later CPU: the DIE of this node is found again at the cursor. -/
theorem Round.clean_again {cs : List ArchNode} (hint : IsInt32 (pkg n)) {st st' : NodeLoop}
    (hok : st.Ok) (hid : st.deref.id = n) {p d : Nat} (hat : st.build.dieIdAt p d = some n)
    (hclean : Clean st.build (insert n done) pkg (Function.update block n cs)) {d' : Nat}
    {ptr : Option Addr} {children children' : List ArchNode} (hne : children' ≠ [])
    (hids : st'.build.socketIds = (openPackage st.build (pkg n)).1.socketIds)
    (h : Round st st' (openPackage st.build (pkg n)).2 d' ptr children children') :
    children = cs ∧ Clean st'.build (insert n done) pkg (Function.update block n children') := by
  obtain ⟨_, hsocket, a, haddr, _, hheap⟩ := hclean.stored p d n hat
  rw [Function.update_self] at hheap
  obtain ⟨hnodup, hget, hbefore⟩ := openPackage_nodup hclean.nodup hint
  rw [← hids] at hnodup hget hbefore
  have hp : (openPackage st.build (pkg n)).2 = p := by
    have hlt := (List.getElem?_eq_some_iff.mp hget).1
    exact (List.getElem?_inj hlt hnodup).mp (hget.trans (hbefore p _ hsocket).symm)
  rw [hp] at h hget
  rcases h.source with ⟨hfound, hptr⟩ | ⟨hnot, _, _⟩
  · have hwhere := NodeLoop.dieIdAt_of_dieAt hfound
    rw [hid] at hwhere
    have hd : (p, d') = (p, d) := hclean.unique _ _ _ _ n hwhere hat
    cases hd
    rw [haddr] at hptr
    cases hptr
    have hloaded := h.loaded
    rw [Build.loadAddr, hheap] at hloaded
    have hnew := h.clean hclean (.inr haddr) hne hok hnodup (by rw [hid, hget]) hbefore (by
      rw [hid]
      exact fun p' d' hpos hother => hpos (hclean.unique _ _ _ _ n hother hat))
    rw [hid, Set.insert_idem, Function.update_idem] at hnew
    exact ⟨(Option.some.inj hloaded).symm, hnew⟩
  · exact absurd hnot (NodeLoop.dieAt_ne_none (hid.symm ▸ hat))

variable {mem : InsertSite → Bool} (hmem : ∀ site, mem site = true)
include hmem

/-- **A round of a node that lies in one package is `dieStep`.** -/
theorem processCpu_growing (hn : n ∉ done) {cpu : Int} (hread : S.CpuReadable cpu)
    (hpkg : S.packageOf cpu = pkg n) (hint : IsInt32 (pkg n)) {st : NodeLoop}
    {cs : List ArchNode} (h : Growing n done pkg block st cs) :
    ∃ st', processCpu S mem st cpu = .ok st' ∧
      Growing n done pkg block st' (dieStep S cs cpu) := by
  have hlive : ∀ ptr, (ptr = none ∨ ∃ p d, st.build.addrAt p d = some ptr) →
      st.build.loadAddr ptr ≠ none := by
    intro ptr hptr
    rcases h.state with ⟨_, _, hclean⟩ | ⟨_, _, _, _, hclean⟩
    · exact hclean.loadAddr hptr
    · exact hclean.loadAddr hptr
  rcases processCpu_granted hmem h.ok hread with ⟨ptr, hptr, hload, _⟩ |
    ⟨present, hpresent, ⟨hfind, hstep⟩ | ⟨hfind, st', d', ptr, children, hstep, hids, hround⟩⟩
  · exact absurd hload (hlive ptr hptr)
  · rw [h.present] at hpresent
    cases hpresent
    refine ⟨st, hstep, ?_⟩
    rw [dieStep, if_pos hfind]
    exact h
  · rw [h.present] at hpresent
    cases hpresent
    refine ⟨st', hstep, ?_⟩
    rw [dieStep, if_neg (by simp [hfind])]
    rw [hpkg] at hround hids
    have hne : S.place children cpu ≠ [] := placeRound_ne_nil _ _ _ _ _
    have hnew : children = cs ∧ Clean st'.build (insert n done) pkg
        (Function.update block n (S.place children cpu)) := by
      rcases h.state with ⟨rfl, hnode, hclean⟩ | ⟨p, d, _, hat, hclean⟩
      · exact hround.clean_first hn hint h.ok h.id hnode hclean hne hids
      · exact hround.clean_again hint h.ok h.id hat hclean hne hids
    obtain ⟨rfl, hclean⟩ := hnew
    refine ⟨hround.ok, hround.derefId.trans h.id, .inr ⟨_, d', hround.node, ?_, hclean⟩⟩
    rw [hround.idCursor, h.id]

end Growing

section Nodes

/-- The numbers of the NUMA nodes. -/
def Snapshot.nodes (S : Snapshot) : List Int := (getNodes S.nodeDir).map DieNode.id

/-- The CPUs in the cpulists of the nodes. -/
def Snapshot.online (S : Snapshot) : List Int := S.nodes.flatMap S.cpulist

/-- The package of the first CPU of a node. -/
def Snapshot.nodePackage (S : Snapshot) (n : Int) : Int := S.packageOf ((S.cpulist n).headD 0)

/-- The CPUs of every node lie in one package. -/
def NoSpan (S : Snapshot) : Prop :=
  ∀ n ∈ S.nodes, ∀ c ∈ S.cpulist n, ∀ c' ∈ S.cpulist n, S.packageOf c = S.packageOf c'

instance (S : Snapshot) : Decidable (NoSpan S) :=
  inferInstanceAs (Decidable (∀ n ∈ S.nodes, ∀ c ∈ S.cpulist n, ∀ c' ∈ S.cpulist n, _ = _))

theorem nodePackage_eq {S : Snapshot} (hspan : NoSpan S) {n cpu : Int} (hn : n ∈ S.nodes)
    (hcpu : cpu ∈ S.cpulist n) : S.nodePackage n = S.packageOf cpu := by
  have hhead : (S.cpulist n).headD 0 ∈ S.cpulist n := by
    cases hcpus : S.cpulist n with
    | nil =>
        rw [hcpus] at hcpu
        cases hcpu
    | cons c cs => simp
  exact hspan n hn _ hhead cpu hcpu

/-- The nodes of a list that have CPUs. -/
def busy (S : Snapshot) (nodes : List Int) : Set Int := {n | n ∈ nodes ∧ S.cpulist n ≠ []}

/-- The nodes of a list that have CPUs, in the order of the list. -/
def busyNodes (S : Snapshot) (nodes : List Int) : List Int :=
  nodes.filter fun n => S.cpulist n ≠ []

theorem mem_busyNodes {S : Snapshot} {nodes : List Int} {n : Int} :
    n ∈ busyNodes S nodes ↔ n ∈ busy S nodes := by
  rw [busyNodes, List.mem_filter, decide_eq_true_eq]
  rfl

/-- Lists that have entries are distinct if no entry is in two of them. -/
theorem nodup_filter_of_flatMap {α β : Type*} [DecidableEq β] {f : α → List β} {l : List α}
    (h : (l.flatMap f).Nodup) : (l.filter fun a => f a ≠ []).Nodup := by
  induction l with
  | nil => simp
  | cons a l ih =>
      rw [List.flatMap_cons, List.nodup_append] at h
      obtain ⟨_, hl, hdisjoint⟩ := h
      rw [List.filter_cons]
      split
      · rename_i ha
        rw [List.nodup_cons]
        refine ⟨fun hmem => ?_, ih hl⟩
        obtain ⟨c, hc⟩ := List.exists_mem_of_ne_nil _ (of_decide_eq_true ha)
        exact hdisjoint c hc c (List.mem_flatMap.mpr ⟨a, List.mem_of_mem_filter hmem, hc⟩) rfl
      · exact ih hl

/-- A node with CPUs that is still to come was not processed before. -/
theorem not_mem_busy {S : Snapshot} {seen rest : List Int} {n : Int}
    (hnodup : (busyNodes S (seen ++ [n] ++ rest)).Nodup) : n ∉ busy S seen := by
  rintro ⟨hseen, hne⟩
  unfold busyNodes at hnodup
  rw [List.filter_append, List.filter_append] at hnodup
  have hdisjoint := (List.nodup_append.mp (List.nodup_append.mp hnodup).1).2.2
  have hbusy : decide (S.cpulist n ≠ []) = true := decide_eq_true hne
  exact hdisjoint n (List.mem_filter.mpr ⟨hseen, hbusy⟩) n
    (List.mem_filter.mpr ⟨List.mem_singleton_self n, hbusy⟩) rfl

theorem map_zipIdx_nodes (S : Snapshot) :
    (getNodes S.nodeDir).zipIdx.map (fun node => node.1.id) = S.nodes := by
  have hcomp : (fun node : DieNode × Nat => node.1.id) = DieNode.id ∘ Prod.fst := rfl
  rw [hcomp, ← List.map_map, List.zipIdx_map_fst]
  rfl

theorem dieStep_ne_nil (S : Snapshot) (children : List ArchNode) (cpu : Int) :
    dieStep S children cpu ≠ [] := by
  unfold dieStep
  split
  · rename_i hfind
    rintro rfl
    simp [findCpuAny] at hfind
  · exact placeRound_ne_nil _ _ _ _ _

/-- The positions in the cpulist play no role. -/
theorem foldl_zipIdx (S : Snapshot) (cpus : List Int) :
    cpus.zipIdx.foldl (fun cs (round : Int × Nat) => dieStep S cs round.1) [] =
      dieBlock S cpus := by
  unfold dieBlock
  rw [← List.foldl_map (f := Prod.fst) (g := dieStep S), List.zipIdx_map_fst]

theorem dieBlock_append_singleton (S : Snapshot) (cpus : List Int) (cpu : Int) :
    dieBlock S (cpus ++ [cpu]) = dieStep S (dieBlock S cpus) cpu := by
  unfold dieBlock
  rw [List.foldl_append]
  rfl

theorem dieBlock_ne_nil (S : Snapshot) {cpus : List Int} (h : cpus ≠ []) :
    dieBlock S cpus ≠ [] := by
  obtain ⟨init, last, rfl⟩ := (List.eq_nil_or_concat cpus).resolve_left h
  rw [List.concat_eq_append, dieBlock_append_singleton]
  exact dieStep_ne_nil _ _ _

/-- The DIE of a node before its first round. -/
theorem growing_start {S : Snapshot} {b : Build} {done : Set Int} {pkg : Int → Int}
    {block : Int → List ArchNode} (hclean : Clean b done pkg block) {node : DieNode}
    (hnode : node ∈ getNodes S.nodeDir) :
    Growing node.id done pkg block ⟨b, node, .scratch⟩ [] :=
  ⟨nodeLoop_ok hnode b, rfl, .inl ⟨rfl, rfl, hclean⟩⟩

variable {S : Snapshot} (hS : S.Readable)
include hS

/-- The rounds for CPUs of one package grow the DIE. -/
theorem processCpus_growing {b : Build} {done : Set Int} {pkg : Int → Int}
    {block : Int → List ArchNode} (hclean : Clean b done pkg block) {node : DieNode × Nat}
    (hnode : node.1 ∈ getNodes S.nodeDir) (hn : node.1.id ∉ done) {cpus : List Int}
    (hcpus : ∀ cpu ∈ cpus, cpu ∈ S.cpulist node.1.id)
    (hpkg : ∀ cpu ∈ cpus, S.packageOf cpu = pkg node.1.id) (hint : IsInt32 (pkg node.1.id)) :
    ∃ st, processCpus S node.2 ⟨b, node.1, .scratch⟩ cpus.zipIdx = .ok st ∧
      Growing node.1.id done pkg block st (dieBlock S cpus) := by
  obtain ⟨st, hrun, hgrown⟩ := Transition.run_refines
    (fun cs (round : Int × Nat) => dieStep S cs round.1)
    (fun s round hround cs hs (_ : True) =>
      have hcpu := List.fst_mem_of_mem_zipIdx hround
      processCpu_growing (hS.memory node.2 round.2) hn (hS.cpu _ hnode _ (hcpus _ hcpu))
        (hpkg _ hcpu) hint hs)
    (growing_start hclean hnode) (Transition.Meets.of_forall (fun _ _ => trivial) _ cpus.zipIdx)
  rw [foldl_zipIdx] at hgrown
  exact ⟨st, hrun, hgrown⟩

/-- `process_node` for a node that lies in one package. -/
theorem processNode_clean {b : Build} {done : Set Int} {pkg : Int → Int}
    {block : Int → List ArchNode} (hclean : Clean b done pkg block) {node : DieNode × Nat}
    (hnode : node.1 ∈ getNodes S.nodeDir) (hn : node.1.id ∉ done)
    (hpkg : ∀ cpu ∈ S.cpulist node.1.id, S.packageOf cpu = pkg node.1.id)
    (hint : IsInt32 (pkg node.1.id)) (hne : S.cpulist node.1.id ≠ []) :
    ∃ b', processNode S b node = .ok b' ∧ Clean b' (insert node.1.id done) pkg
      (Function.update block node.1.id (dieBlock S (S.cpulist node.1.id))) := by
  obtain ⟨st, hrun, hgrown⟩ :=
    processCpus_growing hS hclean hnode hn (fun _ hcpu => hcpu) hpkg hint
  refine ⟨st.build, ?_, ?_⟩
  · rw [processNode_eq hS hnode, hrun]
  · rcases hgrown.state with ⟨hnil, _⟩ | ⟨_, _, _, _, h⟩
    · exact absurd hnil (dieBlock_ne_nil S hne)
    · exact h

/-- `process_node` for a node without CPUs. -/
theorem processNode_idle (b : Build) {node : DieNode × Nat}
    (hnode : node.1 ∈ getNodes S.nodeDir) (hnil : S.cpulist node.1.id = []) :
    processNode S b node = .ok b := by
  rw [processNode_eq hS hnode, hnil]
  rfl

/-- One call of `process_node` when the node does not span packages. -/
theorem processNode_busy {seen : List Int} {b : Build} {block : Int → List ArchNode}
    (hblock : ∀ n, block n = dieBlock S (S.cpulist n))
    (hclean : Clean b (busy S seen) S.nodePackage block) {node : DieNode × Nat}
    (hnode : node.1 ∈ getNodes S.nodeDir) (hfresh : node.1.id ∉ busy S seen)
    (hpkg : ∀ c ∈ S.cpulist node.1.id, S.packageOf c = S.nodePackage node.1.id)
    (hint : ∀ cpu ∈ S.cpulist node.1.id, IsInt32 (S.packageOf cpu)) :
    ∃ b', processNode S b node = .ok b' ∧
      Clean b' (busy S (seen ++ [node.1.id])) S.nodePackage block := by
  by_cases hnil : S.cpulist node.1.id = []
  · have hbusy : busy S (seen ++ [node.1.id]) = busy S seen := by
      ext m
      simp only [busy, Set.mem_ofPred_eq, List.mem_append, List.mem_singleton]
      constructor
      · rintro ⟨hm | rfl, hcpus⟩
        · exact ⟨hm, hcpus⟩
        · exact absurd hnil hcpus
      · rintro ⟨hm, hcpus⟩
        exact ⟨.inl hm, hcpus⟩
    exact ⟨b, processNode_idle hS b hnode hnil, hbusy ▸ hclean⟩
  · have hbusy : busy S (seen ++ [node.1.id]) = insert node.1.id (busy S seen) := by
      ext m
      simp only [busy, Set.mem_ofPred_eq, List.mem_append, List.mem_singleton,
        Set.mem_insert_iff]
      constructor
      · rintro ⟨hm | rfl, hcpus⟩
        · exact .inr ⟨hm, hcpus⟩
        · exact .inl rfl
      · rintro (rfl | ⟨hm, hcpus⟩)
        · exact ⟨.inr rfl, hnil⟩
        · exact ⟨.inl hm, hcpus⟩
    obtain ⟨c, hc⟩ := List.exists_mem_of_ne_nil _ hnil
    obtain ⟨b', hstep, hclean'⟩ := processNode_clean hS hclean hnode hfresh hpkg
      (hpkg c hc ▸ hint c hc) hnil
    rw [← hblock, Function.update_eq_self, ← hbusy] at hclean'
    exact ⟨b', hstep, hclean'⟩

/-- A call of `process_node` on a clean build keeps `I` if the node is new and lies in one
package. -/
def KeptByNodes (S : Snapshot) (block : Int → List ArchNode) (I : Build → Prop) : Prop :=
  ∀ done b b' node, node.1 ∈ getNodes S.nodeDir → node.1.id ∉ done →
    (∀ c ∈ S.cpulist node.1.id, S.packageOf c = S.nodePackage node.1.id) →
    Clean b done S.nodePackage block → I b → processNode S b node = .ok b' → I b'

theorem run_clean {block : Int → List ArchNode}
    (hblock : ∀ n, block n = dieBlock S (S.cpulist n))
    (hint : ∀ cpu ∈ S.online, IsInt32 (S.packageOf cpu)) {I : Build → Prop}
    (hkeep : KeptByNodes S block I) (rest : List (DieNode × Nat)) :
    ∀ (seen : List Int) (b : Build), (∀ node ∈ rest, node.1 ∈ getNodes S.nodeDir) →
      (∀ node ∈ rest, ∀ c ∈ S.cpulist node.1.id, S.packageOf c = S.nodePackage node.1.id) →
      (busyNodes S (seen ++ rest.map fun node => node.1.id)).Nodup →
      Clean b (busy S seen) S.nodePackage block → I b →
      ∃ b', Transition.run (processNode S) b rest = .ok b' ∧
        Clean b' (busy S (seen ++ rest.map fun node => node.1.id)) S.nodePackage block ∧ I b' := by
  induction rest with
  | nil =>
      intro seen b _ _ _ hclean hb
      exact ⟨b, rfl, by simpa using hclean, hb⟩
  | cons node rest ih =>
      intro seen b hnodes hpkg hnodup hclean hb
      have hnode : node.1 ∈ getNodes S.nodeDir := hnodes node (by simp)
      have hsplit : seen ++ (node :: rest).map (fun node => node.1.id) =
          seen ++ [node.1.id] ++ rest.map fun node => node.1.id := by simp
      rw [hsplit] at hnodup ⊢
      have hfresh := not_mem_busy hnodup
      obtain ⟨b₁, hstep, hclean₁⟩ := processNode_busy hS hblock hclean hnode hfresh
        (hpkg node (by simp))
        (fun c hc => hint c (List.mem_flatMap.mpr ⟨_, List.mem_map_of_mem hnode, hc⟩))
      have hb₁ := hkeep _ b b₁ node hnode hfresh (hpkg node (by simp)) hclean hb hstep
      obtain ⟨b', hrun, hclean', hb'⟩ := ih (seen ++ [node.1.id]) b₁
        (fun m hm => hnodes m (by simp [hm])) (fun m hm => hpkg m (by simp [hm])) hnodup hclean₁
        hb₁
      exact ⟨b', by rw [Transition.run_cons_ok hstep, hrun], hclean', hb'⟩

variable (hspan : NoSpan S) (hnodup : (busyNodes S S.nodes).Nodup)
  (hint : ∀ cpu ∈ S.online, IsInt32 (S.packageOf cpu))
include hspan hnodup hint

/-- When no node spans packages the build is clean and keeps what clean builds keep. -/
theorem processNodes_clean_keeps {I : Build → Prop} (hstart : I .empty)
    (hkeep : KeptByNodes S (fun n => dieBlock S (S.cpulist n)) I) :
    ∃ b, processNodes S = .ok b ∧ Clean b (busy S S.nodes) S.nodePackage
      (fun n => dieBlock S (S.cpulist n)) ∧ I b := by
  have hempty : busy S [] = ∅ := by simp [busy]
  obtain ⟨b, hrun, hclean, hb⟩ := run_clean hS (fun _ => rfl) hint hkeep (getNodes S.nodeDir).zipIdx
    [] .empty (fun _ h => List.fst_mem_of_mem_zipIdx h)
    (fun node h c hc => (nodePackage_eq hspan
      (List.mem_map_of_mem (List.fst_mem_of_mem_zipIdx h)) hc).symm)
    (by rw [List.nil_append, map_zipIdx_nodes]; exact hnodup)
    (by rw [hempty]; exact Clean.empty _ _) hstart
  rw [List.nil_append, map_zipIdx_nodes] at hclean
  exact ⟨b, hrun, hclean, hb⟩

/-- **When no node spans packages the build is clean.** -/
theorem processNodes_clean :
    ∃ b, processNodes S = .ok b ∧ Clean b (busy S S.nodes) S.nodePackage
      (fun n => dieBlock S (S.cpulist n)) := by
  obtain ⟨b, hrun, hclean, _⟩ := processNodes_clean_keeps hS hspan hnodup hint
    (I := fun _ => True) trivial (fun _ _ _ _ _ _ _ _ _ _ => trivial)
  exact ⟨b, hrun, hclean⟩

end Nodes

end ParseArchitecture
end X86Energy
