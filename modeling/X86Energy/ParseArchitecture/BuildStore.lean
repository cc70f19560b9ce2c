import X86Energy.ParseArchitecture.PlaceCpu

/-!
# The DIE structures of the tree under construction

`addrAt` is the pointer to the children held by the DIE structure at a position
of a package.  This file says how the steps of `process_node` change these
pointers and the heap they point into.
-/

namespace X86Energy
namespace ParseArchitecture

open CInt

namespace Build

/-- The pointer to the children in the DIE structure at a position. -/
def addrAt (b : Build) (p d : Nat) : Option (Option Addr) :=
  (b.getDie p d).map DieNode.children

/-- The id of the DIE structure at a position. -/
def dieIdAt (b : Build) (p d : Nat) : Option Int :=
  (b.getDie p d).map DieNode.id

/-- The ids of the packages. -/
def socketIds (b : Build) : List Int := b.sockets.map SocketNode.id

theorem getDie_modifyPackage (b : Build) (p : Nat) (f : List DieNode → List DieNode)
    (p' d' : Nat) :
    (b.modifyPackage p f).getDie p' d' =
      match b.sockets[p']? with
      | none => none
      | some package =>
          if p = p' then (f package.children)[d']? else package.children[d']? := by
  unfold getDie modifyPackage
  simp only [List.getElem?_modify]
  cases b.sockets[p']? with
  | none => rfl
  | some package =>
      by_cases h : p = p'
      · simp [h]
      · simp [h]

theorem getDie_modifyPackage_ne (b : Build) {p p' : Nat} (f : List DieNode → List DieNode)
    (h : p ≠ p') (d' : Nat) : (b.modifyPackage p f).getDie p' d' = b.getDie p' d' := by
  rw [getDie_modifyPackage]
  simp only [if_neg h]
  rfl

/-- Where `setDie` writes. -/
theorem getDie_setDie_self (b : Build) {p d : Nat} {old : DieNode}
    (h : b.getDie p d = some old) (die : DieNode) : (b.setDie p d die).getDie p d = some die := by
  unfold setDie
  rw [getDie_modifyPackage]
  unfold getDie at h
  cases hp : b.sockets[p]? with
  | none =>
      rw [hp] at h
      cases h
  | some package =>
      rw [hp] at h
      obtain ⟨hd, _⟩ := List.getElem?_eq_some_iff.mp h
      simp [hd]

theorem getDie_setDie_ne (b : Build) {p d p' d' : Nat} (h : (p', d') ≠ (p, d)) (die : DieNode) :
    (b.setDie p d die).getDie p' d' = b.getDie p' d' := by
  unfold setDie
  by_cases hp : p = p'
  · subst hp
    have hd : d ≠ d' := by
      rintro rfl
      exact h rfl
    rw [getDie_modifyPackage]
    unfold getDie
    cases b.sockets[p]? with
    | none => rfl
    | some package => simp [List.getElem?_set_ne hd]
  · exact getDie_modifyPackage_ne b _ hp d'

/-- Writing a structure that agrees with the old one in a field changes that field
nowhere. -/
theorem map_getDie_setDie {β : Type*} (b : Build) {p d : Nat} {old die : DieNode}
    (h : b.getDie p d = some old) {f : DieNode → β} (hf : f die = f old) (p' d' : Nat) :
    ((b.setDie p d die).getDie p' d').map f = (b.getDie p' d').map f := by
  by_cases hpos : (p', d') = (p, d)
  · cases hpos
    rw [getDie_setDie_self b h, h, Option.map_some, Option.map_some, hf]
  · rw [getDie_setDie_ne b hpos]

@[simp] theorem setDie_heap (b : Build) (p d : Nat) (die : DieNode) :
    (b.setDie p d die).heap = b.heap := rfl

@[simp] theorem setDie_next (b : Build) (p d : Nat) (die : DieNode) :
    (b.setDie p d die).next = b.next := rfl

@[simp] theorem modifyPackage_heap (b : Build) (p : Nat) (f : List DieNode → List DieNode) :
    (b.modifyPackage p f).heap = b.heap := rfl

@[simp] theorem modifyPackage_next (b : Build) (p : Nat) (f : List DieNode → List DieNode) :
    (b.modifyPackage p f).next = b.next := rfl

@[simp] theorem modifyPackage_socketIds (b : Build) (p : Nat)
    (f : List DieNode → List DieNode) : (b.modifyPackage p f).socketIds = b.socketIds := by
  unfold socketIds modifyPackage
  simp only
  induction b.sockets generalizing p with
  | nil => simp
  | cons s l ih =>
      cases p with
      | zero => simp
      | succ p => simpa using ih p

@[simp] theorem setDie_socketIds (b : Build) (p d : Nat) (die : DieNode) :
    (b.setDie p d die).socketIds = b.socketIds :=
  modifyPackage_socketIds _ _ _

@[simp] theorem modifyPackage_length (b : Build) (p : Nat) (f : List DieNode → List DieNode) :
    (b.modifyPackage p f).sockets.length = b.sockets.length := by
  simp [modifyPackage]

@[simp] theorem moveHeap_sockets (b : Build) (old : Option Addr) (children : List ArchNode) :
    (b.moveHeap old children).sockets = b.sockets := by
  cases old <;> rfl

/-- The heap after a `realloc`, read at one address. -/
theorem moveHeap_heap (b : Build) (old : Option Addr) (children : List ArchNode) (a : Addr) :
    (b.moveHeap old children).heap a =
      if a = b.next then some children else if old = some a then none else b.heap a := by
  cases old with
  | none => simp [moveHeap, freeHeap, Function.update_apply]
  | some a' =>
      by_cases h : a = a'
      · simp [moveHeap, freeHeap, Function.update_apply, h]
      · have h' : ¬ a' = a := fun he => h he.symm
        simp [moveHeap, freeHeap, Function.update_apply, h, h']

theorem writeHeap_heap (b : Build) (a' : Addr) (children : List ArchNode) (a : Addr) :
    (b.writeHeap a' children).heap a = if a = a' then some children else b.heap a := by
  simp [writeHeap, Function.update_apply]

end Build

/-- `add_package` when memory is granted. -/
def openPackage (b : Build) (packageId : Int) : Build × Nat :=
  match findChild (b.sockets.map SocketNode.id) packageId with
  | some p => (b, p)
  | none =>
      let package : SocketNode := ⟨toInt32 packageId, some s!"Processor {packageId}", []⟩
      ({ b with sockets := b.sockets ++ [package] }, b.sockets.length)

theorem addPackage_granted (b : Build) (packageId : Int) :
    addPackage true b packageId = some (openPackage b packageId) := by
  unfold addPackage openPackage
  cases findChild (b.sockets.map SocketNode.id) packageId <;> rfl

theorem openPackage_lt (b : Build) (packageId : Int) :
    (openPackage b packageId).2 < (openPackage b packageId).1.sockets.length := by
  unfold openPackage
  cases h : findChild (b.sockets.map SocketNode.id) packageId with
  | some p =>
      have hget := findChild_some h
      rw [List.getElem?_map, Option.map_eq_some_iff] at hget
      obtain ⟨s, hs, _⟩ := hget
      exact (List.getElem?_eq_some_iff.mp hs).1
  | none => simp

@[simp] theorem openPackage_heap (b : Build) (packageId : Int) :
    (openPackage b packageId).1.heap = b.heap := by
  unfold openPackage
  cases findChild (b.sockets.map SocketNode.id) packageId <;> rfl

@[simp] theorem openPackage_next (b : Build) (packageId : Int) :
    (openPackage b packageId).1.next = b.next := by
  unfold openPackage
  cases findChild (b.sockets.map SocketNode.id) packageId <;> rfl

/-- A new package has no DIE yet. -/
@[simp] theorem openPackage_getDie (b : Build) (packageId : Int) (p d : Nat) :
    (openPackage b packageId).1.getDie p d = b.getDie p d := by
  unfold openPackage
  cases findChild (b.sockets.map SocketNode.id) packageId with
  | some _ => rfl
  | none =>
      unfold Build.getDie
      rcases Nat.lt_trichotomy p b.sockets.length with h | rfl | h
      · simp [List.getElem?_append_left h]
      · simp
      · rw [List.getElem?_eq_none (by simp; omega), List.getElem?_eq_none (by omega)]

/-- `add_node_to_package` when memory is granted. -/
def openDie (st : NodeLoop) (p : Nat) : NodeLoop :=
  match st.build.sockets[p]? with
  | none => st
  | some package =>
      match findChild (package.children.map DieNode.id) st.deref.id with
      | some d => { st with node := .inPackage p d }
      | none =>
          let unnamed := st.assign { st.deref with name := none }
          let build := unnamed.build.modifyPackage p (fun dies => dies ++ [st.deref])
          ⟨build, unnamed.scratch, .inPackage p package.children.length⟩

theorem addNodeToPackage_granted (st : NodeLoop) {p : Nat} (hp : p < st.build.sockets.length) :
    addNodeToPackage true st p = some (openDie st p) := by
  unfold addNodeToPackage openDie
  rw [List.getElem?_eq_getElem hp]
  simp only
  cases findChild ((st.build.sockets[p]).children.map DieNode.id) st.deref.id <;> rfl

/-- The array of a package after one DIE structure was appended. -/
theorem Build.getDie_push {b : Build} {p : Nat} {package : SocketNode}
    (hp : b.sockets[p]? = some package) (die : DieNode) (p' d' : Nat) :
    (b.modifyPackage p (fun dies => dies ++ [die])).getDie p' d' =
      if (p', d') = (p, package.children.length) then some die else b.getDie p' d' := by
  by_cases hpp : p = p'
  · subst hpp
    rw [Build.getDie_modifyPackage, hp]
    unfold Build.getDie
    rw [hp]
    simp only [if_true, Prod.mk.injEq, true_and]
    split
    · rename_i h
      simp [h]
    · rename_i h
      rcases Nat.lt_or_gt_of_ne h with hlt | hgt
      · rw [List.getElem?_append_left hlt]
      · rw [List.getElem?_eq_none (by simp; omega), List.getElem?_eq_none (by omega)]
  · rw [Build.getDie_modifyPackage_ne b _ hpp, if_neg]
    intro h
    exact hpp (Prod.mk.inj h).1.symm

/-- Writing a DIE structure keeps the number of DIEs of every package. -/
theorem Build.setDie_sockets {b : Build} {p : Nat} {package : SocketNode}
    (hp : b.sockets[p]? = some package) (p' d' : Nat) (die : DieNode) :
    ∃ package', (b.setDie p' d' die).sockets[p]? = some package' ∧
      package'.children.length = package.children.length := by
  unfold Build.setDie Build.modifyPackage
  simp only [List.getElem?_modify, hp]
  by_cases h : p' = p
  · exact ⟨_, by simp [h]; rfl, by simp⟩
  · exact ⟨package, by simp [h], rfl⟩

namespace NodeLoop

/-- The variables of `process_node` between two rounds: the scratch entry has no
children and `node` points to a structure. -/
structure Ok (st : NodeLoop) : Prop where
  scratch : st.scratch.children = none
  cursor : ∀ p d, st.node = .inPackage p d → ∃ die, st.build.getDie p d = some die

theorem deref_inPackage {st : NodeLoop} {p d : Nat} {die : DieNode}
    (hnode : st.node = .inPackage p d) (h : st.build.getDie p d = some die) :
    st.deref = die := by
  unfold deref
  rw [hnode]
  simp [h]

/-- What assigning to `*node` a structure with the same children and id changes. -/
theorem assign_same {st : NodeLoop} (hok : st.Ok) (die : DieNode)
    (hc : die.children = st.deref.children) (hid : die.id = st.deref.id) :
    (st.assign die).build.addrAt = st.build.addrAt ∧
      (st.assign die).build.dieIdAt = st.build.dieIdAt ∧
      (st.assign die).build.socketIds = st.build.socketIds ∧
      (st.assign die).build.heap = st.build.heap ∧
      (st.assign die).build.next = st.build.next ∧
      (st.assign die).scratch.children = none := by
  unfold assign
  cases hnode : st.node with
  | scratch =>
      refine ⟨rfl, rfl, rfl, rfl, rfl, ?_⟩
      rw [hc]
      unfold deref
      rw [hnode]
      exact hok.scratch
  | inPackage p d =>
      obtain ⟨old, hold⟩ := hok.cursor p d hnode
      rw [deref_inPackage hnode hold] at hc hid
      refine ⟨?_, ?_, Build.setDie_socketIds _ _ _ _, rfl, rfl, hok.scratch⟩
      · funext p' d'
        exact Build.map_getDie_setDie _ hold hc p' d'
      · funext p' d'
        exact Build.map_getDie_setDie _ hold hid p' d'

theorem assign_sockets {st : NodeLoop} {p : Nat} {package : SocketNode}
    (hp : st.build.sockets[p]? = some package) (die : DieNode) :
    (st.assign die).build.sockets.length = st.build.sockets.length ∧
    ∃ package', (st.assign die).build.sockets[p]? = some package' ∧
      package'.children.length = package.children.length := by
  unfold assign
  cases st.node with
  | scratch => exact ⟨rfl, package, hp, rfl⟩
  | inPackage p' d' => exact ⟨by simp [Build.setDie], Build.setDie_sockets hp p' d' die⟩

end NodeLoop

/-- The DIE of a package that has the id of `*node`. -/
def NodeLoop.dieAt (st : NodeLoop) (p : Nat) : Option Nat :=
  match st.build.sockets[p]? with
  | none => none
  | some package => findChild (package.children.map DieNode.id) st.deref.id

/-- The step from `st` to `st'` made `node` point to the DIE at a position, whose
children are at `ptr`: the structure was there or is a copy of `*node`. -/
structure Located (st st' : NodeLoop) (p d : Nat) (ptr : Option Addr) : Prop where
  node : st'.node = .inPackage p d
  heap : st'.build.heap = st.build.heap
  next : st'.build.next = st.build.next
  scratch : st'.scratch.children = none
  cursor : st'.build.addrAt p d = some ptr
  elsewhere : ∀ p' d', (p', d') ≠ (p, d) → st'.build.addrAt p' d' = st.build.addrAt p' d'
  source : st.dieAt p = some d ∧ st.build.addrAt p d = some ptr ∨
    st.dieAt p = none ∧ st.build.addrAt p d = none ∧ ptr = st.deref.children
  packages : st'.build.sockets.length = st.build.sockets.length
  idCursor : st'.build.dieIdAt p d = some st.deref.id
  idElsewhere : ∀ p' d', (p', d') ≠ (p, d) → st'.build.dieIdAt p' d' = st.build.dieIdAt p' d'
  socketIds : st'.build.socketIds = st.build.socketIds

theorem openDie_located {st : NodeLoop} (hok : st.Ok) {p : Nat}
    (hp : p < st.build.sockets.length) :
    ∃ d ptr, Located st (openDie st p) p d ptr := by
  obtain ⟨package, hpackage⟩ : ∃ package, st.build.sockets[p]? = some package :=
    ⟨_, List.getElem?_eq_getElem hp⟩
  have hat : st.dieAt p = findChild (package.children.map DieNode.id) st.deref.id := by
    unfold NodeLoop.dieAt
    rw [hpackage]
  unfold openDie
  rw [hpackage]
  simp only
  cases hfind : findChild (package.children.map DieNode.id) st.deref.id with
  | some d =>
      have hget := findChild_some hfind
      rw [List.getElem?_map, Option.map_eq_some_iff] at hget
      obtain ⟨die, hdie, hid⟩ := hget
      have hold : st.build.getDie p d = some die := by
        unfold Build.getDie
        rw [hpackage]
        exact hdie
      have haddr : st.build.addrAt p d = some die.children := by
        rw [Build.addrAt, hold, Option.map_some]
      have hidAt : st.build.dieIdAt p d = some st.deref.id := by
        rw [Build.dieIdAt, hold, Option.map_some, hid]
      exact ⟨d, die.children, rfl, rfl, rfl, hok.scratch, haddr, fun _ _ _ => rfl,
        .inl ⟨hat.trans hfind, haddr⟩, rfl, hidAt, fun _ _ _ => rfl, rfl⟩
  | none =>
      obtain ⟨haddr, hids, hsockets, hheap, hnext, hscratch⟩ :=
        NodeLoop.assign_same hok { st.deref with name := none } rfl rfl
      obtain ⟨hcount, package', hpackage', hlen⟩ :=
        NodeLoop.assign_sockets hpackage { st.deref with name := none }
      have hpush := Build.getDie_push hpackage' st.deref
      rw [hlen] at hpush
      refine ⟨package.children.length, st.deref.children, rfl, hheap, hnext, hscratch, ?_, ?_,
        .inr ⟨hat.trans hfind, ?_, rfl⟩, ?_, ?_, ?_, ?_⟩
      · unfold Build.addrAt
        rw [hpush, if_pos rfl]
        rfl
      · intro p' d' hne
        rw [← haddr]
        unfold Build.addrAt
        rw [hpush, if_neg hne]
      · unfold Build.addrAt Build.getDie
        rw [hpackage]
        simp
      · simpa using hcount
      · rw [Build.dieIdAt, hpush, if_pos rfl]
        rfl
      · intro p' d' hne
        rw [← hids, Build.dieIdAt, hpush, if_neg hne]
        rfl
      · rw [Build.modifyPackage_socketIds]
        exact hsockets

end ParseArchitecture
end X86Energy
