import X86Energy.Library.Ownership

/-!
# The files that a process has open

Each `fopen` returns a `FILE` of its own.  A library hands out objects that read from a
file each, and has to close every other file itself.

**Results.** `OwnedBy.fopen`, `OwnedBy.fclose`, `OwnedBy.add` and `OwnedBy.remove`: what opening
a file, closing one, and an object that gets or gives back its file do to the files that the
library has to answer for.
-/

namespace OpenFiles

open Ownership

variable {φ κ : Type*}

/-- What each open `FILE` refers to, and the next `FILE`. -/
structure Files (φ : Type*) where
  opened : Nat → Option φ
  next : Nat

/-- `fopen`. -/
def Files.fopen (files : Files φ) (file : φ) : Files φ :=
  ⟨alloc files.opened files.next file, files.next + 1⟩

/-- `fclose`. -/
def Files.fclose (files : Files φ) (fp : Nat) : Files φ :=
  { files with opened := fun i => if i = fp then none else files.opened i }

/-- Each object has the file that it stands for, and the files that are open are those of the
objects and the others, each once. -/
structure OwnedBy (fp : κ → Nat) (file : κ → φ) (files : Files φ) (objects : List κ)
    (others : List Nat) : Prop where
  reads : ∀ object ∈ objects, files.opened (fp object) = some (file object)
  owns : Owns files.opened (others ++ objects.map fp)
  fresh : ∀ i, files.next ≤ i → files.opened i = none

variable {fp : κ → Nat} {file : κ → φ} {files : Files φ} {objects : List κ} {others : List Nat}

theorem ownedBy_empty (h : files.opened = empty) : OwnedBy fp file files [] [] := by
  refine ⟨nofun, ?_, fun _ _ => by rw [h, empty]⟩
  rw [h]
  exact owns_empty

theorem opened_fopen (files : Files φ) (x : φ) : (files.fopen x).opened files.next = some x :=
  (alloc_apply x _).trans (if_pos rfl)

theorem OwnedBy.fopen (h : OwnedBy fp file files objects others) (x : φ) :
    OwnedBy fp file (files.fopen x) objects (files.next :: others) := by
  have hnew := h.fresh files.next (Nat.le_refl _)
  refine ⟨fun object hobject => ?_, h.owns.alloc hnew x, fun i hi => ?_⟩
  · have hreads := h.reads object hobject
    have hne : fp object ≠ files.next := by
      intro heq
      rw [heq, hnew] at hreads
      cases hreads
    exact (alloc_apply x _).trans (by rw [if_neg hne, hreads])
  · have hlt : files.next + 1 ≤ i := hi
    exact (alloc_apply x _).trans (by rw [if_neg (by omega), h.fresh i (by omega)])

theorem OwnedBy.fclose {i : Nat} (h : OwnedBy fp file files objects (i :: others)) :
    OwnedBy fp file (files.fclose i) objects others := by
  have hnot : i ∉ others ++ objects.map fp := (List.nodup_cons.mp h.owns.nodup).1
  obtain ⟨heap, hfree, howns⟩ := h.owns.free (List.mem_cons_self ..)
  obtain rfl := (free_eq_some.mp hfree).2
  refine ⟨fun object hobject => ?_, ?_, fun other hother => ?_⟩
  · have hne : fp object ≠ i := by
      intro heq
      exact hnot (List.mem_append_right _ (heq ▸ List.mem_map_of_mem hobject))
    exact (if_neg hne).trans (h.reads object hobject)
  · rw [List.cons_append, List.erase_cons_head] at howns
    exact howns
  · change (if other = i then none else files.opened other) = none
    split
    · rfl
    · exact h.fresh other hother

/-- A file that is opened and closed again leaves the others. -/
theorem OwnedBy.opened_visit (h : OwnedBy fp file files objects others) (x : φ) (i : Nat) :
    ((files.fopen x).fclose files.next).opened i = files.opened i := by
  by_cases hi : i = files.next
  · rw [hi, h.fresh _ (Nat.le_refl _)]
    exact if_pos rfl
  · exact (if_neg hi).trans ((alloc_apply x i).trans (if_neg hi))

/-- A file becomes that of a new object. -/
theorem OwnedBy.add {object : κ} (h : OwnedBy fp file files objects (fp object :: others))
    (hfile : files.opened (fp object) = some (file object)) :
    OwnedBy fp file files (objects ++ [object]) others := by
  refine ⟨fun other hother => ?_, h.owns.perm ?_, h.fresh⟩
  · rcases List.mem_append.mp hother with hother | hother
    · exact h.reads other hother
    · obtain rfl := List.mem_singleton.mp hother
      exact hfile
  · rw [List.map_append, List.map_singleton, ← List.append_assoc]
    exact (List.perm_append_singleton _ _).symm

/-- An object gives its file back. -/
theorem OwnedBy.remove (h : OwnedBy fp file files objects others) {position : Nat}
    (hlt : position < objects.length) :
    OwnedBy fp file files (objects.eraseIdx position) (fp objects[position] :: others) := by
  refine ⟨fun object hobject => h.reads object (List.mem_of_mem_eraseIdx hobject),
    h.owns.perm ?_, h.fresh⟩
  have hsplit := (List.getElem_cons_eraseIdx_perm hlt).map fp
  exact (List.Perm.append_left others hsplit.symm).trans List.perm_middle

/-- Only the files of the objects matter. -/
theorem OwnedBy.congr {objects' : List κ} (h : OwnedBy fp file files objects others)
    (hsame : objects'.map (fun object => (fp object, file object)) =
      objects.map fun object => (fp object, file object)) :
    OwnedBy fp file files objects' others := by
  refine ⟨fun object hobject => ?_, ?_, h.fresh⟩
  · have hmem := List.mem_map_of_mem (f := fun object => (fp object, file object)) hobject
    rw [hsame] at hmem
    obtain ⟨old, hold, heq⟩ := List.mem_map.mp hmem
    obtain ⟨hfp, hfile⟩ := Prod.mk.inj heq
    rw [← hfp, ← hfile]
    exact h.reads old hold
  · have hfps := congrArg (List.map Prod.fst) hsame
    rw [List.map_map, List.map_map] at hfps
    exact (congrArg (others ++ ·) hfps) ▸ h.owns

end OpenFiles
