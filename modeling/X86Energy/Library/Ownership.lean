import Mathlib.Data.List.Nodup
import Mathlib.Data.List.Perm.Basic
import Mathlib.Logic.Function.Basic

/-!
# Who owns what is allocated

A heap maps addresses to what is allocated there; `free` fails at an address at which
nothing is.  A list of addresses `Owns` a heap if it has every allocated address once.
So a program that keeps such a list never frees anything twice, and it leaks nothing
if the list is empty in the end.  Descriptors and file handles are heaps as well.

**Results.**
* `Owns.alloc`, `Owns.free`: allocating and freeing keep the list up to date;
* `foldlM_free_iff`: which lists can be freed one after another, and what is left;
* `Owns.freeAll`: freeing all that is owned leaves nothing.
-/

namespace Ownership

variable {ι α : Type*}

/-- Nothing is allocated. -/
def empty : ι → Option α := fun _ => none

/-- The list has every allocated address once. -/
structure Owns (heap : ι → Option α) (owned : List ι) : Prop where
  nodup : owned.Nodup
  allocated : ∀ a, heap a ≠ none ↔ a ∈ owned

theorem owns_empty : Owns (empty : ι → Option α) [] :=
  ⟨List.nodup_nil, fun a => by simp [empty]⟩

/-- The order of the owners does not matter. -/
theorem Owns.perm {heap : ι → Option α} {owned owned' : List ι} (h : Owns heap owned)
    (hperm : owned.Perm owned') : Owns heap owned' :=
  ⟨hperm.nodup_iff.mp h.nodup, fun a => (h.allocated a).trans hperm.mem_iff⟩

/-- An update in place that keeps what each element answers for. -/
theorem map_modify_of_keeps {β γ : Type*} {g : β → γ} {f : β → β} (h : ∀ x, g (f x) = g x)
    (l : List β) (i : Nat) : (l.modify i f).map g = l.map g := by
  apply List.ext_getElem?
  intro j
  rw [List.getElem?_map, List.getElem?_map, List.getElem?_modify]
  cases l[j]? with
  | none => rfl
  | some x =>
      by_cases hj : i = j
      · simp [hj, h]
      · simp [hj]

variable [DecidableEq ι]

/-- `malloc`, or `open`, with an address that is chosen by the environment. -/
def alloc (heap : ι → Option α) (a : ι) (x : α) : ι → Option α := Function.update heap a (some x)

/-- `free`, or `close`; `none` if there is nothing at the address. -/
def free (heap : ι → Option α) (a : ι) : Option (ι → Option α) :=
  match heap a with
  | none => none
  | some _ => some (Function.update heap a none)

variable {heap heap' : ι → Option α} {owned : List ι} {a : ι}

theorem alloc_apply (x : α) (i : ι) : alloc heap a x i = if i = a then some x else heap i :=
  Function.update_apply heap a (some x) i

theorem free_eq_some :
    free heap a = some heap' ↔ heap a ≠ none ∧ heap' = fun i => if i = a then none else heap i := by
  have hupdate : Function.update heap a none = fun i => if i = a then none else heap i := by
    funext i
    exact Function.update_apply heap a none i
  unfold free
  cases hget : heap a with
  | none => simp
  | some x => simp [hupdate, eq_comm]

theorem Owns.alloc (h : Owns heap owned) (hfresh : heap a = none) (x : α) :
    Owns (alloc heap a x) (a :: owned) := by
  refine ⟨List.nodup_cons.mpr ⟨fun ha => (h.allocated a).mpr ha hfresh, h.nodup⟩, fun i => ?_⟩
  rw [alloc_apply, List.mem_cons]
  by_cases hi : i = a
  · simp [hi]
  · simp [hi, h.allocated i]

/-- What is owned can be freed. -/
theorem Owns.free (h : Owns heap owned) (ha : a ∈ owned) :
    ∃ heap', free heap a = some heap' ∧ Owns heap' (owned.erase a) := by
  refine ⟨_, free_eq_some.mpr ⟨(h.allocated a).mpr ha, rfl⟩, h.nodup.erase a, fun i => ?_⟩
  rw [h.nodup.mem_erase_iff]
  by_cases hi : i = a
  · simp [hi]
  · simp [hi, h.allocated i]

/-- **Which lists can be freed one after another**, and what they leave. -/
theorem foldlM_free_iff {l : List ι} :
    l.foldlM free heap = some heap' ↔
      l.Nodup ∧ (∀ a ∈ l, heap a ≠ none) ∧ heap' = fun i => if i ∈ l then none else heap i := by
  induction l generalizing heap with
  | nil => simp [eq_comm]
  | cons a l ih =>
      rw [List.foldlM_cons, Option.bind_eq_bind, Option.bind_eq_some_iff]
      constructor
      · rintro ⟨heap₁, hfree, hrest⟩
        obtain ⟨halloc, rfl⟩ := free_eq_some.mp hfree
        obtain ⟨hnodup, hlive, rfl⟩ := ih.mp hrest
        have hother : ∀ b ∈ l, b ≠ a ∧ heap b ≠ none := by
          intro b hb
          have hb' := hlive b hb
          by_cases hba : b = a
          · simp [hba] at hb'
          · exact ⟨hba, by simpa [hba] using hb'⟩
        refine ⟨List.nodup_cons.mpr ⟨fun ha => (hother a ha).1 rfl, hnodup⟩, ?_, ?_⟩
        · simpa [halloc] using fun b hb => (hother b hb).2
        · funext i
          by_cases hi : i = a
          · simp [hi]
          · simp [hi]
      · rintro ⟨hnodup, hlive, rfl⟩
        obtain ⟨hnot, hnodup⟩ := List.nodup_cons.mp hnodup
        refine ⟨_, free_eq_some.mpr ⟨hlive a (by simp), rfl⟩, ih.mpr ⟨hnodup, fun b hb => ?_, ?_⟩⟩
        · have hba : b ≠ a := fun hba => hnot (hba ▸ hb)
          simpa [hba] using hlive b (by simp [hb])
        · funext i
          by_cases hi : i = a
          · simp [hi]
          · simp [hi]

/-- Freeing all that is owned leaves nothing. -/
theorem Owns.freeAll (h : Owns heap owned) : owned.foldlM Ownership.free heap = some empty := by
  refine foldlM_free_iff.mpr ⟨h.nodup, fun a ha => (h.allocated a).mpr ha, ?_⟩
  funext i
  by_cases hi : i ∈ owned
  · simp [hi, empty]
  · have hnone : heap i = none := by
      by_contra hsome
      exact hi ((h.allocated i).mp hsome)
    simp [hi, hnone, empty]

end Ownership
