import Mathlib.Data.List.Nodup
import Mathlib.Logic.Equiv.Basic

/-!
# Objects that can be moved and not copied

Each object holds a resource, or none after it was moved from.  A move, also an assignment
that swaps, exchanges what two objects hold.  So a program that acquires and releases
resources only in constructors and destructors has each of them in one object
(`Owned`).

**Results.** `Owned.acquire`, `Owned.exchange` and `Owned.release`.
-/

namespace MoveOnly

variable {ν ρ : Type*}

/-- Each resource that is live is held by one object, and nothing else is held. -/
structure Owned (holds : ν → Option ρ) (live : List ρ) : Prop where
  nodup : live.Nodup
  mem_iff : ∀ r, r ∈ live ↔ ∃ v, holds v = some r
  unique : ∀ v w r, holds v = some r → holds w = some r → v = w

variable {holds : ν → Option ρ} {live : List ρ}

theorem owned_nothing : Owned (fun _ : ν => (none : Option ρ)) [] :=
  ⟨List.nodup_nil, fun _ => by simp, nofun⟩

variable [DecidableEq ν]

/-- An object that held nothing gets a new resource. -/
theorem Owned.acquire (h : Owned holds live) {v : ν} {r : ρ} (hv : holds v = none)
    (hr : r ∉ live) : Owned (Function.update holds v (some r)) (r :: live) := by
  have hnew : ∀ w, holds w ≠ some r := fun w hw => hr ((h.mem_iff r).mpr ⟨w, hw⟩)
  refine ⟨List.nodup_cons.mpr ⟨hr, h.nodup⟩, fun x => ?_, fun w w' x hw hw' => ?_⟩
  · rw [List.mem_cons, h.mem_iff]
    constructor
    · rintro (rfl | ⟨w, hw⟩)
      · exact ⟨v, Function.update_self ..⟩
      · refine ⟨w, ?_⟩
        rw [Function.update_of_ne, hw]
        rintro rfl
        rw [hv] at hw
        cases hw
    · rintro ⟨w, hw⟩
      by_cases hwv : w = v
      · rw [hwv, Function.update_self] at hw
        exact .inl (Option.some.inj hw).symm
      · rw [Function.update_of_ne hwv] at hw
        exact .inr ⟨w, hw⟩
  · by_cases hwv : w = v
    · by_cases hwv' : w' = v
      · rw [hwv, hwv']
      · rw [hwv, Function.update_self] at hw
        rw [Function.update_of_ne hwv', ← hw] at hw'
        exact absurd hw' (hnew w')
    · by_cases hwv' : w' = v
      · rw [hwv', Function.update_self] at hw'
        rw [Function.update_of_ne hwv, ← hw'] at hw
        exact absurd hw (hnew w)
      · rw [Function.update_of_ne hwv] at hw
        rw [Function.update_of_ne hwv'] at hw'
        exact h.unique w w' x hw hw'

/-- What two objects hold is exchanged. -/
theorem Owned.exchange (h : Owned holds live) (v w : ν) :
    Owned (fun x => holds (Equiv.swap v w x)) live := by
  refine ⟨h.nodup, fun r => (h.mem_iff r).trans ?_, fun x y r hx hy => ?_⟩
  · constructor
    · rintro ⟨x, hx⟩
      exact ⟨Equiv.swap v w x, by rw [Equiv.swap_apply_self, hx]⟩
    · rintro ⟨x, hx⟩
      exact ⟨_, hx⟩
  · exact (Equiv.swap v w).injective (h.unique _ _ r hx hy)

/-- An object releases its resource, which is live. -/
theorem Owned.release [BEq ρ] [LawfulBEq ρ] (h : Owned holds live) {v : ν} {r : ρ}
    (hv : holds v = some r) :
    r ∈ live ∧ Owned (Function.update holds v none) (live.erase r) := by
  refine ⟨(h.mem_iff r).mpr ⟨v, hv⟩, h.nodup.erase r, fun x => ?_, fun w w' x hw hw' => ?_⟩
  · rw [h.nodup.mem_erase_iff, h.mem_iff]
    constructor
    · rintro ⟨hne, w, hw⟩
      refine ⟨w, ?_⟩
      rw [Function.update_of_ne, hw]
      rintro rfl
      rw [hv] at hw
      exact hne (Option.some.inj hw).symm
    · rintro ⟨w, hw⟩
      by_cases hwv : w = v
      · rw [hwv, Function.update_self] at hw
        cases hw
      · rw [Function.update_of_ne hwv] at hw
        refine ⟨?_, w, hw⟩
        rintro rfl
        exact hwv (h.unique w v x hw hv)
  · have hheld : ∀ y, Function.update holds v none y = some x → holds y = some x := by
      intro y hy
      by_cases hyv : y = v
      · rw [hyv, Function.update_self] at hy
        cases hy
      · rwa [Function.update_of_ne hyv] at hy
    exact h.unique w w' x (hheld w hw) (hheld w' hw')

end MoveOnly
