import Mathlib.Logic.Function.Basic

/-!
# Samples that are stored late

Several readers take samples of a count that does not fall, and the count moves by less
than `m` from one sample to the next.  A reader keeps its sample for a while before it
stores it.

If nobody stores a sample while a lower one is still kept, what is stored moves like the
count itself: it does not fall, and by less than `m` at a time (`Delayed.store`).  Once no
sample is kept, nothing is missing (`Delayed.settled`).
-/

namespace Samples

variable {ι : Type} {m latest stored : Nat} {kept : ι → Option Nat}

/-- The latest sample, what is stored, and the samples that are kept: above every sample
but the latest there is another one, less than `m` higher, that is still to be stored. -/
structure Delayed (m latest stored : Nat) (kept : ι → Option Nat) : Prop where
  stored_le : stored ≤ latest
  floor : ∀ i e, kept i = some e → stored ≤ e
  ceiling : ∀ i e, kept i = some e → e ≤ latest
  next : ∀ v, v = stored ∨ (∃ i, kept i = some v) → v < latest →
    ∃ i w, kept i = some w ∧ v < w ∧ w < v + m

/-- The sample of a reader is the lowest that is kept. -/
def Lowest (kept : ι → Option Nat) (e : Nat) : Prop := ∀ i e', kept i = some e' → e ≤ e'

theorem Delayed.start (h : ∀ i, kept i = none) : Delayed m stored stored kept where
  stored_le := Nat.le_refl _
  floor i e hi := by simp [h i] at hi
  ceiling i e hi := by simp [h i] at hi
  next v hv' hv := by
    rcases hv' with rfl | ⟨i, hi⟩
    · exact absurd hv (Nat.lt_irrefl _)
    · simp [h i] at hi

/-- Once no sample is kept, the latest is stored. -/
theorem Delayed.settled (h : Delayed m latest stored kept) (hnone : ∀ i, kept i = none) :
    stored = latest := by
  have hle := h.stored_le
  by_contra hne
  obtain ⟨i, w, hw, _⟩ := h.next stored (.inl rfl) (by omega)
  simp [hnone i] at hw

/-- The lowest sample is less than `m` above what is stored. -/
theorem Delayed.lowest_lt (h : Delayed m latest stored kept) (hm : 0 < m) {i : ι} {e : Nat}
    (hi : kept i = some e) (hlowest : Lowest kept e) : e < stored + m := by
  have hle := h.ceiling i e hi
  by_cases hlast : stored < latest
  · obtain ⟨j, w, hj, _, hw⟩ := h.next stored (.inl rfl) hlast
    exact Nat.lt_of_le_of_lt (hlowest j w hj) hw
  · omega

section Steps

variable [DecidableEq ι] {i : ι} {e : Nat}

/-- A reader takes a sample. -/
theorem Delayed.sample (h : Delayed m latest stored kept) (hfree : kept i = none)
    (hle : latest ≤ e) (hlt : e < latest + m) :
    Delayed m e stored (Function.update kept i (some e)) := by
  have hself : Function.update kept i (some e) i = some e := Function.update_self ..
  have hold : ∀ j v, kept j = some v → Function.update kept i (some e) j = some v := by
    intro j v hj
    have hne : j ≠ i := fun hji => by simp [hji, hfree] at hj
    rw [Function.update_of_ne hne, hj]
  have hnew : ∀ j v, Function.update kept i (some e) j = some v → v = e ∨ kept j = some v := by
    intro j v hj
    by_cases hji : j = i
    · rw [hji, hself] at hj
      exact .inl (Option.some.inj hj).symm
    · rw [Function.update_of_ne hji] at hj
      exact .inr hj
  refine ⟨Nat.le_trans h.stored_le hle, fun j v hj => ?_, fun j v hj => ?_, fun v hv hbelow => ?_⟩
  · rcases hnew j v hj with rfl | hj
    · exact Nat.le_trans h.stored_le hle
    · exact h.floor j v hj
  · rcases hnew j v hj with rfl | hj
    · exact Nat.le_refl _
    · exact Nat.le_trans (h.ceiling j v hj) hle
  · have hv' : v = stored ∨ ∃ j, kept j = some v := by
      rcases hv with hv | ⟨j, hj⟩
      · exact .inl hv
      · rcases hnew j v hj with rfl | hj
        · exact absurd hbelow (Nat.lt_irrefl _)
        · exact .inr ⟨j, hj⟩
    have hvle : v ≤ latest := by
      rcases hv' with rfl | ⟨j, hj⟩
      · exact h.stored_le
      · exact h.ceiling j v hj
    by_cases hlast : v < latest
    · obtain ⟨j, w, hj, hw⟩ := h.next v hv' hlast
      exact ⟨j, w, hold j w hj, hw⟩
    · exact ⟨i, e, hself, hbelow, by omega⟩

/-- **A reader stores the lowest sample.** -/
theorem Delayed.store (h : Delayed m latest stored kept) (hi : kept i = some e)
    (hlowest : Lowest kept e) : Delayed m latest e (Function.update kept i none) := by
  have hrest : ∀ j v, Function.update kept i none j = some v → kept j = some v := by
    intro j v hj
    by_cases hji : j = i
    · rw [hji, Function.update_self] at hj
      cases hj
    · rwa [Function.update_of_ne hji] at hj
  refine ⟨h.ceiling i e hi, fun j v hj => hlowest j v (hrest j v hj),
    fun j v hj => h.ceiling j v (hrest j v hj), fun v hv hbelow => ?_⟩
  have hv' : e ≤ v ∧ ∃ j, kept j = some v := by
    rcases hv with rfl | ⟨j, hj⟩
    · exact ⟨Nat.le_refl _, i, hi⟩
    · exact ⟨hlowest j v (hrest j v hj), j, hrest j v hj⟩
  obtain ⟨j, w, hj, hvw, hw⟩ := h.next v (.inr hv'.2) hbelow
  have hne : j ≠ i := by
    rintro rfl
    rw [hi] at hj
    cases hj
    omega
  exact ⟨j, w, by rwa [Function.update_of_ne hne], hvw, hw⟩

end Steps

end Samples
