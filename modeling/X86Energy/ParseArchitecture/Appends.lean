import X86Energy.ParseArchitecture.Items

/-!
# Which appends C defines

What becomes of an append does not depend on the numbers that were collected, only on
`*length`, on the number of `realloc` calls and on the item (`Append.Defined`).  So it can be
said of the items of a text alone whether C leaves one of them undefined (`LeftUndefined`),
or `realloc` refuses one (`ReallocRefuses`).
-/

namespace X86Energy
namespace ParseArchitecture

open CInt

/-- What the code adds to `*length` for an item. -/
def Append.span : Append → Int
  | .number _ => 1
  | .range first last => last - first + 1

/-- `*length` and the number of `realloc` calls when the turn of an item comes. -/
structure Tally where
  length : Int
  calls : Nat

namespace Tally

/-- In front of the first item. -/
def start : Tally := ⟨0, 0⟩

/-- The bytes that an item asks `realloc` for. -/
def bytes (k : Tally) (item : Append) : Nat :=
  toSize (k.length + item.span) * 8 % 18446744073709551616

/-- The tally behind an item. -/
def add (k : Tally) (item : Append) : Tally := ⟨toInt32 (k.length + item.span), k.calls + 1⟩

end Tally

section Items

variable (grant : Nat → Nat → Bool)

/-- **C defines the append** of the item: nothing overflows, `realloc` is not asked to free the
array, and if it grants the request every store is inside the new array. -/
def Append.Defined (k : Tally) : Append → Prop
  | .number n =>
      k.length ≠ intMax ∧ (k.bytes (.number n) = 0 → k.calls = 0) ∧
        (grant k.calls (k.bytes (.number n)) = true → 0 ≤ k.length)
  | .range first last =>
      IsLong (last - first) ∧ IsLong (last - first + 1) ∧ IsLong (k.length + (last - first + 1)) ∧
        (k.bytes (.range first last) = 0 → k.calls = 0) ∧
        (grant k.calls (k.bytes (.range first last)) = true → first ≤ last →
          0 ≤ k.length ∧ k.length + (last - first + 1) < 2305843009213693952 ∧ last ≠ longMax)

/-- C leaves one of the appends undefined, and `realloc` grants those before it. -/
def LeftUndefined : Tally → List Append → Prop
  | _, [] => False
  | k, item :: items => ¬ item.Defined grant k ∨
      grant k.calls (k.bytes item) = true ∧ LeftUndefined (k.add item) items

/-- `realloc` refuses one of the appends, and C defines it and those before it. -/
def ReallocRefuses : Tally → List Append → Prop
  | _, [] => False
  | k, item :: items => item.Defined grant k ∧
      (grant k.calls (k.bytes item) = false ∨ ReallocRefuses (k.add item) items)

instance (k : Tally) (item : Append) : Decidable (item.Defined grant k) :=
  match item with
  | .number _ => inferInstanceAs (Decidable (_ ∧ _))
  | .range _ _ => inferInstanceAs (Decidable (_ ∧ _))

instance leftUndefinedDecidable : ∀ (k : Tally) (items : List Append),
    Decidable (LeftUndefined grant k items)
  | _, [] => inferInstanceAs (Decidable False)
  | k, item :: items =>
      have := leftUndefinedDecidable (k.add item) items
      inferInstanceAs (Decidable (_ ∨ _))

instance reallocRefusesDecidable : ∀ (k : Tally) (items : List Append),
    Decidable (ReallocRefuses grant k items)
  | _, [] => inferInstanceAs (Decidable False)
  | k, item :: items =>
      have := reallocRefusesDecidable (k.add item) items
      inferInstanceAs (Decidable (_ ∧ _))

end Items

/-- The state has this tally. -/
structure ListState.Tallied (st : ListState) (k : Tally) : Prop where
  length : st.length = k.length
  calls : st.calls = k.calls
  isSome : st.result.isSome = true ↔ k.calls ≠ 0
  isInt32 : IsInt32 k.length

theorem noNumbers_tallied : noNumbers.Tallied .start := ⟨rfl, rfl, by decide, by decide⟩

variable {grant : Nat → Nat → Bool} {st : ListState} {k : Tally}

/-- The filling loop ends exactly if its places are in the array. -/
theorem storeRange_cases (n : Nat) : ∀ (index value : Int) (tmp : List Int),
    ((n = 0 ∨ 0 ≤ index ∧ index + n ≤ tmp.length) ∧
      ∃ tmp', storeRange n index value tmp = .ok tmp') ∨
    ¬ (n = 0 ∨ 0 ≤ index ∧ index + n ≤ tmp.length) ∧
      storeRange n index value tmp = .error .undefined := by
  induction n with
  | zero => exact fun _ _ tmp => .inl ⟨.inl rfl, tmp, rfl⟩
  | succ n ih =>
      intro index value tmp
      rw [storeRange, storeLong]
      by_cases hfirst : 0 ≤ index ∧ index < tmp.length
      · rw [if_pos hfirst]
        have hlen : (tmp.set index.toNat value).length = tmp.length := List.length_set
        rcases ih (index + 1) (value + 1) (tmp.set index.toNat value) with
          ⟨hin, hstore⟩ | ⟨hout, hstore⟩
        · rw [hlen] at hin
          exact .inl ⟨by omega, hstore⟩
        · rw [hlen] at hout
          exact .inr ⟨by omega, hstore⟩
      · rw [if_neg hfirst]
        exact .inr ⟨by omega, rfl⟩

variable (grant) in
/-- What `realloc` can do with a request. -/
theorem reallocLongs_cases (hst : st.Tallied k) (bytes : Nat) :
    (¬ (bytes = 0 → k.calls = 0) ∧ reallocLongs grant st bytes = .error .undefined) ∨
    ((bytes = 0 → k.calls = 0) ∧ grant k.calls bytes = false ∧
      reallocLongs grant st bytes = .ok none) ∨
    ((bytes = 0 → k.calls = 0) ∧ grant k.calls bytes = true ∧
      ∃ tmp, tmp.length = bytes / 8 ∧ reallocLongs grant st bytes = .ok (some tmp)) := by
  have hfreed : bytes = 0 ∧ st.result.isSome = true ↔ ¬ (bytes = 0 → k.calls = 0) := by
    rw [hst.isSome, Classical.not_imp]
  unfold reallocLongs
  rw [hst.calls]
  by_cases hfree : bytes = 0 ∧ st.result.isSome = true
  · rw [if_pos hfree]
    exact .inl ⟨hfreed.mp hfree, rfl⟩
  · rw [if_neg hfree]
    have hkept := not_not.mp (mt hfreed.mpr hfree)
    cases hgrant : grant k.calls bytes with
    | false => exact .inr (.inl ⟨hkept, rfl, rfl⟩)
    | true =>
        refine .inr (.inr ⟨hkept, rfl, _, ?_, rfl⟩)
        rw [List.length_append, List.length_take, List.length_replicate]
        omega

/-- **The ways of an append**: C leaves it undefined, `realloc` refuses it, or it ends with the
next tally. -/
inductive AppendCases (grant : Nat → Nat → Bool) (st : ListState) (k : Tally) (item : Append) :
    Prop
  | undefined (h : ¬ item.Defined grant k) (hstep : appendItem grant st item = .error .undefined)
  | refused (h : item.Defined grant k) (hgrant : grant k.calls (k.bytes item) = false)
      (hstep : appendItem grant st item = .ok none)
  | grown (st' : ListState) (h : item.Defined grant k)
      (hgrant : grant k.calls (k.bytes item) = true) (hst' : st'.Tallied (k.add item))
      (hstep : appendItem grant st item = .ok (some st'))

theorem appendNumber_cases (hst : st.Tallied k) (n : Int) :
    AppendCases grant st k (.number n) := by
  obtain ⟨hlower, hupper⟩ := hst.isInt32
  unfold intMin at hlower
  unfold intMax at hupper
  have hdef : appendItem grant st (.number n) = appendNumber grant st n := rfl
  have hbytes : toSize (k.length + 1) * 8 % 18446744073709551616 = k.bytes (.number n) := rfl
  unfold appendNumber at hdef
  rw [hst.length, hst.calls, hbytes] at hdef
  by_cases hmax : k.length = intMax
  · rw [if_pos hmax] at hdef
    exact .undefined (fun h => h.1 hmax) hdef
  · rw [if_neg hmax] at hdef
    rcases reallocLongs_cases grant hst (k.bytes (.number n)) with
      ⟨hfree, hrealloc⟩ | ⟨hkept, hgrant, hrealloc⟩ | ⟨hkept, hgrant, tmp, hlen, hrealloc⟩
    · rw [hrealloc] at hdef
      exact .undefined (fun h => hfree h.2.1) hdef
    · rw [hrealloc] at hdef
      exact .refused ⟨hmax, hkept, fun h => by rw [hgrant] at h; cases h⟩ hgrant hdef
    · rw [hrealloc] at hdef
      unfold intMax at hmax
      by_cases hneg : 0 ≤ k.length
      · have hin : 0 ≤ k.length ∧ k.length < tmp.length := by
          rw [hlen, ← hbytes]
          unfold toSize
          omega
        simp only [storeLong, if_pos hin] at hdef
        have hint : toInt32 (k.length + 1) = k.length + 1 := by
          refine toInt32_of_isInt32 ⟨?_, ?_⟩
          · unfold intMin
            omega
          · unfold intMax
            omega
        exact .grown _ ⟨hmax, hkept, fun _ => hneg⟩ hgrant
          ⟨hint.symm, rfl, by simp [Tally.add], toInt32_isInt32 _⟩ hdef
      · have hout : ¬ (0 ≤ k.length ∧ k.length < tmp.length) := fun hin => hneg hin.1
        simp only [storeLong, if_neg hout] at hdef
        exact .undefined (fun h => hneg (h.2.2 hgrant)) hdef

theorem appendRange_cases (hst : st.Tallied k) (first last : Int) :
    AppendCases grant st k (.range first last) := by
  have hdef : appendItem grant st (.range first last) = appendRange grant st first last := rfl
  have hbytes : toSize (k.length + (last - first + 1)) * 8 % 18446744073709551616 =
    k.bytes (.range first last) := rfl
  unfold appendRange at hdef
  rw [hst.length, hst.calls, hbytes] at hdef
  by_cases hlong : ¬ IsLong (last - first) ∨ ¬ IsLong (last - first + 1) ∨
      ¬ IsLong (k.length + (last - first + 1))
  · rw [if_pos hlong] at hdef
    refine .undefined (fun h => ?_) hdef
    rcases hlong with hnot | hnot | hnot
    · exact hnot h.1
    · exact hnot h.2.1
    · exact hnot h.2.2.1
  · rw [if_neg hlong] at hdef
    simp only [not_or, not_not] at hlong
    obtain ⟨hdiff, hspan, htotal⟩ := hlong
    rcases reallocLongs_cases grant hst (k.bytes (.range first last)) with
      ⟨hfree, hrealloc⟩ | ⟨hkept, hgrant, hrealloc⟩ | ⟨hkept, hgrant, tmp, hlen, hrealloc⟩
    · rw [hrealloc] at hdef
      exact .undefined (fun h => hfree h.2.2.2.1) hdef
    · rw [hrealloc] at hdef
      exact .refused ⟨hdiff, hspan, htotal, hkept, fun h => by rw [hgrant] at h; cases h⟩ hgrant hdef
    · rw [hrealloc] at hdef
      -- the places of the range are in the array
      have hin : ((last - first + 1).toNat = 0 ∨
          0 ≤ k.length ∧ k.length + (last - first + 1).toNat ≤ tmp.length) ↔
          (first ≤ last → 0 ≤ k.length ∧
            k.length + (last - first + 1) < 2305843009213693952) := by
        unfold IsLong longMin longMax at htotal
        rw [hlen, ← hbytes]
        unfold toSize
        omega
      rcases storeRange_cases (last - first + 1).toNat k.length first tmp with
        ⟨hplaces, tmp', hstore⟩ | ⟨hplaces, hstore⟩
      · simp only [hstore] at hdef
        have hplaces := hin.mp hplaces
        by_cases hlast : first ≤ last ∧ last = longMax
        · rw [if_pos hlast] at hdef
          exact .undefined (fun h => (h.2.2.2.2 hgrant hlast.1).2.2 hlast.2) hdef
        · rw [if_neg hlast] at hdef
          refine .grown _ ⟨hdiff, hspan, htotal, hkept, fun _ hle => ?_⟩ hgrant
            ⟨rfl, rfl, by simp [Tally.add], toInt32_isInt32 _⟩ hdef
          exact ⟨(hplaces hle).1, (hplaces hle).2, fun hmax => hlast ⟨hle, hmax⟩⟩
      · simp only [hstore] at hdef
        refine .undefined (fun h => hplaces (hin.mpr fun hle => ?_)) hdef
        obtain ⟨hpos, hfits, _⟩ := h.2.2.2.2 hgrant hle
        exact ⟨hpos, hfits⟩

variable (grant) in
theorem appendItem_cases (hst : st.Tallied k) (item : Append) : AppendCases grant st k item := by
  cases item with
  | number n => exact appendNumber_cases hst n
  | range first last => exact appendRange_cases hst first last

variable (grant) in
/-- **The appends of the items**, from any state with the tally. -/
theorem appendAll_iff (items : List Append) : ∀ {st : ListState} {k : Tally}, st.Tallied k →
    (appendAll grant st items = .error .undefined ↔ LeftUndefined grant k items) ∧
      (appendAll grant st items = .error .refused ↔ ReallocRefuses grant k items) := by
  unfold appendAll
  induction items with
  | nil => exact fun _ => ⟨iff_of_false nofun id, iff_of_false nofun id⟩
  | cons item items ih =>
      intro st k hst
      rw [Transition.run, LeftUndefined, ReallocRefuses]
      cases appendItem_cases grant hst item with
      | undefined h hitem =>
          have hstep : appendStep grant st item = .error .undefined := by
            unfold appendStep
            rw [hitem]
          simp [hstep, h]
      | refused h hgrant hitem =>
          have hstep : appendStep grant st item = .error .refused := by
            unfold appendStep
            rw [hitem]
          simp [hstep, h, hgrant]
      | grown st' h hgrant hst' hitem =>
          have hstep : appendStep grant st item = .ok st' := by
            unfold appendStep
            rw [hitem]
          obtain ⟨hundefined, hrefused⟩ := ih hst'
          simp only [hstep]
          rw [hundefined, hrefused]
          simp [h, hgrant]

end ParseArchitecture
end X86Energy
