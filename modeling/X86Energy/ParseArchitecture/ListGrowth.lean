import X86Energy.ParseArchitecture.Appends

/-!
# How the number list grows

At every append the code asks `realloc` for `sizeof(long)` times the new number of elements,
which it computes from an `int`, the difference of two `long` from the file and a `size_t`.
`GrowsRight` says what this computation is for: nothing wraps, every number has its place in
the new array, and `*length` counts the elements.

A range has `last - first + 1` numbers, but not if it descends, where this is negative and
the code takes elements away.  `growsRight_iff_fits` says when one append is right, and
`growsRight_throughout_iff` does so for the whole buffer.
-/

namespace X86Energy
namespace ParseArchitecture

open CInt

/-- The number of elements collected so far. -/
def ListState.collected (st : ListState) : Nat := (st.result.getD []).length

/-- The number of elements an item stands for. -/
def Append.count : Append → Nat
  | .number _ => 1
  | .range first last => (last - first + 1).toNat

/-- The bytes that the code asks `realloc` for, if no subtraction or addition overflows. -/
def request (st : ListState) : Append → Option Nat
  | .number _ =>
      if st.length = intMax then none
      else some (toSize (st.length + 1) * 8 % 18446744073709551616)
  | .range first last =>
      if ¬ IsLong (last - first) ∨ ¬ IsLong (last - first + 1) ∨
          ¬ IsLong (st.length + (last - first + 1)) then none
      else some (toSize (st.length + (last - first + 1)) * 8 % 18446744073709551616)

/-- **An append grows the array right.**  The request is `sizeof(long)` times the new count, and
no product of the code wraps.  If `realloc` succeeds, every store is inside the new array, the
append ends, and `*length` counts the elements, of which there are not less than before. -/
structure GrowsRight (grant : Nat → Nat → Bool) (st : ListState) (item : Append) : Prop where
  request : request st item = some (8 * (st.collected + item.count))
  unwrapped : 8 * (st.length + item.span) = (8 * (st.collected + item.count) : Nat)
  stores : ∀ tmp, reallocLongs grant st (8 * (st.collected + item.count)) = .ok (some tmp) →
    ∀ k < item.count, 0 ≤ st.length + k ∧ st.length + k < (st.collected + item.count : Nat)
  grown : ∀ tmp, reallocLongs grant st (8 * (st.collected + item.count)) = .ok (some tmp) →
    ∃ st', appendStep grant st item = .ok st' ∧ st'.collected = st.collected + item.count ∧
      st'.length = st'.collected ∧ st.length ≤ st'.length ∧ st'.length ≤ intMax

/-- A number fits if `*length` can count it; a range if it does not descend, its elements fit
the address space and, if `realloc` grants them, an `int` can count them and a `long` can pass
the last one. -/
def Append.Fits (grant : Nat → Nat → Bool) (st : ListState) : Append → Prop
  | .number _ => st.length < intMax
  | .range first last =>
      first ≤ last + 1 ∧ st.length + (last - first + 1) < 2305843009213693952 ∧
        (grant st.calls (8 * (st.length + (last - first + 1)).toNat) = true →
          st.length + (last - first + 1) ≤ intMax ∧ (first ≤ last → last ≠ longMax))

/-- `*length` counts the elements, as an `int`. -/
def ListState.Counted (st : ListState) : Prop :=
  st.length = st.collected ∧ st.length ≤ intMax

theorem noNumbers_counted : noNumbers.Counted := by
  constructor <;> decide

section Step

variable {grant : Nat → Nat → Bool} {st : ListState}

/-- A `realloc` that succeeds has been granted, and keeps the elements in front of the new. -/
theorem reallocLongs_eq_some {n : Nat} {tmp : List Int}
    (h : reallocLongs grant st (8 * (st.collected + n)) = .ok (some tmp)) :
    grant st.calls (8 * (st.collected + n)) = true ∧
      tmp = st.result.getD [] ++ List.replicate n 0 := by
  have hdiv : 8 * (st.collected + n) / 8 = st.collected + n := Nat.mul_div_cancel_left _ (by decide)
  unfold reallocLongs at h
  split at h
  · cases h
  · split at h
    · rename_i hgrant
      refine ⟨hgrant, ?_⟩
      cases h
      have hlength : (st.result.getD []).length = st.collected := rfl
      rw [hdiv, List.take_of_length_le (by omega), hlength, Nat.add_sub_cancel_left]
    · cases h

/-- A `realloc` that is granted, unless it is for no bytes. -/
theorem reallocLongs_of_grant {bytes : Nat} (hne : bytes ≠ 0)
    (hgrant : grant st.calls bytes = true) :
    ∃ tmp, reallocLongs grant st bytes = .ok (some tmp) := by
  unfold reallocLongs
  rw [if_neg (fun hfree => hne hfree.1), if_pos hgrant]
  exact ⟨_, rfl⟩

/-- The filling loop writes the numbers behind those already stored. -/
theorem storeRange_append (n : Nat) :
    ∀ (acc : List Int) (value : Int) (tail : List Int),
      storeRange n acc.length value (acc ++ List.replicate n 0 ++ tail) =
        .ok (acc ++ (List.range n).map (fun k : Nat => value + k) ++ tail) := by
  induction n with
  | zero =>
      intro acc value tail
      simp [storeRange]
  | succ n ih =>
      intro acc value tail
      have hset : (acc ++ List.replicate (n + 1) 0 ++ tail).set acc.length value =
          (acc ++ [value]) ++ List.replicate n 0 ++ tail := by
        simp [List.replicate_succ]
      have hstore : storeLong (acc ++ List.replicate (n + 1) 0 ++ tail) acc.length value =
          .ok ((acc ++ [value]) ++ List.replicate n 0 ++ tail) := by
        unfold storeLong
        rw [if_pos ⟨by omega, by simp; omega⟩, Int.toNat_natCast, hset]
      have hrest := ih (acc ++ [value]) (value + 1) tail
      have hcast : ((acc ++ [value]).length : Int) = (acc.length : Int) + 1 := by simp
      have hshift : (acc ++ [value]) ++ (List.range n).map (fun k : Nat => value + 1 + k) ++ tail =
          acc ++ (List.range (n + 1)).map (fun k : Nat => value + k) ++ tail := by
        rw [List.range_succ_eq_map]
        simp [Function.comp_def, add_comm]
        intro k _
        omega
      rw [hcast] at hrest
      simp only [storeRange, hstore]
      rw [hrest, hshift]

/-- An append that ends has been granted what it asked for. -/
theorem appendStep_ok {item : Append} {st' : ListState} (h : appendStep grant st item = .ok st') :
    ∃ bytes tmp, request st item = some bytes ∧ reallocLongs grant st bytes = .ok (some tmp) := by
  have hitem : appendItem grant st item = .ok (some st') := by
    unfold appendStep at h
    split at h <;> cases h
    assumption
  cases item with
  | number n =>
      change appendNumber grant st n = _ at hitem
      unfold appendNumber at hitem
      split at hitem
      · cases hitem
      · rename_i hmax
        split at hitem
        · cases hitem
        · cases hitem
        · rename_i tmp hrealloc
          exact ⟨_, tmp, if_neg hmax, hrealloc⟩
  | range first last =>
      change appendRange grant st first last = _ at hitem
      unfold appendRange at hitem
      split at hitem
      · cases hitem
      · rename_i hlong
        split at hitem
        · cases hitem
        · cases hitem
        · rename_i tmp hrealloc
          exact ⟨_, tmp, if_neg hlong, hrealloc⟩

/-- One number more, after `realloc` has granted its place. -/
theorem appendStep_number {n : Int} {tmp : List Int} (hst : st.Counted) (hmax : st.length < intMax)
    (htmp : reallocLongs grant st (8 * (st.collected + 1)) = .ok (some tmp)) :
    appendStep grant st (.number n) =
      .ok ⟨some (st.result.getD [] ++ [n]), st.length + 1, st.calls + 1⟩ := by
  obtain ⟨hlength, _⟩ := hst
  have hbytes : toSize (st.length + 1) * 8 % 18446744073709551616 = 8 * (st.collected + 1) := by
    unfold intMax at hmax
    unfold toSize
    omega
  obtain ⟨_, rfl⟩ := reallocLongs_eq_some htmp
  have hstore : storeLong (st.result.getD [] ++ List.replicate 1 0) st.length n =
      .ok (st.result.getD [] ++ [n]) := by
    rw [hlength]
    unfold ListState.collected storeLong
    simp
  have hitem : appendItem grant st (.number n) =
      .ok (some ⟨some (st.result.getD [] ++ [n]), st.length + 1, st.calls + 1⟩) := by
    change appendNumber grant st n = _
    unfold appendNumber
    rw [if_neg (by omega), hbytes, htmp]
    simp only [hstore]
  unfold appendStep
  rw [hitem]

/-- A range that does not descend, after `realloc` has granted the places. -/
theorem appendStep_range {first last : Int} {tmp : List Int} (hst : st.Counted)
    (hle : first ≤ last + 1) (hsize : st.length + (last - first + 1) < 2305843009213693952)
    (htmp : reallocLongs grant st (8 * (st.collected + (last - first + 1).toNat)) =
      .ok (some tmp)) :
    appendStep grant st (.range first last) =
      if first ≤ last ∧ last = longMax then .error .undefined
      else .ok ⟨some (st.result.getD [] ++
          (List.range (last - first + 1).toNat).map fun k : Nat => first + k),
        toInt32 (st.length + (last - first + 1)), st.calls + 1⟩ := by
  obtain ⟨hlength, _⟩ := hst
  have hbytes : toSize (st.length + (last - first + 1)) * 8 % 18446744073709551616 =
      8 * (st.collected + (last - first + 1).toNat) := by
    unfold toSize
    omega
  obtain ⟨_, rfl⟩ := reallocLongs_eq_some htmp
  have hstore := storeRange_append (last - first + 1).toNat (st.result.getD []) first []
  simp only [List.append_nil] at hstore
  have hcollected : ((st.result.getD []).length : Int) = st.length := by
    rw [hlength]
    rfl
  rw [hcollected] at hstore
  have hitem : appendItem grant st (.range first last) =
      if first ≤ last ∧ last = longMax then .error .undefined
      else .ok (some ⟨some (st.result.getD [] ++
          (List.range (last - first + 1).toNat).map fun k : Nat => first + k),
        toInt32 (st.length + (last - first + 1)), st.calls + 1⟩) := by
    change appendRange grant st first last = _
    have hlong : ¬ (¬ IsLong (last - first) ∨ ¬ IsLong (last - first + 1) ∨
        ¬ IsLong (st.length + (last - first + 1))) := by
      unfold IsLong longMin longMax
      omega
    unfold appendRange
    rw [if_neg hlong, hbytes, htmp]
    simp only [hstore]
  unfold appendStep
  rw [hitem]
  by_cases hlast : first ≤ last ∧ last = longMax
  · rw [if_pos hlast, if_pos hlast]
  · rw [if_neg hlast, if_neg hlast]

/-- What the request for a number amounts to. -/
theorem request_number_iff {n : Int} (hst : st.Counted) :
    request st (.number n) = some (8 * (st.collected + 1)) ↔ st.length < intMax := by
  obtain ⟨hlength, hmax⟩ := hst
  rw [request]
  by_cases hfull : st.length = intMax
  · rw [if_pos hfull]
    exact iff_of_false nofun (by omega)
  · rw [if_neg hfull]
    refine iff_of_true (congrArg some ?_) (by omega)
    unfold intMax at hmax
    unfold toSize
    omega

/-- **The request for a range is right exactly if** the range does not descend and its elements
fit the address space. -/
theorem request_range_iff {first last : Int} (hst : st.Counted) :
    (request st (.range first last) = some (8 * (st.collected + (last - first + 1).toNat)) ∧
      8 * (st.length + (last - first + 1)) =
        (8 * (st.collected + (last - first + 1).toNat) : Nat)) ↔
      first ≤ last + 1 ∧ st.length + (last - first + 1) < 2305843009213693952 := by
  obtain ⟨hlength, hmax⟩ := hst
  unfold intMax at hmax
  rw [request]
  by_cases hlong : ¬ IsLong (last - first) ∨ ¬ IsLong (last - first + 1) ∨
      ¬ IsLong (st.length + (last - first + 1))
  · rw [if_pos hlong]
    unfold IsLong longMin longMax at hlong
    exact iff_of_false (fun h => nomatch h.1) (by omega)
  · rw [if_neg hlong, Option.some.injEq]
    unfold toSize
    omega

theorem growsRight_number_iff {n : Int} (hst : st.Counted) :
    GrowsRight grant st (.number n) ↔ st.length < intMax := by
  have hlength := hst.1
  refine ⟨fun h => (request_number_iff hst).mp h.request, fun hmax => ?_⟩
  refine ⟨(request_number_iff hst).mpr hmax, ?_, ?_, ?_⟩
  · change 8 * (st.length + 1) = (8 * (st.collected + 1) : Nat)
    omega
  · intro tmp _ k hk
    exact ⟨by omega, by omega⟩
  · intro tmp htmp
    have hcollected : (st.result.getD [] ++ [n]).length = st.collected + 1 := by
      unfold ListState.collected
      simp
    refine ⟨_, appendStep_number hst hmax htmp, hcollected, ?_, ?_, hmax⟩
    · change st.length + 1 = ((st.result.getD [] ++ [n]).length : Int)
      omega
    · exact Int.le_add_one (Int.le_refl _)

/-- What the range of an append that is right needs, once `realloc` has granted it. -/
theorem GrowsRight.range_granted {first last : Int} (hst : st.Counted)
    (h : GrowsRight grant st (.range first last)) (hle : first ≤ last + 1)
    (hsize : st.length + (last - first + 1) < 2305843009213693952)
    (hgrant : grant st.calls (8 * (st.length + (last - first + 1)).toNat) = true) :
    st.length + (last - first + 1) ≤ intMax ∧ (first ≤ last → last ≠ longMax) := by
  have hlength := hst.1
  by_cases hzero : 8 * (st.collected + (last - first + 1).toNat) = 0
  · unfold intMax
    omega
  · have hbytes : 8 * (st.length + (last - first + 1)).toNat =
        8 * (st.collected + (last - first + 1).toNat) := by
      omega
    rw [hbytes] at hgrant
    obtain ⟨tmp, htmp⟩ := reallocLongs_of_grant hzero hgrant
    obtain ⟨st', hstep, hcollected, hlength', _, hmax⟩ := h.grown tmp htmp
    change _ = st.collected + (last - first + 1).toNat at hcollected
    refine ⟨by omega, fun hasc hlast => ?_⟩
    rw [appendStep_range hst hle hsize htmp, if_pos ⟨hasc, hlast⟩] at hstep
    cases hstep

/-- A range that fits is appended right. -/
theorem growsRight_range {first last : Int} (hst : st.Counted) (hle : first ≤ last + 1)
    (hsize : st.length + (last - first + 1) < 2305843009213693952)
    (hgranted : grant st.calls (8 * (st.length + (last - first + 1)).toNat) = true →
      st.length + (last - first + 1) ≤ intMax ∧ (first ≤ last → last ≠ longMax)) :
    GrowsRight grant st (.range first last) := by
  have hlength := hst.1
  have hcount : (Append.range first last).count = (last - first + 1).toNat := rfl
  obtain ⟨hrequest, hunwrapped⟩ := (request_range_iff hst).mpr ⟨hle, hsize⟩
  refine ⟨hrequest, hunwrapped, ?_, ?_⟩
  · intro tmp _ k hk
    exact ⟨by omega, by omega⟩
  · intro tmp htmp
    have hbytes : 8 * (st.length + (last - first + 1)).toNat =
        8 * (st.collected + (last - first + 1).toNat) := by
      omega
    have hgrant := (reallocLongs_eq_some htmp).1
    rw [hcount, ← hbytes] at hgrant
    obtain ⟨hmax, hlast⟩ := hgranted hgrant
    have hint : IsInt32 (st.length + (last - first + 1)) := by
      unfold IsInt32 intMin intMax
      unfold intMax at hmax
      omega
    have hstep := appendStep_range hst hle hsize htmp
    rw [if_neg fun h => hlast h.1 h.2, toInt32_of_isInt32 hint] at hstep
    have hcollected : (st.result.getD [] ++
        (List.range (last - first + 1).toNat).map fun k : Nat => first + k).length =
        st.collected + (last - first + 1).toNat := by
      unfold ListState.collected
      simp
    refine ⟨_, hstep, hcollected, ?_, ?_, hmax⟩
    · change st.length + (last - first + 1) = ((st.result.getD [] ++
        (List.range (last - first + 1).toNat).map fun k : Nat => first + k).length : Int)
      omega
    · change st.length ≤ st.length + (last - first + 1)
      omega

/-- **One append is right exactly if its item fits.** -/
theorem growsRight_iff_fits {item : Append} (hst : st.Counted) :
    GrowsRight grant st item ↔ item.Fits grant st := by
  cases item with
  | number n => exact growsRight_number_iff hst
  | range first last =>
      constructor
      · intro h
        obtain ⟨hle, hsize⟩ := (request_range_iff hst).mp ⟨h.request, h.unwrapped⟩
        exact ⟨hle, hsize, h.range_granted hst hle hsize⟩
      · rintro ⟨hle, hsize, hgranted⟩
        exact growsRight_range hst hle hsize hgranted

/-- An append that is right keeps the count. -/
theorem GrowsRight.counted {item : Append} {st' : ListState} (h : GrowsRight grant st item)
    (hstep : appendStep grant st item = .ok st') : st'.Counted := by
  obtain ⟨bytes, tmp, hrequest, hrealloc⟩ := appendStep_ok hstep
  rw [h.request] at hrequest
  cases hrequest
  obtain ⟨st₂, hstep₂, _, hlength, _, hmax⟩ := h.grown tmp hrealloc
  rw [hstep] at hstep₂
  cases hstep₂
  exact ⟨hlength, hmax⟩

end Step

section Throughout

variable (grant : Nat → Nat → Bool)

/-- Every append of a buffer grows the array right. -/
def GrowsRightThroughout (buffer : List Char) : Prop :=
  Transition.Meets (appendStep grant) (GrowsRight grant) noNumbers (scanBuffer buffer).1

/-- Every item of a buffer fits when its turn comes. -/
def FitsThroughout (buffer : List Char) : Prop :=
  Transition.Meets (appendStep grant) (fun st item => item.Fits grant st) noNumbers
    (scanBuffer buffer).1

/-- **The array grows right throughout a buffer exactly if every item fits.** -/
theorem growsRight_throughout_iff (buffer : List Char) :
    GrowsRightThroughout grant buffer ↔ FitsThroughout grant buffer :=
  Transition.Meets.congr_invariant (I := ListState.Counted)
    (fun _ _ _ _ h hstep => h.counted hstep) (fun _ _ hst => growsRight_iff_fits hst)
    noNumbers_counted

/-- **A descending range takes an element away**: after the six elements of `0-5`, the code asks
for 40 bytes to append `3-1`. -/
theorem not_growsRight_throughout_descending :
    ¬ GrowsRightThroughout (fun _ _ => true) ['0', '-', '5', ',', '3', '-', '1', '\n'] := by
  intro h
  have hsecond := (h.2 ⟨some [0, 1, 2, 3, 4, 5], 6, 1⟩ rfl).1.request
  exact absurd hsecond (by decide)

end Throughout

end ParseArchitecture
end X86Energy
