import Mathlib.Data.List.Basic
import Mathlib.Data.List.Nodup
import Mathlib.Data.List.Perm.Basic

/-!
# Bubble sort by an integer key

The exchange sort of the textbooks: for `n` from the length down to 2, one pass
over the first `n` entries exchanges neighbours that are out of order.

A pass puts an entry with the greatest key last (`pass_last`), so the result is sorted
(`bubbleSort_sorted`), and with distinct keys it does not depend on the order in which
the entries came (`bubbleSort_eq_of_perm`).  Entries with equal keys keep their order
(`bubbleSort_filter`).

`pass` and `passes` run along a list.  `innerLoop` and `outerLoop` are the loops of the textbooks,
with indices into an array; they stay in it and do the same (`outerLoop_length`).
-/

namespace BubbleSort

universe u v

variable {α : Type u} {β : Type v}

/-- One pass over the first `n + 1` entries. -/
def pass (key : α → Int) : Nat → List α → List α
  | n + 1, a :: b :: l =>
      if key b < key a then b :: pass key n (a :: l) else a :: pass key n (b :: l)
  | _, l => l

/-- The passes over the first `n`, `n - 1`, …, 2 entries. -/
def passes (key : α → Int) : Nat → List α → List α
  | 0, l => l
  | n + 1, l => passes key n (pass key n l)

def bubbleSort (key : α → Int) (l : List α) : List α := passes key l.length l

theorem pass_perm (key : α → Int) (n : Nat) (l : List α) : (pass key n l).Perm l := by
  fun_induction pass key n l with
  | case1 n a b l _ ih => exact (ih.cons b).trans (List.Perm.swap a b l)
  | case2 n a b l _ ih => exact ih.cons a
  | case3 => exact List.Perm.refl _

theorem passes_perm (key : α → Int) (n : Nat) (l : List α) : (passes key n l).Perm l := by
  induction n generalizing l with
  | zero => exact List.Perm.refl _
  | succ n ih => exact (ih _).trans (pass_perm key n l)

/-- Sorting only moves entries. -/
theorem bubbleSort_perm (key : α → Int) (l : List α) : (bubbleSort key l).Perm l :=
  passes_perm key _ l

theorem pass_map {f : α → β} {key : α → Int} {key' : β → Int} (hf : ∀ x, key' (f x) = key x)
    (n : Nat) (l : List α) : pass key' n (l.map f) = (pass key n l).map f := by
  fun_induction pass key n l with
  | case1 n a b l h ih =>
      simp only [List.map_cons, pass, hf, h, if_true] at ih ⊢
      rw [ih]
  | case2 n a b l h ih =>
      simp only [List.map_cons, pass, hf, h, if_false] at ih ⊢
      rw [ih]
  | case3 n l h =>
      match n, l with
      | 0, _ => rfl
      | _ + 1, [] => rfl
      | _ + 1, [_] => rfl
      | n + 1, a :: b :: l => exact absurd rfl (h n a b l rfl)

/-- A map that keeps the keys commutes with sorting. -/
theorem bubbleSort_map {f : α → β} {key : α → Int} {key' : β → Int}
    (hf : ∀ x, key' (f x) = key x) (l : List α) :
    bubbleSort key' (l.map f) = (bubbleSort key l).map f := by
  have hpasses : ∀ (n : Nat) (l : List α),
      passes key' n (l.map f) = (passes key n l).map f := by
    intro n
    induction n with
    | zero => intro l; rfl
    | succ n ih =>
        intro l
        rw [passes, passes, pass_map hf, ih]
  rw [bubbleSort, bubbleSort, List.length_map, hpasses]

section Sorted

/-- The keys do not decrease. -/
def Sorted (key : α → Int) (l : List α) : Prop := l.Pairwise fun x y => key x ≤ key y

/-- A pass moves an entry with the greatest key to the end of the entries it runs over,
and leaves those behind them alone. -/
theorem pass_last (key : α → Int) {n : Nat} {l : List α} (hlen : l.length = n + 1) :
    ∃ init m, (∀ more, pass key n (l ++ more) = init ++ m :: more) ∧ ∀ x ∈ l, key x ≤ key m := by
  induction n generalizing l with
  | zero =>
      obtain ⟨a, rfl⟩ := List.length_eq_one_iff.mp hlen
      exact ⟨[], a, fun more => by simp [pass], by simp⟩
  | succ n ih =>
      match l, hlen with
      | a :: b :: l, hlen =>
          have hlen : l.length = n := by simpa using hlen
          by_cases hba : key b < key a
          · obtain ⟨init, m, hpass, hmax⟩ := @ih (a :: l) (by simp [hlen])
            refine ⟨b :: init, m, fun more => ?_, fun x hx => ?_⟩
            · simp only [List.cons_append, pass, if_pos hba]
              exact congrArg _ (hpass more)
            · have ham := hmax a (by simp)
              rcases List.mem_cons.mp hx with rfl | hx
              · exact ham
              · rcases List.mem_cons.mp hx with rfl | hx
                · omega
                · exact hmax x (by simp [hx])
          · obtain ⟨init, m, hpass, hmax⟩ := @ih (b :: l) (by simp [hlen])
            refine ⟨a :: init, m, fun more => ?_, fun x hx => ?_⟩
            · simp only [List.cons_append, pass, if_neg hba]
              exact congrArg _ (hpass more)
            · have hbm := hmax b (by simp)
              rcases List.mem_cons.mp hx with rfl | hx
              · omega
              · exact hmax x hx

/-- What the passes over the first `n` entries leave is sorted if the entries behind are
sorted and not below any of them. -/
theorem passes_sorted (key : α → Int) {n : Nat} {front back : List α} (hlen : front.length = n)
    (hback : Sorted key back) (hbelow : ∀ x ∈ front, ∀ y ∈ back, key x ≤ key y) :
    Sorted key (passes key n (front ++ back)) := by
  induction n generalizing front back with
  | zero =>
      rw [List.length_eq_zero_iff.mp hlen]
      exact hback
  | succ n ih =>
      obtain ⟨init, m, hpass, hmax⟩ := pass_last key hlen
      have hperm : (init ++ [m]).Perm front := by
        have hfront := pass_perm key n (front ++ [])
        rwa [hpass [], List.append_nil] at hfront
      have hinit : ∀ x ∈ init, x ∈ front := fun x hx =>
        hperm.mem_iff.mp (List.mem_append_left _ hx)
      have hm : m ∈ front := hperm.mem_iff.mp (by simp)
      rw [passes, hpass]
      apply ih
      · have hcount := hperm.length_eq
        simp only [List.length_append, List.length_singleton] at hcount
        omega
      · exact List.pairwise_cons.mpr ⟨fun y hy => hbelow m hm y hy, hback⟩
      · intro x hx y hy
        rcases List.mem_cons.mp hy with rfl | hy
        · exact hmax x (hinit x hx)
        · exact hbelow x (hinit x hx) y hy

/-- **The result is sorted.** -/
theorem bubbleSort_sorted (key : α → Int) (l : List α) : Sorted key (bubbleSort key l) := by
  have hsorted := @passes_sorted _ key l.length l [] rfl List.Pairwise.nil
    (fun _ _ _ hy => absurd hy List.not_mem_nil)
  rwa [List.append_nil] at hsorted

/-- **With distinct keys the order of the entries does not matter.** -/
theorem bubbleSort_eq_of_perm {key : α → Int} {l l' : List α} (hperm : l.Perm l')
    (hkeys : (l.map key).Nodup) : bubbleSort key l = bubbleSort key l' := by
  have hsorted : (bubbleSort key l).Pairwise fun x y => key x ≤ key y := bubbleSort_sorted key l
  have hsorted' : (bubbleSort key l').Pairwise fun x y => key x ≤ key y := bubbleSort_sorted key l'
  refine List.Perm.eq_of_pairwise ?_ hsorted hsorted'
    ((bubbleSort_perm key l).trans (hperm.trans (bubbleSort_perm key l').symm))
  intro x y hx hy hxy hyx
  have hx := (bubbleSort_perm key l).mem_iff.mp hx
  have hy := hperm.mem_iff.mpr ((bubbleSort_perm key l').mem_iff.mp hy)
  exact List.inj_on_of_nodup_map hkeys hx hy (Int.le_antisymm hxy hyx)

end Sorted

section Stable

/-- A pass does not exchange entries with equal keys. -/
theorem pass_filter (key : α → Int) (k : Int) (n : Nat) (l : List α) :
    (pass key n l).filter (fun x => key x = k) = l.filter fun x => key x = k := by
  fun_induction pass key n l with
  | case1 n a b l hlt ih =>
      rw [List.filter_cons, ih]
      by_cases hb : key b = k
      · have ha : key a ≠ k := by omega
        simp [ha, hb]
      · simp [List.filter_cons, hb]
  | case2 n a b l _ ih => simp only [List.filter_cons, ih]
  | case3 => rfl

theorem passes_filter (key : α → Int) (k : Int) (n : Nat) (l : List α) :
    (passes key n l).filter (fun x => key x = k) = l.filter fun x => key x = k := by
  induction n generalizing l with
  | zero => rfl
  | succ n ih => rw [passes, ih, pass_filter]

/-- **Sorting is stable**: the entries with one key keep their order. -/
theorem bubbleSort_filter (key : α → Int) (k : Int) (l : List α) :
    (bubbleSort key l).filter (fun x => key x = k) = l.filter fun x => key x = k :=
  passes_filter key k _ l

theorem pass_of_sorted {key : α → Int} {l : List α} (n : Nat) (h : Sorted key l) :
    pass key n l = l := by
  fun_induction pass key n l with
  | case1 n a b l hlt _ =>
      have hab : key a ≤ key b := (List.pairwise_cons.mp h).1 b (by simp)
      omega
  | case2 n a b l _ ih => rw [ih (List.pairwise_cons.mp h).2]
  | case3 => rfl

/-- **Sorting what is sorted** changes nothing. -/
theorem bubbleSort_of_sorted {key : α → Int} {l : List α} (h : Sorted key l) :
    bubbleSort key l = l := by
  have hpasses : ∀ n, passes key n l = l := by
    intro n
    induction n with
    | zero => rfl
    | succ n ih => rw [passes, pass_of_sorted n h, ih]
  exact hpasses _

end Stable

section Loops

/-- The body of the loops: compare two neighbours of the array and exchange them if they are out
of order.  `none` is an index outside of the array. -/
def exchange (key : α → Int) (l : List α) (i : Nat) : Option (List α) :=
  match l[i]?, l[i + 1]? with
  | some a, some b => some (if key b < key a then (l.set i b).set (i + 1) a else l)
  | _, _ => none

/-- `for (i = 0; i < n - 1; ++i)`. -/
def innerLoop (key : α → Int) (n : Nat) (l : List α) : Option (List α) :=
  (List.range (n - 1)).foldlM (exchange key) l

/-- `for (; n > 1; --n)`.  The bound `n - 1` would wrap around with an `n` of 0, which is not
reached. -/
def outerLoop (key : α → Int) : Nat → List α → Option (List α)
  | 0, l => some l
  | n + 1, l =>
      if n + 1 > 1 then (innerLoop key (n + 1) l).bind (outerLoop key n) else some l

theorem exchange_append (key : α → Int) (front : List α) (a b : α) (l : List α) :
    exchange key (front ++ a :: b :: l) front.length =
      some (front ++ if key b < key a then b :: a :: l else a :: b :: l) := by
  have hfirst : (front ++ a :: b :: l)[front.length]? = some a := by
    rw [List.getElem?_append_right (Nat.le_refl _), Nat.sub_self]
    rfl
  have hsecond : (front ++ a :: b :: l)[front.length + 1]? = some b := by
    rw [List.getElem?_append_right (Nat.le_add_right _ 1), Nat.add_sub_cancel_left]
    rfl
  rw [exchange, hfirst, hsecond]
  change some (if key b < key a then _ else _) = _
  split
  · rw [List.set_append_right _ _ (Nat.le_refl _), List.set_append_right _ _ (Nat.le_add_right _ 1),
      Nat.sub_self, Nat.add_sub_cancel_left]
    rfl
  · rfl

/-- The inner loop from a position on is a pass over what stands there. -/
theorem foldlM_exchange (key : α → Int) {n : Nat} (front : List α) {l : List α}
    (hlen : n < l.length) :
    (List.range' front.length n).foldlM (exchange key) (front ++ l) =
      some (front ++ pass key n l) := by
  induction n generalizing front l with
  | zero => rfl
  | succ n ih =>
      match l, hlen with
      | a :: b :: l, hlen =>
          rw [List.range'_succ, List.foldlM_cons, exchange_append, pass]
          change List.foldlM _ _ _ = _
          split
          · have hrest := ih (front ++ [b]) (l := a :: l) (by simpa using hlen)
            rw [List.length_append, List.append_assoc, List.append_assoc] at hrest
            exact hrest
          · have hrest := ih (front ++ [a]) (l := b :: l) (by simpa using hlen)
            rw [List.length_append, List.append_assoc, List.append_assoc] at hrest
            exact hrest

theorem innerLoop_eq (key : α → Int) {n : Nat} {l : List α} (hlen : n < l.length) :
    innerLoop key (n + 1) l = some (pass key n l) := by
  rw [innerLoop, Nat.add_sub_cancel, List.range_eq_range']
  exact foldlM_exchange key [] hlen

/-- The loops stay in the array and do what the passes do. -/
theorem outerLoop_eq (key : α → Int) {n : Nat} {l : List α} (hlen : n ≤ l.length) :
    outerLoop key n l = some (passes key n l) := by
  induction n generalizing l with
  | zero => rfl
  | succ n ih =>
      rw [outerLoop, passes]
      split
      · rw [innerLoop_eq key hlen]
        exact ih (by rw [(pass_perm key n l).length_eq]; omega)
      · obtain rfl : n = 0 := by omega
        rfl

/-- **The loops sort.** -/
theorem outerLoop_length (key : α → Int) (l : List α) :
    outerLoop key l.length l = some (bubbleSort key l) :=
  outerLoop_eq key (Nat.le_refl _)

end Loops

end BubbleSort
