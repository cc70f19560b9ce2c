import Mathlib.Data.List.Basic

/-!
# Searches that a bad entry ends

A loop looks at the entries of a list one after the other: an entry is passed over,
ends the search without a result, or is the result.  An entry behind one that ends
the search is never seen.
-/

namespace Search

variable {α β ε : Type*}

/-- What the loop makes of an entry. -/
inductive Verdict (β : Type*)
  | next
  | stop
  | found (result : β)

/-- The entry with the result, and the result. -/
def search (judge : α → Except ε (Verdict β)) : List α → Except ε (Option (α × β))
  | [] => .ok none
  | a :: l =>
      match judge a with
      | .error e => .error e
      | .ok .next => search judge l
      | .ok .stop => .ok none
      | .ok (.found result) => .ok (some (a, result))

/-- A search through the names of entries. -/
theorem search_map {γ : Type*} (f : γ → α) (judge : α → Except ε (Verdict β)) (l : List γ) :
    search judge (l.map f) =
      (search (fun c => judge (f c)) l).map (Option.map fun found => (f found.1, found.2)) := by
  induction l with
  | nil => rfl
  | cons c l ih =>
      rw [List.map_cons, search, search]
      cases judge (f c) with
      | error e => rfl
      | ok verdict =>
          cases verdict with
          | next => exact ih
          | stop => rfl
          | found result => rfl

variable {judge : α → Except ε (Verdict β)}

/-- A search over entries with known verdicts ends. -/
theorem search_ok {verdict : α → Verdict β} {l : List α}
    (h : ∀ a ∈ l, judge a = .ok (verdict a)) :
    ∃ found, search judge l = .ok found := by
  induction l with
  | nil => exact ⟨none, rfl⟩
  | cons a l ih =>
      rw [search, h a (by simp)]
      cases verdict a with
      | next => exact ih fun x hx => h x (by simp [hx])
      | stop => exact ⟨none, rfl⟩
      | found result => exact ⟨some (a, result), rfl⟩

/-- A result is the verdict on an entry of the list. -/
theorem judge_of_search {l : List α} {a : α} {result : β}
    (h : search judge l = .ok (some (a, result))) :
    a ∈ l ∧ judge a = .ok (.found result) := by
  induction l with
  | nil => cases h
  | cons x l ih =>
      rw [search] at h
      cases hx : judge x with
      | error e =>
          rw [hx] at h
          cases h
      | ok verdict =>
          rw [hx] at h
          cases verdict with
          | next =>
              obtain ⟨hmem, hjudge⟩ := ih h
              exact ⟨List.mem_cons_of_mem _ hmem, hjudge⟩
          | stop => cases h
          | found r =>
              cases h
              exact ⟨List.mem_cons_self, hx⟩

/-- A search keeps its result if the verdicts stay, whatever comes behind. -/
theorem search_keep {judge' : α → Except ε (Verdict β)} {l : List α} {found : α × β}
    (h : search judge l = .ok (some found))
    (hkeep : ∀ x ∈ l, ∀ verdict, judge x = .ok verdict → judge' x = .ok verdict) (l' : List α) :
    search judge' (l ++ l') = .ok (some found) := by
  induction l with
  | nil => cases h
  | cons x l ih =>
      rw [search] at h
      rw [List.cons_append, search]
      cases hjudge : judge x with
      | error e =>
          rw [hjudge] at h
          cases h
      | ok verdict =>
          rw [hjudge] at h
          rw [hkeep x List.mem_cons_self verdict hjudge]
          cases verdict with
          | next => exact ih h fun y hy => hkeep y (List.mem_cons_of_mem _ hy)
          | stop => cases h
          | found r => exact h

/-- A search without a result in which nothing ends it has passed over every entry. -/
theorem judge_of_search_none {l : List α} (hstop : ∀ a ∈ l, judge a ≠ .ok .stop)
    (h : search judge l = .ok none) : ∀ a ∈ l, judge a = .ok .next := by
  induction l with
  | nil => exact fun a ha => absurd ha List.not_mem_nil
  | cons x l ih =>
      rw [search] at h
      cases hjudge : judge x with
      | error e =>
          rw [hjudge] at h
          cases h
      | ok verdict =>
          rw [hjudge] at h
          cases verdict with
          | next =>
              intro a ha
              rcases List.mem_cons.mp ha with rfl | ha
              · exact hjudge
              · exact ih (fun y hy => hstop y (by simp [hy])) h a ha
          | stop => exact absurd hjudge (hstop x (by simp))
          | found r => cases h

theorem search_append_next {l l' : List α} (h : ∀ a ∈ l, judge a = .ok .next) :
    search judge (l ++ l') = search judge l' := by
  induction l with
  | nil => rfl
  | cons x l ih =>
      rw [List.cons_append, search, h x (by simp)]
      exact ih fun a ha => h a (by simp [ha])

/-- A position in a longer list is the first one or one behind it. -/
theorem exists_split_cons {P : List α → α → Prop} {x : α} {l : List α} :
    (∃ before a after, x :: l = before ++ a :: after ∧ P before a) ↔
      P [] x ∨ ∃ before a after, l = before ++ a :: after ∧ P (x :: before) a := by
  constructor
  · rintro ⟨before, a, after, hsplit, hP⟩
    cases before with
    | nil =>
        cases hsplit
        exact .inl hP
    | cons b before =>
        cases hsplit
        exact .inr ⟨before, a, after, rfl, hP⟩
  · rintro (hP | ⟨before, a, after, rfl, hP⟩)
    · exact ⟨[], x, l, rfl, hP⟩
    · exact ⟨x :: before, a, after, rfl, hP⟩

/-- **There is a result exactly if a found entry has none before it that ends the
search.** -/
theorem search_finds_iff {verdict : α → Verdict β} {l : List α}
    (h : ∀ a ∈ l, judge a = .ok (verdict a)) :
    (∃ found, search judge l = .ok (some found)) ↔
      ∃ before a after, l = before ++ a :: after ∧ (∃ result, verdict a = .found result) ∧
        ∀ b ∈ before, verdict b ≠ .stop := by
  induction l with
  | nil =>
      constructor
      · rintro ⟨_, hfound⟩
        cases hfound
      · rintro ⟨before, a, after, hsplit, _⟩
        simp at hsplit
  | cons x l ih =>
      have ih := ih fun a ha => h a (by simp [ha])
      rw [search, h x (by simp), exists_split_cons]
      cases hx : verdict x with
      | next =>
          simp only
          rw [ih]
          simp [hx]
      | stop => simp [hx]
      | found result => simp [hx]

/-- A loop over the positions of a list that stops at the first element with a
property. -/
theorem search_range' {γ : Type*} {judge : Nat → Except ε (Verdict Unit)} {p : γ → Bool}
    {l : List γ} {k : Nat}
    (h : ∀ i (hi : i < l.length), judge (k + i) = .ok (if p l[i] then .found () else .next)) :
    search judge (List.range' k l.length) = .ok ((l.findIdx? p).map fun i => (k + i, ())) := by
  induction l generalizing k with
  | nil => rfl
  | cons x l ih =>
      have hhead := h 0 (by simp)
      rw [Nat.add_zero, List.getElem_cons_zero] at hhead
      rw [List.length_cons, List.range'_succ, search, hhead, List.findIdx?_cons]
      by_cases hx : p x = true
      · simp [hx]
      · simp only [hx, Bool.false_eq_true, if_false]
        rw [ih fun i hi => by
          have htail := h (i + 1) (by simpa using hi)
          rwa [List.getElem_cons_succ, ← Nat.add_assoc, Nat.add_right_comm] at htail]
        simp [Option.map_map, Function.comp_def, Nat.add_comm, Nat.add_left_comm]

theorem search_range {γ : Type*} {judge : Nat → Except ε (Verdict Unit)} {p : γ → Bool}
    {l : List γ}
    (h : ∀ i (hi : i < l.length), judge i = .ok (if p l[i] then .found () else .next)) :
    search judge (List.range l.length) = .ok ((l.findIdx? p).map fun i => (i, ())) := by
  rw [List.range_eq_range', search_range' fun i hi => by rw [Nat.zero_add]; exact h i hi]
  simp

end Search
