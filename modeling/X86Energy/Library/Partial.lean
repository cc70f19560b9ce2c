import Mathlib.Data.List.Forall2

/-!
# Partial maps over lists

`List.mapM` and `List.foldlM` in `Option`, and a loop over positions in `Except`: when
they succeed, and with what.  `updateAt` replaces an entry in place, and `Ends` says of any
computation in `Except` what it ends with.  Two lemmas are about lists that are related entry
by entry.
-/

namespace Partial

universe u v

variable {α : Type u} {β : Type v}

theorem mapM_cons_eq_some {f : α → Option β} {a : α} {l : List α} {l' : List β} :
    (a :: l).mapM f = some l' ↔ ∃ b bs, f a = some b ∧ l.mapM f = some bs ∧ l' = b :: bs := by
  rw [List.mapM_cons]
  constructor
  · intro h
    obtain ⟨b, hb, h⟩ := Option.bind_eq_some_iff.mp h
    obtain ⟨bs, hbs, h⟩ := Option.bind_eq_some_iff.mp h
    cases h
    exact ⟨b, bs, hb, hbs, rfl⟩
  · rintro ⟨b, bs, hb, hbs, rfl⟩
    rw [hb]
    simp [hbs]

/-- A partial map succeeds if it does so on every entry. -/
theorem exists_mapM {f : α → Option β} {l : List α} (h : ∀ a ∈ l, ∃ b, f a = some b) :
    ∃ l', l.mapM f = some l' := by
  induction l with
  | nil => exact ⟨[], rfl⟩
  | cons a l ih =>
      obtain ⟨b, hb⟩ := h a (by simp)
      obtain ⟨bs, hbs⟩ := ih (fun x hx => h x (by simp [hx]))
      exact ⟨b :: bs, mapM_cons_eq_some.mpr ⟨b, bs, hb, hbs, rfl⟩⟩

/-- A partial map that agrees with a total one. -/
theorem mapM_of_forall {f : α → Option β} {g : α → β} {l : List α}
    (h : ∀ a ∈ l, f a = some (g a)) : l.mapM f = some (l.map g) := by
  induction l with
  | nil => rfl
  | cons a l ih =>
      exact mapM_cons_eq_some.mpr
        ⟨g a, l.map g, h a (by simp), ih (fun x hx => h x (by simp [hx])), rfl⟩

/-- Every result comes from an entry. -/
theorem exists_of_mem_mapM {f : α → Option β} {l : List α} {l' : List β}
    (h : l.mapM f = some l') {b : β} (hb : b ∈ l') : ∃ a ∈ l, f a = some b := by
  induction l generalizing l' with
  | nil =>
      cases h
      cases hb
  | cons a l ih =>
      obtain ⟨b', bs, hb', hbs, rfl⟩ := mapM_cons_eq_some.mp h
      rcases List.mem_cons.mp hb with rfl | hb
      · exact ⟨a, by simp, hb'⟩
      · obtain ⟨x, hx, hfx⟩ := ih hbs hb
        exact ⟨x, by simp [hx], hfx⟩

/-- Every entry has its result. -/
theorem mem_mapM_of_mem {f : α → Option β} {l : List α} {l' : List β}
    (h : l.mapM f = some l') {a : α} (ha : a ∈ l) : ∃ b ∈ l', f a = some b := by
  induction l generalizing l' with
  | nil => cases ha
  | cons x l ih =>
      obtain ⟨b, bs, hb, hbs, rfl⟩ := mapM_cons_eq_some.mp h
      rcases List.mem_cons.mp ha with rfl | ha
      · exact ⟨b, by simp, hb⟩
      · obtain ⟨y, hy, hfy⟩ := ih hbs ha
        exact ⟨y, by simp [hy], hfy⟩

theorem map_eq_ok {ε : Type*} {γ : Type*} {f : α → γ} {x : Except ε α} {c : γ} :
    x.map f = .ok c ↔ ∃ a, x = .ok a ∧ f a = c := by
  cases x with
  | error e => exact ⟨nofun, fun ⟨_, h, _⟩ => nomatch h⟩
  | ok a => exact ⟨fun h => ⟨a, rfl, Except.ok.inj h⟩, fun ⟨_, rfl, h⟩ => congrArg Except.ok h⟩

/-- A loop that fails nowhere. -/
theorem exists_mapM_ok {ε : Type*} {f : α → Except ε β} {l : List α}
    (h : ∀ a ∈ l, ∃ b, f a = .ok b) : ∃ l', l.mapM f = .ok l' := by
  induction l with
  | nil => exact ⟨[], rfl⟩
  | cons a l ih =>
      obtain ⟨b, hb⟩ := h a (by simp)
      obtain ⟨bs, hbs⟩ := ih fun x hx => h x (by simp [hx])
      refine ⟨b :: bs, ?_⟩
      rw [List.mapM_cons, hb, hbs]
      rfl

/-- A loop over the positions of a list that delivers its elements. -/
theorem mapM_range' {ε : Type*} {f : Nat → Except ε β} {l : List β} {k : Nat}
    (h : ∀ i (hi : i < l.length), f (k + i) = .ok l[i]) :
    (List.range' k l.length).mapM f = .ok l := by
  induction l generalizing k with
  | nil => rfl
  | cons b l ih =>
      have hhead := h 0 (by simp)
      rw [Nat.add_zero, List.getElem_cons_zero] at hhead
      rw [List.length_cons, List.range'_succ, List.mapM_cons, hhead, ih fun i hi => by
        have htail := h (i + 1) (by simpa using hi)
        rwa [List.getElem_cons_succ, ← Nat.add_assoc, Nat.add_right_comm] at htail]
      rfl

section Pairs

variable {R : α → β → Prop} {l : List α}

/-- Every entry has its partner. -/
theorem exists_of_mem_forall₂ {l' : List β} (h : List.Forall₂ R l l') {a : α} (ha : a ∈ l) :
    ∃ b ∈ l', R a b := by
  induction h with
  | nil => cases ha
  | cons hab _ ih =>
      rcases List.mem_cons.mp ha with rfl | ha
      · exact ⟨_, List.mem_cons_self, hab⟩
      · obtain ⟨b, hb, hR⟩ := ih ha
        exact ⟨b, List.mem_cons_of_mem _ hb, hR⟩

/-- Lists with one image are related entry by entry, if entries with one image are. -/
theorem forall₂_of_map_eq {γ : Type*} {f : α → γ} {R : α → α → Prop} {l' : List α}
    (h : l'.map f = l.map f) (hR : ∀ a ∈ l, ∀ b, f b = f a → R a b) : List.Forall₂ R l l' := by
  induction l generalizing l' with
  | nil =>
      rw [List.map_nil, List.map_eq_nil_iff] at h
      rw [h]
      exact .nil
  | cons a l ih =>
      obtain ⟨b, bs, rfl, hb, hbs⟩ := List.map_eq_cons_iff.mp h
      exact .cons (hR a (by simp) b hb) (ih hbs fun x hx => hR x (by simp [hx]))

end Pairs

theorem ok_bind {ε : Type v} {γ δ : Type u} (a : γ) (f : γ → Except ε δ) :
    ((Except.ok a : Except ε γ) >>= f) = f a := rfl

section Update

variable {ε : Type v} {γ : Type u} {e : ε} {f : γ → Except ε γ} {g : γ → γ}

/-- Replace the entry at a position in place; `e` is a position outside. -/
def updateAt (e : ε) (f : γ → Except ε γ) (l : List γ) (i : Nat) : Except ε (List γ) :=
  match l[i]? with
  | some a => do
      let b ← f a
      return l.set i b
  | none => .error e

/-- A loop that replaces every entry, from a position on. -/
theorem foldlM_updateAt_range' (front : List γ) {l : List γ} (h : ∀ a ∈ l, f a = .ok (g a)) :
    (List.range' front.length l.length).foldlM (updateAt e f) (front ++ l) =
      .ok (front ++ l.map g) := by
  induction l generalizing front with
  | nil => rfl
  | cons a l ih =>
      have hstep : updateAt e f (front ++ a :: l) front.length = .ok (front ++ [g a] ++ l) := by
        have hget : (front ++ a :: l)[front.length]? = some a := by
          rw [List.getElem?_append_right (Nat.le_refl _), Nat.sub_self]
          rfl
        rw [updateAt, hget]
        simp only [h a List.mem_cons_self, ok_bind]
        rw [List.set_append_right _ _ (Nat.le_refl _), Nat.sub_self, List.append_assoc]
        rfl
      have hrest := ih (front ++ [g a]) fun x hx => h x (by simp [hx])
      rw [List.length_append, List.length_singleton] at hrest
      rw [List.length_cons, List.range'_succ, List.foldlM_cons, hstep, ok_bind, hrest,
        List.append_assoc]
      rfl

/-- **A loop over all positions** that replaces each entry. -/
theorem foldlM_updateAt {l : List γ} (h : ∀ a ∈ l, f a = .ok (g a)) :
    (List.range l.length).foldlM (updateAt e f) l = .ok (l.map g) := by
  rw [List.range_eq_range']
  exact foldlM_updateAt_range' [] h

end Update

section Ends

variable {ε : Type v} {α β : Type u} {P : α → Prop} {Q : β → Prop}

/-- The computation does not fail, and its result meets `P`. -/
def Ends (P : α → Prop) (x : Except ε α) : Prop := ∃ a, x = .ok a ∧ P a

theorem Ends.pure {a : α} (h : P a) : Ends P (.ok a : Except ε α) := ⟨a, rfl, h⟩

/-- The rule for one computation after another. -/
theorem Ends.bind {x : Except ε α} {f : α → Except ε β} (hx : Ends P x)
    (hf : ∀ a, P a → Ends Q (f a)) : Ends Q (x >>= f) := by
  obtain ⟨a, rfl, ha⟩ := hx
  exact hf a ha

theorem Ends.mono {P' : α → Prop} {x : Except ε α} (hx : Ends P x) (h : ∀ a, P a → P' a) :
    Ends P' x := by
  obtain ⟨a, rfl, ha⟩ := hx
  exact ⟨a, rfl, h a ha⟩

end Ends

end Partial
