import Mathlib.Data.List.Nodup
import Mathlib.Data.List.Induction

/-!
# Covering a list group by group

The entries of a list belong to groups.  `cover` goes through the list once: an
entry that is not covered yet is added alone, or together with its whole group if
it is `whole`.  Everything in the list ends up covered; it is covered only once
exactly if in each group the first `whole` entry comes before all other members
(`cover_nodup_iff`).
-/

namespace GroupCover

universe u

variable {α : Type u}
variable (group : α → List α) (whole : α → Prop)

/-- What one entry of the list does to the covered entries. -/
def coverStep [DecidableEq α] [DecidablePred whole] (covered : List α) (x : α) : List α :=
  if x ∈ covered then covered
  else if whole x then covered ++ group x
  else covered ++ [x]

def cover [DecidableEq α] [DecidablePred whole] (l : List α) : List α := l.foldl (coverStep group whole) []

/-- The groups of the entries of `dom` are duplicate-free lists that partition it. -/
structure IsGrouping (dom : List α) : Prop where
  self : ∀ x ∈ dom, x ∈ group x
  same : ∀ x ∈ dom, ∀ y ∈ group x, group y = group x
  nodup : ∀ x ∈ dom, (group x).Nodup
  closed : ∀ x ∈ dom, ∀ y ∈ group x, y ∈ dom

/-- The first `whole` entry of a group comes before all other members. -/
def LeaderFirst (l : List α) : Prop :=
  ∀ pre c post, l = pre ++ c :: post → whole c → (∀ m ∈ pre, whole m → m ∉ group c) →
    ∀ x ∈ pre, x ∉ group c

variable {group whole}

theorem cover_append_singleton [DecidableEq α] [DecidablePred whole] (l : List α) (x : α) :
    cover group whole (l ++ [x]) = coverStep group whole (cover group whole l) x := by
  unfold cover
  rw [List.foldl_append]
  rfl

/-- Every entry adds a group or itself. -/
theorem length_cover_le [DecidableEq α] [DecidablePred whole] {l : List α} {k : Nat} (hk : 1 ≤ k)
    (h : ∀ x ∈ l, (group x).length ≤ k) : (cover group whole l).length ≤ l.length * k := by
  induction l using List.reverseRecOn with
  | nil => simp [cover]
  | append_singleton l x ih =>
      have ih := ih fun y hy => h y (by simp [hy])
      have hx := h x (by simp)
      rw [cover_append_singleton, List.length_append, List.length_singleton, Nat.add_mul,
        Nat.one_mul]
      unfold coverStep
      split
      · omega
      · split
        · rw [List.length_append]
          omega
        · rw [List.length_append, List.length_singleton]
          omega

theorem leaderFirst_append_singleton {l : List α} {c : α} :
    LeaderFirst group whole (l ++ [c]) ↔ LeaderFirst group whole l ∧
      (whole c → (∀ m ∈ l, whole m → m ∉ group c) → ∀ x ∈ l, x ∉ group c) := by
  constructor
  · intro h
    refine ⟨fun pre d post heq => h pre d (post ++ [c]) (by simp [heq]), h l c [] rfl⟩
  · rintro ⟨hl, hc⟩ pre d post heq
    rcases List.eq_nil_or_concat post with rfl | ⟨init, last, rfl⟩
    · obtain ⟨rfl, hd⟩ := List.append_inj' heq rfl
      cases hd
      exact hc
    · rw [List.concat_eq_append, ← List.cons_append, ← List.append_assoc] at heq
      obtain ⟨rfl, _⟩ := List.append_inj' heq rfl
      exact hl pre d init rfl

theorem covered_append_singleton {l : List α} {c x : α} :
    (x ∈ l ++ [c] ∨ ∃ m ∈ l ++ [c], whole m ∧ x ∈ group m) ↔
      (x ∈ l ∨ ∃ m ∈ l, whole m ∧ x ∈ group m) ∨ x = c ∨ (whole c ∧ x ∈ group c) := by
  simp only [List.mem_append, List.mem_singleton, or_and_right, exists_or, exists_eq_left]
  exact or_or_or_comm

section Grouping

variable {dom : List α} (h : IsGrouping group dom)
include h

/-- Two members of a group are members of each other's. -/
theorem IsGrouping.mem_comm {x y : α} (hx : x ∈ dom) (hy : y ∈ dom) :
    y ∈ group x ↔ x ∈ group y := by
  constructor
  · intro hyx
    rw [h.same x hx y hyx]
    exact h.self x hx
  · intro hxy
    rw [h.same y hy x hxy]
    exact h.self y hy

variable [DecidableEq α] [DecidablePred whole]

/-- What is covered: the entries so far and the groups of the `whole` ones. -/
theorem mem_cover {l : List α} (hl : ∀ x ∈ l, x ∈ dom) {x : α} :
    x ∈ cover group whole l ↔ x ∈ l ∨ ∃ m ∈ l, whole m ∧ x ∈ group m := by
  induction l using List.reverseRecOn generalizing x with
  | nil => simp [cover]
  | append_singleton l c ih =>
      have hl' : ∀ y ∈ l, y ∈ dom := fun y hy => hl y (by simp [hy])
      have hc : c ∈ dom := hl c (by simp)
      have ih : ∀ {x}, x ∈ cover group whole l ↔ x ∈ l ∨ ∃ m ∈ l, whole m ∧ x ∈ group m :=
        fun {_} => ih hl'
      rw [covered_append_singleton, ← ih, cover_append_singleton]
      unfold coverStep
      by_cases hcov : c ∈ cover group whole l
      · rw [if_pos hcov]
        refine ⟨.inl, ?_⟩
        rintro (hx | rfl | ⟨hwhole, hx⟩)
        · exact hx
        · exact hcov
        · -- the group of `c` is there already, as that of `c` or that of another entry
          rcases ih.mp hcov with hcl | ⟨m, hm, hwhole', hcm⟩
          · exact ih.mpr (.inr ⟨c, hcl, hwhole, hx⟩)
          · rw [h.same m (hl' m hm) c hcm] at hx
            exact ih.mpr (.inr ⟨m, hm, hwhole', hx⟩)
      · rw [if_neg hcov]
        by_cases hwhole : whole c
        · rw [if_pos hwhole, List.mem_append]
          constructor
          · rintro (hx | hx)
            · exact .inl hx
            · exact .inr (.inr ⟨hwhole, hx⟩)
          · rintro (hx | rfl | ⟨_, hx⟩)
            · exact .inl hx
            · exact .inr (h.self _ hc)
            · exact .inr hx
        · rw [if_neg hwhole, List.mem_append, List.mem_singleton]
          simp [hwhole]

/-- **Everything is covered once exactly if the leaders come first.** -/
theorem cover_nodup_iff {l : List α} (hl : ∀ x ∈ l, x ∈ dom) (hnodup : l.Nodup) :
    (cover group whole l).Nodup ↔ LeaderFirst group whole l := by
  induction l using List.reverseRecOn with
  | nil => simp [cover, LeaderFirst]
  | append_singleton l c ih =>
      have hl' : ∀ y ∈ l, y ∈ dom := fun y hy => hl y (by simp [hy])
      have hc : c ∈ dom := hl c (by simp)
      have hnot : c ∉ l := by
        rw [List.nodup_append] at hnodup
        exact fun hcl => hnodup.2.2 c hcl c (by simp) rfl
      have ih := ih hl' (List.nodup_append.mp hnodup).1
      rw [cover_append_singleton, leaderFirst_append_singleton, ← ih]
      unfold coverStep
      by_cases hcov : c ∈ cover group whole l
      · rw [if_pos hcov]
        refine ⟨fun hn => ⟨hn, fun _ hfirst => ?_⟩, fun hn => hn.1⟩
        rcases (mem_cover h hl').mp hcov with hcl | ⟨m, hm, hwhole, hcm⟩
        · exact absurd hcl hnot
        · exact absurd ((h.mem_comm (hl' m hm) hc).mp hcm) (hfirst m hm hwhole)
      · rw [if_neg hcov]
        by_cases hwhole : whole c
        · have hfirst : ∀ m ∈ l, whole m → m ∉ group c := by
            intro m hm hwholem hmc
            exact hcov ((mem_cover h hl').mpr
              (.inr ⟨m, hm, hwholem, (h.mem_comm (hl' m hm) hc).mpr hmc⟩))
          have hdisjoint : (∀ x ∈ cover group whole l, x ∉ group c) ↔ ∀ x ∈ l, x ∉ group c := by
            constructor
            · exact fun hd x hx => hd x ((mem_cover h hl').mpr (.inl hx))
            · intro hd x hx hxc
              rcases (mem_cover h hl').mp hx with hxl | ⟨m, hm, hwholem, hxm⟩
              · exact hd x hxl hxc
              · have heq : group m = group c := by
                  rw [← h.same m (hl' m hm) x hxm, h.same c hc x hxc]
                exact hfirst m hm hwholem (heq ▸ h.self m (hl' m hm))
          rw [if_pos hwhole, List.nodup_append, ← List.disjoint_iff_ne]
          simp only [List.Disjoint, imp_false]
          constructor
          · rintro ⟨hn, _, hd⟩
            exact ⟨hn, fun _ _ => hdisjoint.mp fun x hx => hd hx⟩
          · rintro ⟨hn, hd⟩
            exact ⟨hn, h.nodup c hc, fun {x} hx => hdisjoint.mpr (hd hwhole hfirst) x hx⟩
        · rw [if_neg hwhole]
          constructor
          · intro hn
            exact ⟨(List.nodup_append.mp hn).1, fun hw => absurd hw hwhole⟩
          · rintro ⟨hn, _⟩
            rw [List.nodup_append]
            refine ⟨hn, List.nodup_singleton c, fun x hx y hy hxy => ?_⟩
            rw [hxy, List.mem_singleton.mp hy] at hx
            exact hcov hx

/-- The whole list is covered, and nothing else. -/
theorem mem_cover_self {x : α} :
    x ∈ cover group whole dom ↔ x ∈ dom := by
  rw [mem_cover h (fun _ hx => hx)]
  constructor
  · rintro (hx | ⟨m, hm, _, hx⟩)
    · exact hx
    · exact h.closed m hm x hx
  · exact .inl

/-- If the leaders come first, covering a list only reorders it. -/
theorem cover_perm (hnodup : dom.Nodup) :
    (cover group whole dom).Perm dom ↔ LeaderFirst group whole dom := by
  rw [← cover_nodup_iff h (fun _ hx => hx) hnodup]
  constructor
  · exact fun hperm => hperm.nodup_iff.mpr hnodup
  · intro hn
    exact (List.perm_ext_iff_of_nodup hn hnodup).mpr fun _ => mem_cover_self h

end Grouping

end GroupCover
