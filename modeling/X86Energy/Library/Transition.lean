import Mathlib.Data.List.Basic

/-!
# Guarded runs of a partial transition system

A system is a step function `step : σ → α → Except ε σ`: a label is an action
together with everything the environment decides about it, an error is an
undefined or refused step.

`run` takes a list of labels, `Meets` says that every label of a run meets a
guard in the state in which it is taken.  The rules of this file are

* `run_ok_of_meets`: an invariant that every guarded step establishes holds at
  the end of every guarded run, which is moreover never refused;
* `run_ne_error`: an error that no step from the invariant meets is met by no run;
* `Meets.run_collects`: what each guarded step achieves and no later step takes away is
  there at the end;
* `Meets.iff_forall_before`: if a step off the guard is seen at once, only guarded runs look
  right all the way;
* `run_iff_meets`: what only a step off the guard takes away is there at the end exactly of
  the guarded runs;
* `bad_of_not_meets`: if one step off the guard makes the state bad for good,
  only guarded runs end well;
* `run_refines`: a relation to an abstract system that every guarded step
  preserves relates the ends of the two runs;
* `run_simulates`: the same where both systems can be refused.
-/

namespace Transition

universe u v w

section Run

variable {σ : Type u} {α : Type v} {ε : Type w}

/-- The run of `step` from a state along a list of labels. -/
def run (step : σ → α → Except ε σ) : σ → List α → Except ε σ
  | s, [] => .ok s
  | s, a :: as =>
      match step s a with
      | .ok t => run step t as
      | .error e => .error e

/-- Every label of the run meets `G` in the state in which it is taken. -/
def Meets (step : σ → α → Except ε σ) (G : σ → α → Prop) : σ → List α → Prop
  | _, [] => True
  | s, a :: as => G s a ∧ ∀ t, step s a = .ok t → Meets step G t as

variable {step : σ → α → Except ε σ} {G : σ → α → Prop}

@[simp] theorem run_nil (s : σ) : run step s [] = .ok s := rfl

theorem run_cons_ok {s t : σ} {a : α} (h : step s a = .ok t) (as : List α) :
    run step s (a :: as) = run step t as := by
  simp [run, h]

theorem run_cons_error {s : σ} {a : α} {e : ε} (h : step s a = .error e)
    (as : List α) : run step s (a :: as) = .error e := by
  simp [run, h]

/-- Peel the first step from a run that ends. -/
theorem run_cons_success {s u : σ} {a : α} {as : List α}
    (h : run step s (a :: as) = .ok u) :
    ∃ t, step s a = .ok t ∧ run step t as = .ok u := by
  cases hs : step s a with
  | error e =>
      rw [run_cons_error hs] at h
      cases h
  | ok t =>
      rw [run_cons_ok hs] at h
      exact ⟨t, rfl, h⟩

/-- A run along `as ++ bs` is a run along `as` followed by one along `bs`. -/
theorem run_append {s t : σ} {as : List α} (h : run step s as = .ok t)
    (bs : List α) : run step s (as ++ bs) = run step t bs := by
  induction as generalizing s with
  | nil =>
      cases h
      rfl
  | cons a as ih =>
      obtain ⟨m, hstep, hrest⟩ := run_cons_success h
      rw [List.cons_append, run_cons_ok hstep]
      exact ih hrest

/-- A run that is refused stays refused whatever would follow. -/
theorem run_append_error {s : σ} {as : List α} {e : ε} (h : run step s as = .error e)
    (bs : List α) : run step s (as ++ bs) = .error e := by
  induction as generalizing s with
  | nil => cases h
  | cons a as ih =>
      cases hstep : step s a with
      | error e' =>
          rw [run_cons_error hstep] at h
          cases h
          rw [List.cons_append, run_cons_error hstep]
      | ok t =>
          rw [run_cons_ok hstep] at h
          rw [List.cons_append, run_cons_ok hstep]
          exact ih h

/-- A run with a known first step. -/
theorem Meets.cons {s t : σ} {a : α} {as : List α} (hG : G s a) (ht : step s a = .ok t)
    (h : Meets step G t as) : Meets step G s (a :: as) := by
  refine ⟨hG, fun t' ht' => ?_⟩
  rw [ht] at ht'
  cases ht'
  exact h

theorem Meets.mono {G' : σ → α → Prop} {as : List α} :
    ∀ {s : σ}, (∀ s, ∀ a ∈ as, G s a → G' s a) → Meets step G s as → Meets step G' s as := by
  induction as with
  | nil => exact fun _ _ => trivial
  | cons a as ih =>
      exact fun hG h => ⟨hG _ a (by simp) h.1, fun t ht =>
        ih (fun s b hb => hG s b (List.mem_cons_of_mem _ hb)) (h.2 t ht)⟩

/-- A guard that holds of every label in every state is met by every run. -/
theorem Meets.of_forall (hG : ∀ s a, G s a) :
    ∀ (s : σ) (as : List α), Meets step G s as
  | _, [] => trivial
  | s, a :: as => ⟨hG s a, fun t _ => Meets.of_forall hG t as⟩

/-- A guard that follows from an invariant of all successful steps is met by every run. -/
theorem Meets.of_invariant {I : σ → Prop} (hstep : ∀ s a t, I s → step s a = .ok t → I t)
    (hG : ∀ s a, I s → G s a) : ∀ {s : σ} (as : List α), I s → Meets step G s as
  | _, [], _ => trivial
  | s, a :: as, hs => ⟨hG s a hs, fun _ ht => Meets.of_invariant hstep hG as (hstep s a _ hs ht)⟩

/-- **Two guards that agree under an invariant** are met by the same runs. -/
theorem Meets.congr_invariant {I : σ → Prop} {G' : σ → α → Prop}
    (hstep : ∀ s a t, I s → G s a → step s a = .ok t → I t) (hG : ∀ s a, I s → (G s a ↔ G' s a)) :
    ∀ {s : σ} {as : List α}, I s → (Meets step G s as ↔ Meets step G' s as)
  | _, [], _ => Iff.rfl
  | s, a :: as, hs => by
      have hrest : G s a → ∀ t, step s a = .ok t →
          (Meets step G t as ↔ Meets step G' t as) :=
        fun ha t ht => Meets.congr_invariant hstep hG (hstep s a t hs ha ht)
      constructor
      · exact fun h => ⟨(hG s a hs).mp h.1, fun t ht => (hrest h.1 t ht).mp (h.2 t ht)⟩
      · intro h
        have ha := (hG s a hs).mpr h.1
        exact ⟨ha, fun t ht => (hrest ha t ht).mpr (h.2 t ht)⟩

/-- The first part of a guarded run is guarded. -/
theorem Meets.append_left {as bs : List α} :
    ∀ {s : σ}, Meets step G s (as ++ bs) → Meets step G s as := by
  induction as with
  | nil => exact fun _ => trivial
  | cons a as ih => exact fun h => ⟨h.1, fun t ht => ih (h.2 t ht)⟩

/-- A guarded run goes on as a guarded run. -/
theorem Meets.append {as bs : List α} :
    ∀ {s t : σ}, Meets step G s as → run step s as = .ok t → Meets step G t bs →
      Meets step G s (as ++ bs) := by
  induction as with
  | nil =>
      intro s t _ hrun h
      cases hrun
      exact h
  | cons a as ih =>
      intro s t hm hrun h
      obtain ⟨m, hstep, hrest⟩ := run_cons_success hrun
      exact Meets.cons hm.1 hstep (ih (hm.2 m hstep) hrest h)

/-- The step after a guarded run meets the guard. -/
theorem Meets.last {as : List α} {a : α} :
    ∀ {s t : σ}, Meets step G s (as ++ [a]) → run step s as = .ok t → G t a := by
  induction as with
  | nil =>
      intro s t h hrun
      cases hrun
      exact h.1
  | cons b as ih =>
      intro s t h hrun
      obtain ⟨m, hm, hrest⟩ := run_cons_success hrun
      exact ih (h.2 m hm) hrest

/-- **Invariant rule.**  If every guarded step from a state with the invariant
succeeds and keeps it, every guarded run succeeds and keeps it. -/
theorem run_ok_of_meets {I : σ → Prop} {s : σ} {as : List α}
    (hstep : ∀ s, ∀ a ∈ as, I s → G s a → ∃ t, step s a = .ok t ∧ I t)
    (hs : I s) (hm : Meets step G s as) : ∃ t, run step s as = .ok t ∧ I t := by
  induction as generalizing s with
  | nil => exact ⟨s, rfl, hs⟩
  | cons a as ih =>
      obtain ⟨t, ht, hinv⟩ := hstep s a (by simp) hs hm.1
      obtain ⟨u, hu, huinv⟩ :=
        ih (fun s b hb => hstep s b (List.mem_cons_of_mem _ hb)) hinv (hm.2 t ht)
      exact ⟨u, by rw [run_cons_ok ht, hu], huinv⟩

/-- An invariant of all successful steps holds wherever a run ends. -/
theorem run_invariant {I : σ → Prop} {s t : σ} {as : List α}
    (hstep : ∀ s, ∀ a ∈ as, ∀ t, I s → step s a = .ok t → I t)
    (hs : I s) (h : run step s as = .ok t) : I t := by
  induction as generalizing s with
  | nil =>
      cases h
      exact hs
  | cons a as ih =>
      obtain ⟨m, hm, hrest⟩ := run_cons_success h
      exact ih (fun s b hb => hstep s b (List.mem_cons_of_mem _ hb))
        (hstep s a (by simp) m hs hm) hrest

/-- **Safety rule.**  If a step from a state with the invariant never ends with the error `e`, no
run does. -/
theorem run_ne_error {I : σ → Prop} {e : ε} (hkeeps : ∀ s a t, I s → step s a = .ok t → I t)
    (hsafe : ∀ s a, I s → step s a ≠ .error e) :
    ∀ {s : σ} (as : List α), I s → run step s as ≠ .error e
  | _, [], _ => by simp
  | s, a :: as, hs => by
      cases hstep : step s a with
      | error e' =>
          rw [run_cons_error hstep, ← hstep]
          exact hsafe s a hs
      | ok t =>
          rw [run_cons_ok hstep]
          exact run_ne_error hkeeps hsafe as (hkeeps s a t hs hstep)

/-- An invariant of all guarded steps holds wherever a guarded run ends. -/
theorem Meets.run_invariant {I : σ → Prop} {s t : σ} {as : List α}
    (hstep : ∀ s, ∀ a ∈ as, ∀ t, I s → G s a → step s a = .ok t → I t)
    (hm : Meets step G s as) (hs : I s) (h : run step s as = .ok t) : I t := by
  induction as generalizing s with
  | nil =>
      cases h
      exact hs
  | cons a as ih =>
      obtain ⟨m, hstep₁, hrest⟩ := run_cons_success h
      exact ih (fun s b hb => hstep s b (List.mem_cons_of_mem _ hb)) (hm.2 m hstep₁)
        (hstep s a (by simp) m hs hm.1 hstep₁) hrest

/-- **Exactness rule.**  If a guarded step keeps the invariant, and a step off the guard ends
outside `P`, the runs that stay inside `P` are the guarded ones. -/
theorem Meets.iff_forall_before {I P : σ → Prop}
    (hstep : ∀ s a t, I s → G s a → step s a = .ok t → I t)
    (hbroken : ∀ s a, I s → ¬ G s a → ∃ t, step s a = .ok t ∧ ¬ P t) (hP : ∀ s, I s → P s) :
    ∀ {s : σ} {as : List α}, I s →
      (Meets step G s as ↔ ∀ before, before <+: as → ∀ t, run step s before = .ok t → P t) := by
  intro s as hs
  constructor
  · rintro hm before ⟨rest, rfl⟩ t hrun
    exact hP t (hm.append_left.run_invariant (fun s a _ t => hstep s a t) hs hrun)
  · induction as generalizing s with
    | nil => exact fun _ => trivial
    | cons a as ih =>
        intro hall
        have hG : G s a := by
          by_contra hnot
          obtain ⟨t, ht, hout⟩ := hbroken s a hs hnot
          exact hout (hall [a] ⟨as, rfl⟩ t (run_cons_ok ht []))
        refine ⟨hG, fun t ht => ih (hstep s a t hs hG ht) fun before hbefore u hrun => ?_⟩
        refine hall (a :: before) (List.cons_prefix_cons.mpr ⟨rfl, hbefore⟩) u ?_
        rw [run_cons_ok ht, hrun]

/-- **Bookkeeping rule.**  If `P` holds after a step exactly if it held before and the step met
the guard, it holds at the end of a run exactly if it held at the start and all steps did. -/
theorem run_iff_meets_of_invariant {I P : σ → Prop}
    (hstep : ∀ s a t, I s → step s a = .ok t → I t ∧ (P t ↔ P s ∧ G s a)) {s t : σ}
    {as : List α} (hs : I s) (h : run step s as = .ok t) : P t ↔ P s ∧ Meets step G s as := by
  induction as generalizing s with
  | nil =>
      cases h
      exact (and_iff_left trivial).symm
  | cons a as ih =>
      obtain ⟨m, hm, hrest⟩ := run_cons_success h
      obtain ⟨hinv, hiff⟩ := hstep s a m hs hm
      rw [ih hinv hrest, hiff, and_assoc]
      refine and_congr_right fun _ => and_congr_right fun _ =>
        ⟨fun hmeets t' ht' => ?_, fun h => h m hm⟩
      rw [hm] at ht'
      cases ht'
      exact hmeets

theorem run_iff_meets {P : σ → Prop} (hstep : ∀ s a t, step s a = .ok t → (P t ↔ P s ∧ G s a))
    {s t : σ} {as : List α} (h : run step s as = .ok t) : P t ↔ P s ∧ Meets step G s as :=
  run_iff_meets_of_invariant (I := fun _ => True)
    (fun s a t _ ht => ⟨trivial, hstep s a t ht⟩) trivial h

/-- A guard that does not look at the state. -/
theorem meets_iff_forall {G : α → Prop} {s t : σ} {as : List α} (h : run step s as = .ok t) :
    Meets step (fun _ => G) s as ↔ ∀ a ∈ as, G a := by
  induction as generalizing s with
  | nil => simp [Meets]
  | cons a as ih =>
      obtain ⟨m, hm, hrest⟩ := run_cons_success h
      rw [List.forall_mem_cons, ← ih hrest]
      refine and_congr_right fun _ => ⟨fun hmeets => hmeets m hm, fun hmeets t' ht' => ?_⟩
      rw [hm] at ht'
      cases ht'
      exact hmeets

/-- **Collecting rule.**  What each guarded step achieves and no later one takes away
is there at the end of a guarded run. -/
theorem Meets.run_collects {I : σ → Prop} {D : α → σ → Prop} {s t : σ} {as : List α}
    (hstep : ∀ s, ∀ a ∈ as, ∀ t, I s → G s a → step s a = .ok t → I t ∧ D a t)
    (hkept : ∀ s, ∀ a ∈ as, ∀ t, I s → G s a → step s a = .ok t → ∀ b, D b s → D b t)
    (hm : Meets step G s as) (hs : I s) (h : run step s as = .ok t) :
    I t ∧ ∀ a ∈ as, D a t := by
  induction as generalizing s with
  | nil =>
      cases h
      exact ⟨hs, by simp⟩
  | cons a as ih =>
      obtain ⟨m, hstep₁, hrest⟩ := run_cons_success h
      have hmem : ∀ b ∈ as, b ∈ a :: as := fun b hb => List.mem_cons_of_mem _ hb
      obtain ⟨hinv, hdone⟩ := hstep s a (by simp) m hs hm.1 hstep₁
      obtain ⟨hend, hrest'⟩ := ih (fun s b hb => hstep s b (hmem b hb))
        (fun s b hb => hkept s b (hmem b hb)) (hm.2 m hstep₁) hinv hrest
      refine ⟨hend, fun b hb => ?_⟩
      rcases List.mem_cons.mp hb with rfl | hb
      · exact (Meets.run_invariant (I := fun s => I s ∧ D b s)
          (fun s c hc t hsd hG ht =>
            ⟨(hstep s c (hmem c hc) t hsd.1 hG ht).1,
              hkept s c (hmem c hc) t hsd.1 hG ht b hsd.2⟩)
          (hm.2 m hstep₁) ⟨hinv, hdone⟩ hrest).2
      · exact hrest' b hb

/-- **Poisoning rule.**  If breaking the guard makes the state bad and bad states
stay bad, a run that does not meet the guard can only end in a bad state. -/
theorem bad_of_not_meets {I B : σ → Prop} {s u : σ} {as : List α}
    (hinv : ∀ s, ∀ a ∈ as, ∀ t, I s → step s a = .ok t → I t)
    (hbroken : ∀ s, ∀ a ∈ as, ∀ t, I s → ¬ G s a → step s a = .ok t → B t)
    (hkept : ∀ s, ∀ a ∈ as, ∀ t, I s → B s → step s a = .ok t → B t)
    (hs : I s) (hnot : ¬ Meets step G s as) (h : run step s as = .ok u) : B u := by
  induction as generalizing s with
  | nil => exact absurd trivial hnot
  | cons a as ih =>
      obtain ⟨t, ht, hrest⟩ := run_cons_success h
      have hmem : ∀ b ∈ as, b ∈ a :: as := fun b hb => List.mem_cons_of_mem _ hb
      have htinv := hinv s a (by simp) t hs ht
      by_cases hG : G s a
      · have hmeets : ¬ Meets step G t as := by
          intro hm
          apply hnot
          refine ⟨hG, fun t' ht' => ?_⟩
          rw [ht] at ht'
          cases ht'
          exact hm
        exact ih (fun s b hb => hinv s b (hmem b hb)) (fun s b hb => hbroken s b (hmem b hb))
          (fun s b hb => hkept s b (hmem b hb)) htinv hmeets hrest
      · have hbad : I t ∧ B t := ⟨htinv, hbroken s a (by simp) t hs hG ht⟩
        have hstep : ∀ s, ∀ b ∈ as, ∀ t, I s ∧ B s → step s b = .ok t → I t ∧ B t :=
          fun s b hb t hs ht =>
            ⟨hinv s b (hmem b hb) t hs.1 ht, hkept s b (hmem b hb) t hs.1 hs.2 ht⟩
        exact (run_invariant hstep hbad hrest).2

end Run

section Refinement

variable {σ : Type u} {α : Type v} {ε : Type w} {τ : Type*}
variable {step : σ → α → Except ε σ} {G : σ → α → Prop}
variable {R : σ → τ → Prop}

/-- **Refinement rule.**  If every guarded step succeeds and is matched by the
abstract step on the same label, every guarded run ends in a state related to
the end of the abstract run. -/
theorem run_refines (abstractStep : τ → α → τ) {s : σ} {x : τ} {as : List α}
    (hstep : ∀ s, ∀ a ∈ as, ∀ x, R s x → G s a →
      ∃ t, step s a = .ok t ∧ R t (abstractStep x a))
    (hs : R s x) (hm : Meets step G s as) :
    ∃ t, run step s as = .ok t ∧ R t (as.foldl abstractStep x) := by
  induction as generalizing s x with
  | nil => exact ⟨s, rfl, hs⟩
  | cons a as ih =>
      obtain ⟨t, ht, hR⟩ := hstep s a (by simp) x hs hm.1
      obtain ⟨u, hu, huR⟩ :=
        ih (fun s b hb => hstep s b (List.mem_cons_of_mem _ hb)) hR (hm.2 t ht)
      exact ⟨u, by rw [run_cons_ok ht, hu], huR⟩

/-- **Simulation rule.**  If every step on a label is matched by the step of another system on
what the label stands for, the two runs end in related states. -/
theorem run_simulates {β : Type*} {ε' : Type*} {step' : τ → β → Except ε' τ} (f : β → α)
    (hstep : ∀ s x b, R s x →
      ∃ t y, step s (f b) = .ok t ∧ step' x b = .ok y ∧ R t y) :
    ∀ {s : σ} {x : τ} (bs : List β), R s x →
      ∃ t y, run step s (bs.map f) = .ok t ∧ run step' x bs = .ok y ∧ R t y
  | s, x, [], hs => ⟨s, x, rfl, rfl, hs⟩
  | s, x, b :: bs, hs => by
      obtain ⟨t, y, ht, hy, hR⟩ := hstep s x b hs
      obtain ⟨u, z, hu, hz, hRu⟩ := run_simulates f hstep bs hR
      exact ⟨u, z, by rw [List.map_cons, run_cons_ok ht, hu], by rw [run_cons_ok hy, hz], hRu⟩

end Refinement

end Transition
