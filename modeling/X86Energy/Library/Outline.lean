import Mathlib.Data.List.TakeWhile

/-!
# Outlines

An outline lists the nodes of a tree in preorder, each with its depth.  `rebuild` reads
it from the end and makes every line the parent of the trees behind it that are deeper.
-/

namespace Outline

universe u

/-- Trees with any number of children. -/
inductive Rose (α : Type u)
  | node (a : α) (children : List (Rose α))

variable {α : Type u}

mutual

/-- The lines of a tree at a depth. -/
def outline (depth : Nat) : Rose α → List (Nat × α)
  | .node a cs => (depth, a) :: outlineAll (depth + 1) cs

def outlineAll (depth : Nat) : List (Rose α) → List (Nat × α)
  | [] => []
  | c :: cs => outline depth c ++ outlineAll depth cs

end

/-- Whether a tree stands deeper than a line. -/
def deeper (line : Nat × α) (tree : Nat × Rose α) : Bool := line.1 < tree.1

/-- A line takes the deeper trees that follow it as its children. -/
def adopt (line : Nat × α) (later : List (Nat × Rose α)) : List (Nat × Rose α) :=
  (line.1, .node line.2 ((later.takeWhile (deeper line)).map Prod.snd)) ::
    later.dropWhile (deeper line)

/-- The trees of an outline, each with its depth. -/
def rebuild (lines : List (Nat × α)) : List (Nat × Rose α) := lines.foldr adopt []

/-- No tree at the front stands deeper. -/
def NotDeeper (depth : Nat) (later : List (Nat × Rose α)) : Prop :=
  ∀ tree rest, later = tree :: rest → tree.1 ≤ depth

theorem adopt_children {depth : Nat} (a : α) {children : List (Rose α)}
    {later : List (Nat × Rose α)} (h : NotDeeper depth later) :
    adopt (depth, a) (children.map (fun c => (depth + 1, c)) ++ later) =
      (depth, .node a children) :: later := by
  have hchildren : ∀ tree ∈ children.map (fun c => (depth + 1, c)),
      deeper (depth, a) tree = true := by
    intro tree htree
    obtain ⟨c, _, rfl⟩ := List.mem_map.mp htree
    exact decide_eq_true (Nat.lt_succ_self depth)
  have hlater : later.takeWhile (deeper (depth, a)) = [] ∧
      later.dropWhile (deeper (depth, a)) = later := by
    cases later with
    | nil => exact ⟨rfl, rfl⟩
    | cons tree rest =>
        have hnot : deeper (depth, a) tree = false :=
          decide_eq_false (Nat.not_lt.mpr (h tree rest rfl))
        exact ⟨List.takeWhile_cons_of_neg (by simp [hnot]),
          List.dropWhile_cons_of_neg (by simp [hnot])⟩
  unfold adopt
  rw [List.takeWhile_append_of_pos hchildren, List.dropWhile_append_of_pos hchildren, hlater.1,
    hlater.2, List.append_nil, List.map_map]
  simp [Function.comp_def]

mutual

/-- The lines of a tree are read back in front of what is not deeper. -/
theorem foldr_outline (depth : Nat) {later : List (Nat × Rose α)} (h : NotDeeper depth later) :
    ∀ t : Rose α, (outline depth t).foldr adopt later = (depth, t) :: later
  | .node a cs => by
      have hdeep : NotDeeper (depth + 1) later :=
        fun tree rest heq => Nat.le_succ_of_le (h tree rest heq)
      rw [outline, List.foldr_cons, foldr_outlineAll (depth + 1) hdeep cs, adopt_children a h]

theorem foldr_outlineAll (depth : Nat) {later : List (Nat × Rose α)} (h : NotDeeper depth later) :
    ∀ cs : List (Rose α),
      (outlineAll depth cs).foldr adopt later = cs.map (fun c => (depth, c)) ++ later
  | [] => rfl
  | c :: cs => by
      have hnext : NotDeeper depth (cs.map (fun c => (depth, c)) ++ later) := by
        intro tree rest heq
        cases cs with
        | nil => exact h tree rest heq
        | cons c' cs =>
            cases heq
            exact Nat.le_refl depth
      rw [outlineAll, List.foldr_append, foldr_outlineAll depth h cs, foldr_outline depth hnext c]
      rfl

end

/-- **An outline determines its tree.** -/
theorem rebuild_outline (depth : Nat) (t : Rose α) : rebuild (outline depth t) = [(depth, t)] :=
  foldr_outline depth (fun _ _ h => by cases h) t

end Outline
