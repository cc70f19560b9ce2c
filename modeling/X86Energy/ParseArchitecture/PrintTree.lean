import X86Energy.Library.CText
import X86Energy.Library.Outline
import X86Energy.Library.Partial
import X86Energy.ParseArchitecture.Node

/-!
# Printing a tree

`x86_energy_print` writes one line for each node, indented by its level.  A THREAD ends the
descent.  The text has everything that a node holds: `readPrint` gets the tree back from it.
-/

namespace X86Energy
namespace ArchNode

open CInt CText Outline

/-- What is printed of a node. -/
structure Header where
  granularity : Granularity
  id : Int
  name : List Char
deriving DecidableEq, Repr

/-- The text in front of the id; the last two are the default case. -/
def caption : Granularity → List Char
  | .thread => "CPU id: ".toList
  | .core => "Core: ".toList
  | .module => "Module: ".toList
  | .die => "Die: ".toList
  | .socket => "Socket: ".toList
  | .system => "System: ".toList
  | .device => "Unknown(6): ".toList
  | .size => "Unknown(7): ".toList

/-- What `%s` prints, with the text of the C library for `NULL`. -/
def nameText (name : Option String) : List Char := (name.getD "(null)").toList

/-- A line without its end. -/
def lineText (line : Nat × Header) : List Char :=
  (List.replicate line.1 [' ', ' ']).flatten ++
    (caption line.2.granularity ++ (decimal line.2.id ++ ' ' :: line.2.name))

mutual

/-- `x86_energy_print`. -/
def print (level : Nat) : ArchNode → List Char
  | node g i n cs =>
      lineText (level, ⟨g, i, nameText n⟩) ++ '\n' ::
        (if g = .thread then [] else printAll (level + 1) cs)

def printAll (level : Nat) : List ArchNode → List Char
  | [] => []
  | c :: cs => print level c ++ printAll level cs

end

section Read

/-- The granularity that a line names, and the text behind its caption. -/
def readCaption (text : List Char) : Option (Granularity × List Char) :=
  [Granularity.thread, .core, .module, .die, .socket, .system, .device, .size].findSome? fun g =>
    if (caption g).isPrefixOf text then some (g, text.drop (caption g).length) else none

/-- One line of the text, with its level. -/
def readLine (line : List Char) : Option (Nat × Header) :=
  match readCaption (line.dropWhile (· = ' ')) with
  | none => none
  | some (g, rest) =>
      match strtol rest with
      | none => none
      | some n => some ((line.takeWhile (· = ' ')).length / 2, ⟨g, n.value, n.rest.drop 1⟩)

mutual

def ofRose : Rose Header → ArchNode
  | .node h cs => node h.granularity h.id (some (String.ofList h.name)) (ofRoseAll cs)

def ofRoseAll : List (Rose Header) → List ArchNode
  | [] => []
  | c :: cs => ofRose c :: ofRoseAll cs

end

/-- The trees in a text, each with its level. -/
def readPrint (text : List Char) : Option (List (Nat × ArchNode)) :=
  ((text.splitOn '\n').dropLast.mapM readLine).map fun lines =>
    (rebuild lines).map fun tree => (tree.1, ofRose tree.2)

end Read

/-- A node whose line can be read: its name is a line, its id is an `int32_t`, and nothing is below
it if it is a THREAD. -/
structure Legible (t : ArchNode) : Prop where
  name : ∃ s : String, t.name = some s ∧ '\n' ∉ s.toList
  id : IsInt32 t.id
  leaf : t.granularity = .thread → t.children = []

/-- All lines of the tree can be read. -/
def Printable (t : ArchNode) : Prop := ∀ x ∈ t.preorder, Legible x

section Lines

mutual

def toRose : ArchNode → Rose Header
  | node g i n cs => .node ⟨g, i, nameText n⟩ (toRoseAll cs)

def toRoseAll : List ArchNode → List (Rose Header)
  | [] => []
  | c :: cs => toRose c :: toRoseAll cs

end

theorem Printable.child {t c : ArchNode} (h : Printable t) (hc : c ∈ t.children) : Printable c :=
  fun x hx => h x (mem_preorder_of_mem_children hc hx)

theorem ofRose_toRose {t : ArchNode} (h : Printable t) : ofRose (toRose t) = t := by
  induction t using induct with
  | h g i n cs ih =>
      have hall : ∀ l : List ArchNode, (∀ c ∈ l, ofRose (toRose c) = c) →
          ofRoseAll (toRoseAll l) = l := by
        intro l hl
        induction l with
        | nil => rfl
        | cons c l ihl =>
            rw [toRoseAll, ofRoseAll, hl c (by simp), ihl fun x hx => hl x (by simp [hx])]
      obtain ⟨s, hs, _⟩ := (h _ (self_mem_preorder _)).name
      have hname : n = some s := hs
      rw [toRose, ofRose, hall cs fun c hc => ih c hc (h.child (by simpa using hc)), hname]
      simp [nameText]

/-- The lines of the text are those of the outline. -/
theorem print_eq_outline {t : ArchNode} (h : Printable t) (level : Nat) :
    print level t = (outline level (toRose t)).flatMap fun line => lineText line ++ ['\n'] := by
  induction t using induct generalizing level with
  | h g i n cs ih =>
      have hall : ∀ l : List ArchNode, (∀ c ∈ l, c ∈ cs) → printAll (level + 1) l =
          (outlineAll (level + 1) (toRoseAll l)).flatMap fun line => lineText line ++ ['\n'] := by
        intro l hl
        induction l with
        | nil => rfl
        | cons c l ihl =>
            have hc : c ∈ cs := hl c (by simp)
            rw [printAll, toRoseAll, outlineAll, List.flatMap_append,
              ih c hc (h.child (by simpa using hc)), ihl fun x hx => hl x (by simp [hx])]
      rw [print, toRose, outline, List.flatMap_cons, List.append_assoc, List.singleton_append]
      by_cases hthread : g = .thread
      · have hleaf : cs = [] := (h _ (self_mem_preorder _)).leaf hthread
        rw [if_pos hthread, hleaf]
        rfl
      · rw [if_neg hthread, hall cs fun c hc => hc]

/-- The lines of the outline of a printable tree have names that are lines. -/
theorem legible_of_mem_outline {t : ArchNode} (h : Printable t) {level : Nat} :
    ∀ line ∈ outline level (toRose t), '\n' ∉ line.2.name ∧ IsInt32 line.2.id := by
  induction t using induct generalizing level with
  | h g i n cs ih =>
      have hall : ∀ l : List ArchNode, (∀ c ∈ l, c ∈ cs) →
          ∀ line ∈ outlineAll (level + 1) (toRoseAll l),
            '\n' ∉ line.2.name ∧ IsInt32 line.2.id := by
        intro l hl
        induction l with
        | nil => exact fun line hline => by cases hline
        | cons c l ihl =>
            intro line hline
            rw [toRoseAll, outlineAll, List.mem_append] at hline
            have hc : c ∈ cs := hl c (by simp)
            rcases hline with hline | hline
            · exact ih c hc (h.child (by simpa using hc)) line hline
            · exact ihl (fun x hx => hl x (by simp [hx])) line hline
      intro line hline
      rw [toRose, outline, List.mem_cons] at hline
      rcases hline with rfl | hline
      · have hhere := h _ (self_mem_preorder _)
        obtain ⟨s, hs, hline⟩ := hhere.name
        have hname : n = some s := hs
        exact ⟨by simpa [nameText, hname] using hline, hhere.id⟩
      · exact hall cs (fun c hc => hc) line hline

end Lines

section Roundtrip

theorem indent_eq (level : Nat) :
    (List.replicate level [' ', ' ']).flatten = List.replicate (2 * level) ' ' := by
  induction level with
  | zero => rfl
  | succ level ih =>
      rw [List.replicate_succ, List.flatten_cons, ih]
      rfl

theorem readCaption_caption (g : Granularity) (rest : List Char) :
    readCaption (caption g ++ rest) = some (g, rest) := by
  cases g <;> rfl

theorem caption_cons (g : Granularity) : ∃ c cs, caption g = c :: cs ∧ c ≠ ' ' := by
  cases g <;> exact ⟨_, _, rfl, by decide⟩

/-- **A line is read back.** -/
theorem readLine_lineText {line : Nat × Header} (h : IsInt32 line.2.id) :
    readLine (lineText line) = some line := by
  obtain ⟨c, cs, hcaption, hc⟩ := caption_cons line.2.granularity
  have hspaces : ∀ x ∈ List.replicate (2 * line.1) ' ', decide (x = ' ') = true := by
    intro x hx
    exact decide_eq_true (List.eq_of_mem_replicate hx)
  have hstop : ∀ rest, (caption line.2.granularity ++ rest).dropWhile (· = ' ') =
        caption line.2.granularity ++ rest ∧
      (caption line.2.granularity ++ rest).takeWhile (· = ' ') = [] := by
    intro rest
    rw [hcaption, List.cons_append]
    exact ⟨List.dropWhile_cons_of_neg (by simpa using hc),
      List.takeWhile_cons_of_neg (by simpa using hc)⟩
  have hlong : IsLong line.2.id := by
    unfold IsInt32 intMin intMax at h
    unfold IsLong longMin longMax
    omega
  unfold readLine lineText
  rw [indent_eq, List.dropWhile_append_of_pos hspaces, List.takeWhile_append_of_pos hspaces,
    (hstop _).1, (hstop _).2, readCaption_caption]
  simp only
  rw [strtol_decimal line.2.id (by decide), clip_of_isLong hlong]
  simp

theorem flatMap_line {lines : List (List Char)} :
    lines.flatMap (fun line => line ++ ['\n']) = ['\n'].intercalate (lines ++ [[]]) := by
  induction lines with
  | nil => rfl
  | cons line lines ih =>
      rw [List.flatMap_cons, ih]
      cases lines <;> simp [List.intercalate]

/-- Text of whole lines, line by line. -/
theorem splitOn_lines {lines : List (List Char)} (h : ∀ line ∈ lines, '\n' ∉ line) :
    ((lines.flatMap fun line => line ++ ['\n']).splitOn '\n').dropLast = lines := by
  rw [flatMap_line, List.splitOn_intercalate, List.dropLast_concat]
  · intro line hline
    rcases List.mem_append.mp hline with hline | hline
    · exact h line hline
    · rw [List.mem_singleton.mp hline]
      exact List.not_mem_nil
  · simp

theorem newline_not_mem_lineText {line : Nat × Header} (h : '\n' ∉ line.2.name) :
    '\n' ∉ lineText line := by
  have hcaption : '\n' ∉ caption line.2.granularity := by
    cases line.2.granularity <;> decide
  have hdigits : ∀ n : Nat, '\n' ∉ Nat.toDigits 10 n := fun n hmem =>
    absurd (Nat.isDigit_of_mem_toDigits (by decide) (by decide) hmem) (by decide)
  have hdecimal : '\n' ∉ decimal line.2.id := by
    unfold decimal
    split
    · exact List.not_mem_cons_of_ne_of_not_mem (by decide) (hdigits _)
    · exact hdigits _
  unfold lineText
  rw [indent_eq]
  simp only [List.mem_append, List.mem_cons, not_or]
  exact ⟨fun hmem => by simpa using List.eq_of_mem_replicate hmem, hcaption, hdecimal, by decide, h⟩

/-- **A printed tree is read back**, with its level. -/
theorem readPrint_print (level : Nat) (t : ArchNode) (h : Printable t) :
    readPrint (print level t) = some [(level, t)] := by
  have hlines : ∀ line ∈ outline level (toRose t), '\n' ∉ line.2.name ∧ IsInt32 line.2.id :=
    legible_of_mem_outline h
  have hread : ∀ line ∈ outline level (toRose t), readLine (lineText line) = some line :=
    fun line hline => readLine_lineText (hlines line hline).2
  have hmap : ((outline level (toRose t)).map lineText).mapM readLine =
      some (outline level (toRose t)) := by
    rw [List.mapM_map]
    exact (Partial.mapM_of_forall (g := fun line => line) hread).trans (by rw [List.map_id'])
  have htext : print level t =
      ((outline level (toRose t)).map lineText).flatMap fun line => line ++ ['\n'] := by
    rw [print_eq_outline h, List.flatMap_map]
  unfold readPrint
  rw [htext, splitOn_lines, hmap, Option.map_some, rebuild_outline, List.map_singleton,
    ofRose_toRose h]
  intro text htext
  obtain ⟨line, hline, rfl⟩ := List.mem_map.mp htext
  exact newline_not_mem_lineText (hlines line hline).1

/-- A machine with one CPU, as the library names its nodes. -/
def namedTree : ArchNode :=
  .node .system 0 (some "host") [.node .socket 0 (some "Processor 0") [.node .die 0 (some "0")
    [.node .core 0 (some "Core 0") [.node .thread 0 (some "CPU 0") []]]]]

theorem readPrint_print_named : readPrint (print 1 namedTree) = some [(1, namedTree)] := by
  refine readPrint_print 1 namedTree fun x hx => ?_
  simp only [namedTree, preorder, preorderAll, List.append_nil, List.mem_cons, List.not_mem_nil,
    or_false] at hx
  rcases hx with rfl | rfl | rfl | rfl | rfl
  all_goals exact ⟨⟨_, rfl, by decide⟩, by decide, by intro h; first | rfl | cases h⟩

end Roundtrip

end ArchNode
end X86Energy
