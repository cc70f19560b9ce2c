import X86Energy.ParseArchitecture.Appends

/-!
# Malformed list files

A line is a sequence of items `N` or `N-M` between commas, with a newline or a NUL at its
end, where the numerals are as `strtol` reads them.  The bounds of its ranges are in a
relation that is a parameter of `LineText`: in a well-formed line no range descends.

The loop tests everything but this (`lineText_iff`).  For a descending range it asks
`realloc` for an array that is smaller than the one it has, and goes on with the elements
that are left.  `rejects_iff` says which malformed texts are rejected all the same.
-/

namespace X86Energy
namespace ParseArchitecture

open CInt CText

/-- An item `N` or `N-M` of numerals in the range of `long`, with bounds in a relation. -/
inductive ItemText (r : Int → Int → Prop) : List Char → Prop
  | number {text : List Char} {n : Int} (h : IsNumeral text n) (hlong : IsLong n) :
      ItemText r text
  | range {text text' : List Char} {n m : Int} (h : IsNumeral text n) (hlong : IsLong n)
      (h' : IsNumeral text' m) (hlong' : IsLong m) (hr : r n m) :
      ItemText r (text ++ '-' :: text')

/-- A text that begins with a line of such items. -/
inductive LineText (r : Int → Int → Prop) : List Char → Prop
  | last {item : List Char} {c : Char} (h : ItemText r item) (hc : c = '\n' ∨ c = nul)
      (rest : List Char) : LineText r (item ++ c :: rest)
  | cons {item rest : List Char} (h : ItemText r item) (hrest : LineText r rest) :
      LineText r (item ++ ',' :: rest)

/-- A well-formed line: every range ascends. -/
def WellFormed (text : List Char) : Prop := LineText (· ≤ ·) text

/-- A line that is well formed but for the order of its ranges. -/
def Punctuated (text : List Char) : Prop := LineText (fun _ _ => True) text

/-- The bounds of a range are in the relation. -/
def Append.Bounds (r : Int → Int → Prop) : Append → Prop
  | .number _ => True
  | .range first last => r first last

section Lines

variable {r : Int → Int → Prop}

/-- What `strtol` has read when it neither fails nor overflows. -/
theorem strtol_good {text : List Char} {n : Strtol} (h : strtol text = some n)
    (hgood : ¬ (¬ n.converted ∨ n.erange)) :
    ∃ numeral, text = numeral ++ n.rest ∧ IsNumeral numeral n.value ∧ IsLong n.value := by
  rw [not_or, not_not] at hgood
  obtain ⟨hconverted, herange⟩ := hgood
  rcases strtol_eq_some h with ⟨rfl, _⟩ | ⟨numeral, value, c, rest, rfl, hnumeral, _, rfl⟩
  · cases hconverted
  · have hlong : IsLong value := by
      by_contra hnot
      exact herange (clip_of_not_isLong hnot _)
    rw [clip_of_isLong hlong]
    exact ⟨numeral, rfl, hnumeral, hlong⟩

theorem strtol_of_isLong {text : List Char} {n : Int} (h : IsNumeral text n) (hlong : IsLong n)
    {c : Char} (hc : c.isDigit = false) (rest : List Char) :
    strtol (text ++ c :: rest) = some ⟨n, c :: rest, true, false⟩ := by
  rw [strtol_of_isNumeral h hc, clip_of_isLong hlong]

/-- A round on a range. -/
theorem scanRound_range {text text' : List Char} {n m : Int} (h : IsNumeral text n)
    (hlong : IsLong n) (h' : IsNumeral text' m) (hlong' : IsLong m) {c : Char}
    (hc : c.isDigit = false) (rest : List Char) :
    scanRound (text ++ '-' :: text' ++ c :: rest) = scanAfterRange (.range n m) (c :: rest) := by
  rw [List.append_assoc, List.cons_append]
  exact (ScanCases.range _ _ _ c rest (strtol_of_isLong h hlong (by decide) _) (by simp) rfl
    (strtol_of_isLong h' hlong' hc rest) (by simp) rfl).eq

/-- The round on an item in front of the rest of its line. -/
theorem scanRound_item_comma {item : List Char} (h : ItemText r item) (rest : List Char) :
    ∃ a : Append, a.Bounds r ∧ scanRound (item ++ ',' :: rest) = .next a rest := by
  cases h with
  | number h hlong =>
      exact ⟨.number _, trivial, (ScanCases.number _ rest
        (strtol_of_isLong h hlong (by decide) rest) (by simp) rfl).eq⟩
  | range h hlong h' hlong' hr =>
      refine ⟨.range _ _, hr, ?_⟩
      rw [scanRound_range h hlong h' hlong' (by decide)]
      rfl

/-- The round on the last item of a line. -/
theorem scan_item_end {item : List Char} (h : ItemText r item) {c : Char} (hc : c = '\n' ∨ c = nul)
    (rest : List Char) :
    (scan (item ++ c :: rest)).2 = .finish ∧ ∀ a ∈ (scan (item ++ c :: rest)).1, a.Bounds r := by
  have hdigit : c.isDigit = false := by
    rcases hc with rfl | rfl <;> decide
  rw [scan_eq]
  cases h with
  | number h hlong =>
      rw [(ScanCases.finish _ c rest (strtol_of_isLong h hlong hdigit rest) (by simp) rfl hc).eq]
      exact ⟨rfl, by simp⟩
  | range h hlong h' hlong' hr =>
      rw [scanRound_range h hlong h' hlong' hdigit, scanAfterRange, if_pos hc]
      exact ⟨rfl, List.forall_mem_singleton.mpr hr⟩

/-- A round that goes on has read an item and a comma. -/
theorem exists_itemText_of_next {text rest : List Char} {item : Append}
    (hround : scanRound text = .next item rest) (hitem : item.Bounds r) :
    ∃ line, text = line ++ ',' :: rest ∧ ItemText r line := by
  have hcases := scanRound_cases text
  generalize hs : scanRound text = s at hcases hround
  cases hcases with
  | number n rest' hn hgood hrest =>
      cases hround
      obtain ⟨numeral, hsplit, hnumeral, hlong⟩ := strtol_good hn hgood
      rw [hrest] at hsplit
      exact ⟨numeral, hsplit, .number hnumeral hlong⟩
  | range n m rest₁ d rest₂ hn hgood hrest hm hgood' hrest' =>
      obtain ⟨numeral, hsplit, hnumeral, hlong⟩ := strtol_good hn hgood
      obtain ⟨numeral', hsplit', hnumeral', hlong'⟩ := strtol_good hm hgood'
      rcases scanAfterRange_cases (.range n.value m.value) d rest₂ with ⟨heq, _⟩ |
        ⟨heq, rfl⟩ | ⟨heq, _⟩ <;> rw [heq] at hround <;> cases hround
      refine ⟨numeral ++ '-' :: numeral', ?_, .range hnumeral hlong hnumeral' hlong' hitem⟩
      rw [hsplit, hrest, hsplit', hrest', List.append_assoc, List.cons_append]
  | _ => cases hround

/-- A round that ends with an item has come to the character behind it. -/
theorem scanRound_ne_last_off {text : List Char} {item : Append} :
    scanRound text ≠ .last item .off := by
  intro hround
  have hcases := scanRound_cases text
  generalize hs : scanRound text = s at hcases hround
  cases hcases with
  | range n m rest d rest' =>
      rcases scanAfterRange_cases (.range n.value m.value) d rest' with ⟨heq, _⟩ |
        ⟨heq, _⟩ | ⟨heq, _⟩ <;> rw [heq] at hround <;> cases hround
  | _ => cases hround

/-- **A line** is what the loop leaves through its end, with the bounds of every range in the
relation. -/
theorem lineText_iff {text : List Char} :
    LineText r text ↔ (scan text).2 = .finish ∧ ∀ a ∈ (scan text).1, a.Bounds r := by
  constructor
  · intro h
    induction h with
    | last h hc rest => exact scan_item_end h hc rest
    | @cons item rest h _ ih =>
        obtain ⟨a, ha, hround⟩ := scanRound_item_comma h rest
        rw [scan_eq, hround]
        exact ⟨ih.1, List.forall_mem_cons.mpr ⟨ha, ih.2⟩⟩
  · induction text using scan_induction with
    | stop text ending hround =>
        rintro ⟨hfinish, _⟩
        rw [scan_eq, hround] at hfinish
        cases hfinish
        have hcases := scanRound_cases text
        generalize hs : scanRound text = s at hcases hround
        cases hcases with
        | finish n c rest hn hgood hrest hc =>
            obtain ⟨numeral, hsplit, hnumeral, hlong⟩ := strtol_good hn hgood
            rw [hsplit, hrest]
            exact .last (.number hnumeral hlong) hc rest
        | range n m rest d rest' =>
            rcases scanAfterRange_cases (.range n.value m.value) d rest' with ⟨heq, _⟩ |
              ⟨heq, _⟩ | ⟨heq, _⟩ <;> rw [heq] at hround <;> cases hround
        | _ => cases hround
    | last text item ending hround =>
        rintro ⟨hfinish, hbounds⟩
        rw [scan_eq, hround] at hfinish hbounds
        cases hfinish
        have hcases := scanRound_cases text
        generalize hs : scanRound text = s at hcases hround
        cases hcases with
        | range n m rest d rest' hn hgood hrest hm hgood' hrest' =>
            obtain ⟨numeral, hsplit, hnumeral, hlong⟩ := strtol_good hn hgood
            obtain ⟨numeral', hsplit', hnumeral', hlong'⟩ := strtol_good hm hgood'
            rcases scanAfterRange_cases (.range n.value m.value) d rest' with ⟨heq, hd⟩ |
              ⟨heq, _⟩ | ⟨heq, _⟩ <;> rw [heq] at hround <;> cases hround
            have hr := hbounds _ (List.mem_singleton_self _)
            rw [hsplit, hrest, hsplit', hrest', ← List.cons_append, ← List.append_assoc]
            exact .last (.range hnumeral hlong hnumeral' hlong' hr) hd rest'
        | _ => cases hround
    | next text item rest hround ih =>
        rintro ⟨hfinish, hbounds⟩
        rw [scan_eq, hround] at hfinish hbounds
        obtain ⟨line, rfl, hline⟩ :=
          exists_itemText_of_next hround (hbounds item List.mem_cons_self)
        exact .cons hline (ih ⟨hfinish, fun a ha => hbounds a (List.mem_cons_of_mem _ ha)⟩)

theorem strtol_split {text : List Char} {n : Strtol} (h : strtol text = some n) :
    ∃ numeral, text = numeral ++ n.rest ∧ IsOpenNumeral numeral := by
  rcases strtol_eq_some h with ⟨rfl, _⟩ | ⟨numeral, value, c, rest, rfl, hnumeral, _, rfl⟩
  · exact ⟨[], rfl, isOpenNumeral_nil⟩
  · rw [clip_rest]
    exact ⟨numeral, rfl, hnumeral.isOpenNumeral⟩

theorem nul_not_mem {text : List Char} (h : IsOpenNumeral text) : nul ∉ text := by
  intro hmem
  rcases h.mem hmem with h | h | h | h <;> exact absurd h (by decide)

/-- `strtol` stops in front of a NUL. -/
theorem nul_mem_rest {text : List Char} {n : Strtol} (h : strtol text = some n)
    (hnul : nul ∈ text) : nul ∈ n.rest := by
  obtain ⟨numeral, hsplit, hopen⟩ := strtol_split h
  rw [hsplit] at hnul
  exact (List.mem_append.mp hnul).resolve_left (nul_not_mem hopen)

/-- **The loop does not leave a text with a NUL.** -/
theorem scan_of_nul_mem (text : List Char) : nul ∈ text → (scan text).2 ≠ .off := by
  induction text using scan_induction with
  | stop text ending hround =>
      intro hnul
      rw [scan_eq, hround]
      rintro rfl
      have hcases := scanRound_cases text
      generalize hs : scanRound text = s at hcases hround
      cases hcases with
      | off hopen => exact nul_not_mem hopen hnul
      | openRange n rest hn hgood hrest hopen =>
          have hmem := nul_mem_rest hn hnul
          rw [hrest] at hmem
          exact nul_not_mem hopen ((List.mem_cons.mp hmem).resolve_left (by decide))
      | range n m rest d rest' =>
          rcases scanAfterRange_cases (.range n.value m.value) d rest' with ⟨heq, _⟩ |
            ⟨heq, _⟩ | ⟨heq, _⟩ <;> rw [heq] at hround <;> cases hround
      | _ => cases hround
  | last text item ending hround =>
      intro _
      rw [scan_eq, hround]
      rintro rfl
      exact scanRound_ne_last_off hround
  | next text item rest hround ih =>
      intro hnul
      rw [scan_eq, hround]
      refine ih ?_
      have hcases := scanRound_cases text
      generalize hs : scanRound text = s at hcases hround
      cases hcases with
      | number n rest' hn hgood hrest =>
          cases hround
          have hmem := nul_mem_rest hn hnul
          rw [hrest] at hmem
          exact (List.mem_cons.mp hmem).resolve_left (by decide)
      | range n m rest₁ d rest₂ hn hgood hrest hm hgood' hrest' =>
          have hmem := nul_mem_rest hn hnul
          rw [hrest] at hmem
          have hmem' := nul_mem_rest hm ((List.mem_cons.mp hmem).resolve_left (by decide))
          rw [hrest'] at hmem'
          rcases scanAfterRange_cases (.range n.value m.value) d rest₂ with ⟨heq, _⟩ |
            ⟨heq, rfl⟩ | ⟨heq, _⟩ <;> rw [heq] at hround <;> cases hround
          exact (List.mem_cons.mp hmem').resolve_left (by decide)
      | _ => cases hround

end Lines

section Rejected

variable (grant : Nat → Nat → Bool)

/-- The file is rejected, whatever the stack holds. -/
def Rejects (content : List Char) : Prop :=
  ∀ stack, readFileLongList grant stack (.bytes content) = .ok .failure

variable {grant}

/-- A text with a NUL is read to an exit inside it, whatever the stack holds. -/
theorem readFileLongList_of_nul_mem (stack : List Char) {content : List Char}
    (hlen : content.length < bufferSize) (hnul : nul ∈ content)
    (hhead : ∀ c ∈ content.head?, c ≠ '\n' ∧ c ≠ nul) :
    readFileLongList grant stack (.bytes content) =
      outcome (appendAll grant noNumbers (scan content).1) (scan content).2 := by
  have hscan := scanBuffer_eq_scan hhead
  have hoff : (scanBuffer content).2 ≠ .off := by
    rw [hscan]
    exact scan_of_nul_mem content hnul
  rw [readFileLongList_eq grant stack hlen, scanBuffer_append hoff, hscan]

theorem outcome_eq_failure {result : Except Halt ListState} {ending : Ending}
    (hoff : ending ≠ .off) :
    outcome result ending = .ok .failure ↔
      (ending ≠ .finish ∨ result = .error .refused) ∧ result ≠ .error .undefined := by
  cases result with
  | error halt => cases halt <;> simp [outcome]
  | ok st =>
      cases ending with
      | off => exact absurd rfl hoff
      | refuse => simp [outcome, Ending.leave]
      | finish => simp [outcome, Ending.leave, ListResult.failure]

theorem punctuated_iff {content : List Char} :
    Punctuated content ↔ (scan content).2 = .finish := by
  refine lineText_iff.trans ⟨fun h => h.1, fun h => ⟨h, fun a _ => ?_⟩⟩
  cases a <;> trivial

/-- When a text is rejected. -/
theorem rejects_iff {content : List Char} (hlen : content.length < bufferSize)
    (hnul : nul ∈ content) (hhead : ∀ c ∈ content.head?, c ≠ '\n' ∧ c ≠ nul) :
    Rejects grant content ↔
      (¬ Punctuated content ∨ ReallocRefuses grant .start (scan content).1) ∧
        ¬ LeftUndefined grant .start (scan content).1 := by
  have hresult : Rejects grant content ↔
      outcome (appendAll grant noNumbers (scan content).1) (scan content).2 = .ok .failure := by
    constructor
    · intro h
      rw [← readFileLongList_of_nul_mem [] hlen hnul hhead]
      exact h []
    · intro h stack
      rw [readFileLongList_of_nul_mem stack hlen hnul hhead]
      exact h
  obtain ⟨hundefined, hrefused⟩ := appendAll_iff grant (scan content).1 noNumbers_tallied
  rw [hresult, outcome_eq_failure (scan_of_nul_mem content hnul), punctuated_iff, ← hundefined,
    ← hrefused]

variable (grant) in
/-- A text outside the format is rejected. -/
def RejectsMalformed (content : List Char) : Prop :=
  ¬ WellFormed content → Rejects grant content

/-- **A malformed text is rejected exactly if** its fault is not just the order of a range, or
`realloc` refuses an append, and C defines every append that is made for its items. -/
theorem rejectsMalformed_iff {content : List Char} (hlen : content.length < bufferSize)
    (hnul : nul ∈ content) (hhead : ∀ c ∈ content.head?, c ≠ '\n' ∧ c ≠ nul) :
    RejectsMalformed grant content ↔
      WellFormed content ∨
        (¬ Punctuated content ∨ ReallocRefuses grant .start (scan content).1) ∧
          ¬ LeftUndefined grant .start (scan content).1 := by
  unfold RejectsMalformed
  rw [rejects_iff hlen hnul hhead, ← Classical.or_iff_not_imp_left]

/-- A comma at the end. -/
theorem rejectsMalformed_comma :
    RejectsMalformed (fun _ _ => true) ['1', ',', '\n', nul] := by
  have hnot : ¬ Punctuated ['1', ',', '\n', nul] := by
    rw [punctuated_iff]
    decide
  refine (rejectsMalformed_iff (by decide) (by decide) ?_).mpr (.inr ⟨.inl hnot, by decide⟩)
  rintro c ⟨rfl⟩
  decide

/-- **A descending range is taken for an item** and takes away an element that was collected
before: `0-2,5-3` is read as the list of 0 and 1. -/
theorem not_rejectsMalformed_descending :
    ¬ RejectsMalformed (fun _ _ => true) ['0', '-', '2', ',', '5', '-', '3', '\n', nul] := by
  intro h
  have hread : readFileLongList (fun _ _ => true) []
      (.bytes ['0', '-', '2', ',', '5', '-', '3', '\n', nul]) = .ok ⟨0, some [0, 1], 2⟩ := rfl
  have hnot : ¬ WellFormed ['0', '-', '2', ',', '5', '-', '3', '\n', nul] := by
    intro hwell
    have hle : (5 : Int) ≤ 3 := (lineText_iff.mp hwell).2 (.range 5 3) (by decide)
    exact absurd hle (by decide)
  have hfailure := h hnot []
  rw [hread] at hfailure
  cases hfailure

end Rejected

end ParseArchitecture
end X86Energy
