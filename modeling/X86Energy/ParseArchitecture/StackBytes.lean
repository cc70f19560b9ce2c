import X86Energy.ParseArchitecture.Malformed

/-!
# What the stack holds

`read` fills the front of a buffer on the stack, and neither parser looks at how many bytes it
delivered: the scan ends at a character that ends it, which may be one that the stack held
before.  `DependsOnFileOnly` compares two runs on buffers with different contents.

`RunsOut` describes the texts that end before the scan does: items and commas, and behind
them a number, or a range, that is still open.  `dependsOnFileOnly_iff` says that these are the
files whose result the stack decides, unless `realloc` stops the loop earlier.
-/

namespace X86Energy
namespace ParseArchitecture

open CInt CText

/-- Two runs yield the same, whatever the buffer holds before. -/
def SameResult {α : Type} (read : List Char → Except ParseStop α) : Prop :=
  ∀ stack stack', stack.length = bufferSize → stack'.length = bufferSize →
    ∃ result, read stack = .ok result ∧ read stack' = .ok result

/-- **Both parsers yield what the bytes of the file say.** -/
def DependsOnFileOnly (grant : Nat → Nat → Bool) (content : List Char) : Prop :=
  SameResult (fun stack => readFileLongList grant stack (.bytes content)) ∧
    SameResult (fun stack => readFileLong stack (.bytes content))

/-- The text ends before the scan: in a number, in the second number of a range, or in one of
these behind an item and a comma. -/
inductive RunsOut : List Char → Prop
  | number {text : List Char} (h : IsOpenNumeral text) : RunsOut text
  | range {text text' : List Char} {n : Int} (h : IsNumeral text n) (hlong : IsLong n)
      (h' : IsOpenNumeral text') : RunsOut (text ++ '-' :: text')
  | cons {item rest : List Char} (h : ItemText (fun _ _ => True) item) (hrest : RunsOut rest) :
      RunsOut (item ++ ',' :: rest)

/-- The first byte ends the line. -/
def EmptyLine (content : List Char) : Prop := ∃ c ∈ content.head?, c = '\n' ∨ c = nul

section Text

/-- **The scan leaves a text** exactly if the text runs out. -/
theorem runsOut_iff {text : List Char} : RunsOut text ↔ (scan text).2 = .off := by
  constructor
  · intro h
    induction h with
    | number h => rw [scan_eq, (ScanCases.off h).eq]
    | range h hlong h' =>
        rw [scan_eq, (ScanCases.openRange _ _ (strtol_of_isLong h hlong (by decide) _) (by simp)
          rfl h').eq]
    | @cons item rest h _ ih =>
        obtain ⟨a, _, hround⟩ := scanRound_item_comma h rest
        rw [scan_eq, hround]
        exact ih
  · induction text using scan_induction with
    | stop text ending hround =>
        intro hoff
        rw [scan_eq, hround] at hoff
        cases hoff
        have hcases := scanRound_cases text
        generalize hs : scanRound text = s at hcases hround
        cases hcases with
        | off hopen => exact .number hopen
        | openRange n rest hn hgood hrest hopen =>
            obtain ⟨numeral, hsplit, hnumeral, hlong⟩ := strtol_good hn hgood
            rw [hsplit, hrest]
            exact .range hnumeral hlong hopen
        | range n m rest d rest' =>
            rcases scanAfterRange_cases (.range n.value m.value) d rest' with ⟨heq, _⟩ |
              ⟨heq, _⟩ | ⟨heq, _⟩ <;> rw [heq] at hround <;> cases hround
        | _ => cases hround
    | last text item ending hround =>
        intro hoff
        rw [scan_eq, hround] at hoff
        cases hoff
        exact absurd hround scanRound_ne_last_off
    | next text item rest hround ih =>
        intro hoff
        rw [scan_eq, hround] at hoff
        have hbounds : item.Bounds fun _ _ => True := by
          cases item <;> trivial
        obtain ⟨line, rfl, hline⟩ := exists_itemText_of_next hround hbounds
        exact .cons hline (ih hoff)

/-- What a text appends is appended first with more text behind it. -/
theorem scan_append_items (u : List Char) (text : List Char) :
    ∃ items, (scan (text ++ u)).1 = (scan text).1 ++ items := by
  induction text using scan_induction with
  | stop text ending hround =>
      refine ⟨(scan (text ++ u)).1, ?_⟩
      rw [scan_eq text, hround]
      rfl
  | last text item ending hround =>
      refine ⟨[], ?_⟩
      rw [scan_eq, scan_eq text, scanRound_append (by rw [hround]; nofun), hround]
      rfl
  | next text item rest hround ih =>
      obtain ⟨items, hitems⟩ := ih
      refine ⟨items, ?_⟩
      rw [scan_eq, scan_eq text, scanRound_append (by rw [hround]; nofun), hround]
      exact congrArg (item :: ·) hitems

/-- A stack that ends no number. -/
def zeros : List Char := List.replicate bufferSize '0'

theorem zeros_length : zeros.length = bufferSize := List.length_replicate

theorem zeros_isDigit (n : Nat) : ∀ c ∈ zeros.drop n, c.isDigit = true := by
  intro c hc
  obtain rfl := List.eq_of_mem_replicate (List.mem_of_mem_drop hc)
  decide

theorem not_emptyLine {content : List Char} (h : ¬ EmptyLine content) :
    ∀ c ∈ content.head?, c ≠ '\n' ∧ c ≠ nul := by
  intro c hc
  exact not_or.mp fun hend => h ⟨c, hc, hend⟩

/-- A line that is not empty is none in front of zeros either. -/
theorem not_emptyLine_zeros {content : List Char} (h : ¬ EmptyLine content) (n : Nat) :
    ¬ EmptyLine (content ++ zeros.drop n) := by
  rintro ⟨c, hc, hend⟩
  cases content with
  | nil =>
      have hdigit := zeros_isDigit n c (List.mem_of_mem_head? hc)
      rcases hend with rfl | rfl <;> exact absurd hdigit (by decide)
  | cons d content => exact h ⟨c, hc, hend⟩

/-- An empty line is read without its rest. -/
theorem scanBuffer_emptyLine {content : List Char} (h : EmptyLine content) :
    scanBuffer content = ([], .finish) := by
  obtain ⟨c, hc, hend⟩ := h
  cases content with
  | nil => cases hc
  | cons d content =>
      cases hc
      rw [scanBuffer, if_pos hend]

end Text

section Number

/-- **One number** depends on the file only if the file ends it. -/
theorem readFileLong_sameResult_iff {content : List Char} (hlen : content.length < bufferSize) :
    SameResult (fun stack => readFileLong stack (.bytes content)) ↔ ¬ IsOpenNumeral content := by
  constructor
  · intro h hopen
    obtain ⟨result, hresult, _⟩ := h zeros zeros zeros_length zeros_length
    have hnone := strtol_eq_none.mpr (hopen.append_digits (zeros_isDigit content.length))
    simp only [readFileLong, fillBuffer_eq hlen, hnone] at hresult
    cases hresult
  · intro hopen stack stack' _ _
    cases hn : strtol content with
    | none => exact absurd (strtol_eq_none.mp hn) hopen
    | some n =>
        refine ⟨some n.value, ?_, ?_⟩ <;>
          simp only [readFileLong, fillBuffer_eq hlen, strtol_append hn]

end Number

section List

variable {grant : Nat → Nat → Bool}

theorem outcome_ok_iff {result : Except Halt ListState} {ending : Ending} :
    (∃ r, outcome result ending = .ok r) ↔
      result ≠ .error .undefined ∧ (result = .error .refused ∨ ending ≠ .off) := by
  cases result with
  | error halt => cases halt <;> simp [outcome]
  | ok st => cases ending <;> simp [outcome, Ending.leave]

/-- The result on a text that the scan does not leave, or in which `realloc` refuses. -/
theorem readFileLongList_stack {content : List Char} (hlen : content.length < bufferSize)
    (hline : ¬ EmptyLine content)
    (h : ReallocRefuses grant .start (scan content).1 ∨ ¬ RunsOut content)
    (stack : List Char) :
    readFileLongList grant stack (.bytes content) =
      outcome (appendAll grant noNumbers (scan content).1) (scan content).2 := by
  have hbuffer := scanBuffer_eq_scan (not_emptyLine hline)
  rw [readFileLongList_eq grant stack hlen]
  by_cases hout : RunsOut content
  · have hrefused := (appendAll_iff _ _ noNumbers_tallied).2.mpr (h.resolve_right (not_not_intro hout))
    cases content with
    | nil => cases hrefused
    | cons c text =>
        have hcons : scanBuffer (c :: text ++ stack.drop (c :: text).length) =
            scan (c :: text ++ stack.drop (c :: text).length) :=
          scanBuffer_eq_scan (not_emptyLine hline)
        obtain ⟨items, hitems⟩ := scan_append_items (stack.drop (c :: text).length) (c :: text)
        have hrun : appendAll grant noNumbers ((scan (c :: text)).1 ++ items) = .error .refused :=
          Transition.run_append_error hrefused items
        rw [hcons, hitems, hrun, hrefused]
        rfl
  · have hoff : (scanBuffer content).2 ≠ .off := by
      rw [hbuffer]
      exact fun hoff => hout (runsOut_iff.mpr hoff)
    rw [scanBuffer_append hoff, hbuffer]

/-- **A list** depends on the file only if its line is empty, or if C defines its appends and
the file ends the scan, or `realloc` does. -/
theorem readFileLongList_sameResult_iff {content : List Char}
    (hlen : content.length < bufferSize) :
    SameResult (fun stack => readFileLongList grant stack (.bytes content)) ↔
      EmptyLine content ∨ ¬ LeftUndefined grant .start (scan content).1 ∧
        (ReallocRefuses grant .start (scan content).1 ∨ ¬ RunsOut content) := by
  obtain ⟨hundefined, hrefused⟩ := appendAll_iff grant (scan content).1 noNumbers_tallied
  by_cases hline : EmptyLine content
  · refine iff_of_true (fun stack stack' _ _ => ⟨⟨0, none, 0⟩, ?_⟩) (.inl hline)
    have hbuffer := scanBuffer_emptyLine hline
    have hall : ∀ stack, readFileLongList grant stack (.bytes content) = .ok ⟨0, none, 0⟩ := by
      intro stack
      rw [readFileLongList_eq grant stack hlen, scanBuffer_append (by rw [hbuffer]; nofun), hbuffer]
      rfl
    exact ⟨hall stack, hall stack'⟩
  · rw [or_iff_right hline]
    constructor
    · intro h
      obtain ⟨result, hresult, _⟩ := h zeros zeros zeros_length zeros_length
      have hscan : scanBuffer (content ++ zeros.drop content.length) = scan content := by
        rw [scanBuffer_eq_scan (not_emptyLine (not_emptyLine_zeros hline _))]
        by_cases hoff : (scan content).2 = .off
        · exact scan_append_digits (zeros_isDigit _) content hoff
        · exact scan_append _ content hoff
      simp only [readFileLongList_eq grant zeros hlen, hscan] at hresult
      obtain ⟨hdefined, hstops⟩ := outcome_ok_iff.mp ⟨result, hresult⟩
      exact ⟨mt hundefined.mpr hdefined,
        hstops.imp hrefused.mp (not_iff_not.mpr runsOut_iff).mpr⟩
    · rintro ⟨hdefined, hstops⟩ stack stack' _ _
      obtain ⟨result, hresult⟩ := outcome_ok_iff.mpr
        ⟨mt hundefined.mp hdefined, hstops.imp hrefused.mpr (not_iff_not.mpr runsOut_iff).mp⟩
      exact ⟨result, (readFileLongList_stack hlen hline hstops stack).trans hresult,
        (readFileLongList_stack hlen hline hstops stack').trans hresult⟩

/-- Of an empty file the parser reads what the stack holds. -/
theorem readFileLongList_empty {front : List Char} (h : (scanBuffer front).2 ≠ .off)
    (rest : List Char) :
    readFileLongList grant (front ++ rest) (.bytes []) =
      outcome (appendAll grant noNumbers (scanBuffer front).1) (scanBuffer front).2 := by
  rw [readFileLongList_eq grant _ (by decide), List.nil_append, List.length_nil, List.drop_zero,
    scanBuffer_append h]

end List

end ParseArchitecture
end X86Energy
