import X86Energy.ParseArchitecture.ListGrowth
import X86Energy.ParseArchitecture.Malformed

/-!
# The cpulist format

A cpulist line is a comma-separated list of numbers `n` and ranges `a-b` ended
by a newline.  This file prints such a line, says what it stands for, and
compares that with what `readFileLongList` makes of the printed line.

The loop appends a number when it sees the comma behind it and a range when it
has read the range, so a number at the end of the line is read and not appended:
the line is decoded if and only if it does not end in a single number (and its
numbers fit the `long` arithmetic of the loop).
-/

namespace X86Energy
namespace ParseArchitecture

open CInt CText

/-- One item of a cpulist. -/
inductive CpuItem
  | single (n : Int)
  | range (first last : Nat) (ordered : first ≤ last)

namespace CpuItem

/-- The numbers an item stands for. -/
def expand : CpuItem → List Int
  | single n => [n]
  | range first last _ => (List.range (last - first + 1)).map (fun k : Nat => (first : Int) + k)

/-- An item in the kernel's decimal notation. -/
def print : CpuItem → List Char
  | single n => decimal n
  | range first last _ => decimal first ++ '-' :: decimal last

/-- The numbers of the item can be read, and the loop over a range can pass its
last number. -/
def Fits : CpuItem → Prop
  | single n => IsLong n
  | range _ last _ => (last : Int) < longMax

instance : DecidablePred Fits
  | single n => inferInstanceAs (Decidable (IsLong n))
  | range _ last _ => inferInstanceAs (Decidable ((last : Int) < longMax))

def IsSingle : CpuItem → Prop
  | single _ => True
  | range _ _ _ => False

theorem range_expand_length (first last : Nat) (h : first ≤ last) :
    (range first last h).expand.length = last - first + 1 := by
  simp [expand]

end CpuItem

/-- A cpulist line. -/
def printItems : List CpuItem → List Char
  | [] => ['\n']
  | [item] => item.print ++ ['\n']
  | item :: next :: items => item.print ++ ',' :: printItems (next :: items)

/-- The numbers a cpulist line stands for. -/
def expandItems (items : List CpuItem) : List Int :=
  items.flatMap CpuItem.expand

@[simp] theorem expandItems_nil : expandItems [] = [] := rfl

@[simp] theorem expandItems_cons (item : CpuItem) (items : List CpuItem) :
    expandItems (item :: items) = item.expand ++ expandItems items := by
  simp [expandItems]

/-- The line does not end in a single number. -/
def EndsInRange : List CpuItem → Prop
  | [] => True
  | [item] => ¬ item.IsSingle
  | _ :: next :: items => EndsInRange (next :: items)

/-- `readFileLongList` returns 0 with `*result` and `*length` holding the list,
whatever the stack held before. -/
def Decodes (grant : Nat → Nat → Bool) (content : List Char) (list : List Int) : Prop :=
  ∀ stack : List Char, stack.length = bufferSize →
    ∃ r, readFileLongList grant stack (.bytes content) = .ok r ∧
      r.ret = 0 ∧ r.result.getD [] = list ∧ r.length = list.length

/-- An outcome that no decoded line has. -/
def Refused (r : Except ParseStop ListResult) : Prop :=
  r = .ok .failure ∨ r = .error .undefined

/-- The lines that `readFileLongList` decodes: every number fits and the last
item is not a single number. -/
def Decodable (items : List CpuItem) : Prop :=
  (∀ item ∈ items, item.Fits) ∧ EndsInRange items

theorem decodable_cons_cons {item next : CpuItem} {items : List CpuItem} :
    Decodable (item :: next :: items) ↔ item.Fits ∧ Decodable (next :: items) := by
  unfold Decodable
  rw [List.forall_mem_cons, EndsInRange]
  exact and_assoc

section Items

/-- What the loop appends for an item. -/
def CpuItem.toAppend : CpuItem → Append
  | .single n => .number n
  | .range first last _ => .range first last

/-- The numerals of an item are in the range of `long`. -/
def CpuItem.Readable : CpuItem → Prop
  | .single n => IsLong n
  | .range _ last _ => IsLong last

theorem isLong_of_le {first last : Nat} (ordered : first ≤ last) (h : IsLong (last : Int)) :
    IsLong (first : Int) := by
  unfold IsLong longMin longMax at *
  omega

theorem CpuItem.Fits.readable {item : CpuItem} (h : item.Fits) : item.Readable := by
  cases item with
  | single n => exact h
  | range first last ordered =>
      change (last : Int) < longMax at h
      change IsLong last
      unfold IsLong longMin longMax at *
      omega

/-- A number out of the range of `long` sets `errno`. -/
theorem strtol_refused {n : Int} (hn : ¬ IsLong n) {c : Char} (hc : c.isDigit = false)
    (rest : List Char) :
    ∃ m, strtol (decimal n ++ c :: rest) = some m ∧ (¬ m.converted ∨ m.erange) :=
  ⟨_, strtol_decimal n hc rest, .inr (clip_of_not_isLong hn _)⟩

theorem scanRound_range_print {first last : Nat} {ordered : first ≤ last}
    (h : (CpuItem.range first last ordered).Readable) {c : Char} (hc : c.isDigit = false)
    (rest : List Char) :
    scanRound ((CpuItem.range first last ordered).print ++ c :: rest) =
      scanAfterRange (.range first last) (c :: rest) :=
  scanRound_range (isNumeral_decimal first) (isLong_of_le ordered h) (isNumeral_decimal last) h hc
    rest

/-- The round on an item with a comma behind it. -/
theorem scanRound_print_comma {item : CpuItem} (h : item.Readable) (rest : List Char) :
    scanRound (item.print ++ ',' :: rest) = .next item.toAppend rest := by
  cases item with
  | single n =>
      exact (ScanCases.number _ rest
        (strtol_of_isLong (isNumeral_decimal n) h (by decide) rest) (by simp) rfl).eq
  | range first last ordered =>
      rw [scanRound_range_print h (by decide)]
      rfl

/-- The number before the end of the line is dropped. -/
theorem scanRound_single_end {n : Int} (hn : IsLong n) (rest : List Char) :
    scanRound (decimal n ++ '\n' :: rest) = .stop .finish :=
  (ScanCases.finish _ '\n' rest (strtol_of_isLong (isNumeral_decimal n) hn (by decide) rest)
    (by simp) rfl (.inl rfl)).eq

/-- An item that cannot be read, wherever it stands in the line. -/
theorem scanRound_refused {item : CpuItem} (h : ¬ item.Readable) {c : Char}
    (hc : c.isDigit = false) (rest : List Char) :
    scanRound (item.print ++ c :: rest) = .stop .refuse := by
  cases item with
  | single n =>
      obtain ⟨m, hm, hbad⟩ := strtol_refused h hc rest
      exact (ScanCases.bad m hm hbad).eq
  | range first last ordered =>
      change scanRound (decimal first ++ '-' :: decimal last ++ c :: rest) = _
      rw [List.append_assoc, List.cons_append]
      by_cases hfirst : IsLong first
      · obtain ⟨m, hm, hbad⟩ := strtol_refused h hc rest
        exact (ScanCases.badRange _ m _ (strtol_of_isLong (isNumeral_decimal first) hfirst
          (by decide) _) (by simp) rfl hm hbad).eq
      · obtain ⟨m, hm, hbad⟩ := strtol_refused hfirst (show '-'.isDigit = false by decide)
          (decimal last ++ c :: rest)
        exact (ScanCases.bad m hm hbad).eq

end Items

section Appending

variable {grant : Nat → Nat → Bool} (hgrant : ∀ call bytes, grant call bytes = true)
  {st : ListState}

/-- The array with the numbers of an item behind it. -/
def ListState.add (st : ListState) (item : CpuItem) : ListState :=
  ⟨some (st.result.getD [] ++ item.expand), st.length + item.expand.length, st.calls + 1⟩

theorem ListState.Counted.add (hst : st.Counted) {item : CpuItem}
    (hmax : st.length + item.expand.length ≤ intMax) : (st.add item).Counted := by
  refine ⟨?_, hmax⟩
  unfold ListState.collected ListState.add
  rw [Option.getD_some, List.length_append, hst.1]
  rfl

include hgrant

/-- An item that can be read is appended, if the loop can pass its last number. -/
theorem appendStep_toAppend (hst : st.Counted) {item : CpuItem} (hitem : item.Readable)
    (hmax : st.length + item.expand.length ≤ intMax) :
    (item.Fits → appendStep grant st item.toAppend = .ok (st.add item)) ∧
      (¬ item.Fits → appendStep grant st item.toAppend = .error .undefined) := by
  cases item with
  | single n =>
      obtain ⟨tmp, htmp⟩ := reallocLongs_of_grant
        (show 8 * (st.collected + 1) ≠ 0 by omega) (hgrant _ _)
      refine ⟨fun _ => appendStep_number hst ?_ htmp, fun hnot => absurd hitem hnot⟩
      change st.length + 1 ≤ intMax at hmax
      omega
  | range first last ordered =>
      have hcount : ((last : Int) - first + 1).toNat = last - first + 1 := by omega
      have hexpand : st.length + (last - first + 1 : Nat) ≤ intMax := by
        rwa [CpuItem.range_expand_length] at hmax
      have hsize : st.length + ((last : Int) - first + 1) < 2305843009213693952 := by
        unfold intMax at hexpand
        omega
      obtain ⟨tmp, htmp⟩ := reallocLongs_of_grant
        (show 8 * (st.collected + ((last : Int) - first + 1).toNat) ≠ 0 by omega) (hgrant _ _)
      have hstep := appendStep_range hst (by omega) hsize htmp
      have hfits : ¬ ((first : Int) ≤ last ∧ (last : Int) = longMax) ↔ (last : Int) < longMax := by
        have hle := hitem.2
        omega
      constructor
      · intro hlast
        have hint : IsInt32 (st.length + ((last : Int) - first + 1)) := by
          have hnonneg := hst.1
          unfold IsInt32 intMin intMax
          unfold intMax at hexpand
          omega
        have hlength : st.length + ((last : Int) - first + 1) =
            st.length + (CpuItem.range first last ordered).expand.length := by
          rw [CpuItem.range_expand_length]
          omega
        rw [CpuItem.toAppend, hstep, if_neg (hfits.mpr hlast), toInt32_of_isInt32 hint, hcount,
          hlength]
        rfl
      · intro hlast
        exact hstep.trans (if_pos (by_contra fun h => hlast (hfits.mp h)))

end Appending

section Lines

variable {grant : Nat → Nat → Bool}

/-- A range at the end of the line. -/
theorem readFrom_range_end (st : ListState) {first last : Nat} {ordered : first ≤ last}
    (h : (CpuItem.range first last ordered).Readable) (rest : List Char) :
    readFrom grant st ((CpuItem.range first last ordered).print ++ '\n' :: rest) =
      outcome (appendStep grant st (CpuItem.range first last ordered).toAppend) .finish := by
  rw [readFrom_eq, scanRound_range_print h (by decide)]
  rfl

/-- An item with a comma behind it. -/
theorem readFrom_comma {st st' : ListState} {item : CpuItem} (h : item.Readable)
    (hstep : appendStep grant st item.toAppend = .ok st') (rest : List Char) :
    readFrom grant st (item.print ++ ',' :: rest) = readFrom grant st' rest := by
  rw [readFrom_eq, scanRound_print_comma h]
  simp only [hstep]

/-- An item that does not fit, wherever it stands in the line. -/
theorem readFrom_refused (hgrant : ∀ call bytes, grant call bytes = true) {st : ListState}
    (hst : st.Counted) {item : CpuItem} (hitem : ¬ item.Fits)
    (hmax : st.length + item.expand.length ≤ intMax) {c : Char} (hc : c = ',' ∨ c = '\n')
    (rest : List Char) : Refused (readFrom grant st (item.print ++ c :: rest)) := by
  by_cases hread : item.Readable
  · have hstep := (appendStep_toAppend hgrant hst hread hmax).2 hitem
    right
    rcases hc with rfl | rfl
    · rw [readFrom_eq, scanRound_print_comma hread]
      simp only [hstep]
    · cases item with
      | single n => exact absurd hread hitem
      | range first last ordered =>
          rw [readFrom_range_end st hread, hstep]
          rfl
  · have hdigit : c.isDigit = false := by
      rcases hc with rfl | rfl <;> decide
    rw [readFrom_eq, scanRound_refused hread hdigit]
    exact .inl rfl

/-- What the loop makes of a line, by induction on its items: the list grows by
one item a round until the line ends or an item is refused. -/
theorem readFrom_line (hgrant : ∀ call bytes, grant call bytes = true) (rest : List Char) :
    ∀ (items : List CpuItem) (st : ListState), items ≠ [] → st.Counted →
      st.length + (expandItems items).length ≤ intMax →
      (Decodable items →
        readFrom grant st (printItems items ++ rest) =
          .ok ⟨0, some (st.result.getD [] ++ expandItems items),
            st.length + (expandItems items).length⟩) ∧
      (¬ Decodable items →
        Refused (readFrom grant st (printItems items ++ rest)) ∨
        ∃ list length, readFrom grant st (printItems items ++ rest) = .ok ⟨0, list, length⟩ ∧
          length < st.length + (expandItems items).length)
  | [], _, hne, _, _ => absurd rfl hne
  | [item], st, _, hst, hmax => by
      have htext : printItems [item] ++ rest = item.print ++ '\n' :: rest := by
        simp [printItems]
      rw [htext]
      simp only [expandItems_cons, expandItems_nil, List.append_nil] at hmax ⊢
      by_cases hfits : item.Fits
      · cases item with
        | single n =>
            refine ⟨fun h => absurd trivial h.2, fun _ => .inr ⟨st.result, st.length, ?_, ?_⟩⟩
            · change readFrom grant st (decimal n ++ '\n' :: rest) = _
              rw [readFrom_eq, scanRound_single_end hfits]
              rfl
            · change st.length < st.length + 1
              omega
        | range first last ordered =>
            have hread := hfits.readable
            have hstep := (appendStep_toAppend hgrant hst hread hmax).1 hfits
            refine ⟨fun _ => ?_, fun hnot => absurd ⟨?_, fun hs => hs⟩ hnot⟩
            · rw [readFrom_range_end st hread, hstep]
              rfl
            · simpa using hfits
      · refine ⟨fun h => absurd (h.1 item (by simp)) hfits, fun _ => .inl ?_⟩
        exact readFrom_refused hgrant hst hfits hmax (.inr rfl) rest
  | item :: next :: items, st, _, hst, hmax => by
      have htext : printItems (item :: next :: items) ++ rest =
          item.print ++ ',' :: (printItems (next :: items) ++ rest) := by
        simp [printItems]
      have hsplit : expandItems (item :: next :: items) =
          item.expand ++ expandItems (next :: items) := expandItems_cons _ _
      rw [hsplit, List.length_append, Nat.cast_add, ← Int.add_assoc] at hmax ⊢
      have hitem : st.length + item.expand.length ≤ intMax := by omega
      rw [htext, decodable_cons_cons]
      by_cases hfits : item.Fits
      · have hread := hfits.readable
        have hstep := (appendStep_toAppend hgrant hst hread hitem).1 hfits
        have ih := readFrom_line hgrant rest (next :: items) (st.add item) (by simp)
          (hst.add hitem) hmax
        rw [readFrom_comma hread hstep, ← List.append_assoc]
        exact ⟨fun h => ih.1 h.2, fun h => ih.2 fun h' => h ⟨hfits, h'⟩⟩
      · refine ⟨fun h => absurd h.1 hfits, fun _ => .inl ?_⟩
        exact readFrom_refused hgrant hst hfits hitem (.inl rfl) _

end Lines

theorem printItems_eq_cons (items : List CpuItem) (h : items ≠ []) :
    ∃ c text, printItems items = c :: text ∧ c ≠ '\n' ∧ c ≠ nul := by
  have hhead : ∀ (x : Int), ∃ c s, decimal x = c :: s ∧ c ≠ '\n' ∧ c ≠ nul := by
    intro x
    obtain ⟨c, s, hx, hc⟩ := decimal_eq_cons x
    refine ⟨c, s, hx, ?_, ?_⟩
    · rintro rfl
      rcases hc with h | h <;> exact absurd h (by decide)
    · rintro rfl
      rcases hc with h | h <;> exact absurd h (by decide)
  have hprint : ∀ item : CpuItem, ∃ c s, item.print = c :: s ∧ c ≠ '\n' ∧ c ≠ nul := by
    intro item
    cases item with
    | single n => exact hhead n
    | range first last _ =>
        obtain ⟨c, s, hx, hc⟩ := hhead first
        exact ⟨c, s ++ '-' :: decimal last, by simp [CpuItem.print, hx], hc⟩
  match items, h with
  | [item], _ =>
      obtain ⟨c, s, hx, hc⟩ := hprint item
      exact ⟨c, s ++ ['\n'], by simp [printItems, hx], hc⟩
  | item :: next :: items, _ =>
      obtain ⟨c, s, hx, hc⟩ := hprint item
      exact ⟨c, s ++ ',' :: printItems (next :: items), by simp [printItems, hx], hc⟩

/-- A file that fits the buffer is parsed from its own text on. -/
theorem readFileLongList_line (grant : Nat → Nat → Bool) {items : List CpuItem}
    (hne : items ≠ []) (hlen : (printItems items).length < bufferSize) (stack : List Char) :
    readFileLongList grant stack (.bytes (printItems items)) =
      readFrom grant noNumbers (printItems items ++ stack.drop (printItems items).length) := by
  obtain ⟨c, text, htext, hend⟩ := printItems_eq_cons items hne
  rw [readFileLongList_eq grant stack hlen, scanBuffer_eq_scan]
  · rfl
  · rw [htext]
    rintro d ⟨rfl⟩
    exact hend

/-- **`readFileLongList` decodes a cpulist line exactly when the line does not
end in a single number** (and its numbers fit). -/
theorem decodes_iff_decodable {grant : Nat → Nat → Bool}
    (hgrant : ∀ call bytes, grant call bytes = true) (items : List CpuItem)
    (hlen : (printItems items).length < bufferSize)
    (hmax : ((expandItems items).length : Int) ≤ intMax) :
    Decodes grant (printItems items) (expandItems items) ↔ Decodable items := by
  cases items with
  | nil =>
      have hempty : Decodes grant (printItems []) (expandItems []) :=
        fun stack _ => ⟨⟨0, none, 0⟩, rfl, rfl, rfl, rfl⟩
      exact iff_of_true hempty ⟨by simp, trivial⟩
  | cons item items =>
      have hline := fun stack : List Char =>
        readFrom_line hgrant (stack.drop (printItems (item :: items)).length) (item :: items)
          noNumbers (by simp) noNumbers_counted (by simpa [noNumbers] using hmax)
      have htext := readFileLongList_line grant (List.cons_ne_nil item items) hlen
      constructor
      · intro hdecodes
        by_contra hnot
        obtain ⟨r, hr, hret, hlist, hlength⟩ :=
          hdecodes (List.replicate bufferSize nul) (by simp)
        rw [htext] at hr
        rcases (hline _).2 hnot with hrefused | ⟨list, length, hok, hshort⟩
        · rcases hrefused with h | h
          · rw [h] at hr
            cases hr
            cases hret
          · rw [h] at hr
            cases hr
        · rw [hok] at hr
          cases hr
          simp only [noNumbers] at hlength hshort
          omega
      · intro hdecodable stack _
        refine ⟨_, by rw [htext]; exact (hline stack).1 hdecodable, rfl, ?_, ?_⟩
        · simp [noNumbers]
        · simp [noNumbers]

/-- The line `0-3,8-9` is decoded. -/
theorem decodes_0_3_8_9 :
    Decodes (fun _ _ => true) (printItems [.range 0 3 (by decide), .range 8 9 (by decide)])
      [0, 1, 2, 3, 8, 9] :=
  (decodes_iff_decodable (fun _ _ => rfl) [.range 0 3 (by decide), .range 8 9 (by decide)]
    (by decide) (by decide)).mpr
    ⟨by
      intro item hitem
      simp only [List.mem_cons, List.not_mem_nil, or_false] at hitem
      rcases hitem with rfl | rfl <;> decide +revert, fun h => h⟩

/-- The line `0-3,8` stands for five numbers; only the first four are read. -/
theorem not_decodes_0_3_8 :
    printItems [.range 0 3 (by decide), .single 8] = ['0', '-', '3', ',', '8', '\n'] ∧
    expandItems [.range 0 3 (by decide), .single 8] = [0, 1, 2, 3, 8] ∧
      (∀ stack : List Char,
      readFileLongList (fun _ _ => true) stack
        (.bytes (printItems [.range 0 3 (by decide), .single 8])) =
          .ok ⟨0, some [0, 1, 2, 3], 4⟩) ∧
    ¬ Decodes (fun _ _ => true) (printItems [.range 0 3 (by decide), .single 8])
      (expandItems [.range 0 3 (by decide), .single 8]) := by
  have hread : ∀ stack : List Char,
      readFileLongList (fun _ _ => true) stack
        (.bytes (printItems [.range 0 3 (by decide), .single 8])) =
          .ok ⟨0, some [0, 1, 2, 3], 4⟩ := by
    intro stack
    have htext : printItems [CpuItem.range 0 3 (by decide), .single 8] =
        ['0', '-', '3', ',', '8', '\n'] := by decide
    rw [htext, readFileLongList_eq _ stack (by decide), scanBuffer_append (by decide)]
    rfl
  refine ⟨by decide, by decide, hread, ?_⟩
  intro hdecodes
  obtain ⟨r, hr, _, _, hlength⟩ := hdecodes (List.replicate bufferSize nul) (by simp)
  rw [hread] at hr
  cases hr
  exact absurd hlength (by decide)

end ParseArchitecture
end X86Energy
