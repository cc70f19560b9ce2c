import X86Energy.Library.Transition
import X86Energy.ParseArchitecture.ReadFile

/-!
# The items of a list file

The loop of `read_file_long_list` does two things at once: it reads the next item, and it
appends what it has read.  This file takes them apart.  `scan` is what is read, which depends
on the text alone: the items that are appended one after the other, and the exit behind them.
`appendStep` is one append, which depends on the array and on `realloc`.

`readItems_eq` puts them together again: the loop appends the scanned items and leaves
through the scanned exit.  `readFileLongList_eq` says the same of a whole file.
-/

namespace X86Energy
namespace ParseArchitecture

open CInt CText

/-- What one round appends. -/
inductive Append
  | number (n : Int)
  | range (first last : Int)
deriving DecidableEq

/-- The exits of the loop: past the end of the text, with the code 1, or with the code 0. -/
inductive Ending
  | off
  | refuse
  | finish
deriving DecidableEq

/-- What one round reads. -/
inductive Scan
  | stop (ending : Ending)
  | last (item : Append) (ending : Ending)
  | next (item : Append) (rest : List Char)

/-- The character behind a range. -/
def scanAfterRange (item : Append) : List Char → Scan
  | [] => .last item .off
  | d :: rest =>
      if d = '\n' ∨ d = nul then .last item .finish
      else if d = ',' then .next item rest
      else .last item .refuse

/-- The reading part of one round.  A number at the end of the line is not appended. -/
def scanRound (text : List Char) : Scan :=
  match strtol text with
  | none => .stop .off
  | some readCpu =>
      if ¬ readCpu.converted ∨ readCpu.erange then .stop .refuse
      else
        match readCpu.rest with
        | [] => .stop .off
        | c :: next =>
            if c = ',' then .next (.number readCpu.value) next
            else if c = '\n' ∨ c = nul then .stop .finish
            else if c = '-' then
              match strtol next with
              | none => .stop .off
              | some endCpu =>
                  if ¬ endCpu.converted ∨ endCpu.erange then .stop .refuse
                  else scanAfterRange (.range readCpu.value endCpu.value) endCpu.rest
            else .stop .refuse

/-- All rounds: the items, and the exit behind them. -/
def scanItems : Nat → List Char → List Append × Ending
  | 0, _ => ([], .off)
  | fuel + 1, text =>
      match scanRound text with
      | .stop ending => ([], ending)
      | .last item ending => ([item], ending)
      | .next item rest => (item :: (scanItems fuel rest).1, (scanItems fuel rest).2)

def scan (text : List Char) : List Append × Ending := scanItems (text.length + 1) text

section Text

theorem strtol_rest_length {text : List Char} {n : Strtol} (h : strtol text = some n) :
    n.rest.length ≤ text.length := by
  rcases strtol_eq_some h with ⟨rfl, _⟩ | ⟨numeral, value, c, rest, rfl, _, _, rfl⟩
  · exact Nat.le_refl _
  · rw [clip_rest, List.length_append]
    omega

theorem strtol_rest_ne_nil {text : List Char} {n : Strtol} (h : strtol text = some n) :
    n.rest ≠ [] := by
  rcases strtol_eq_some h with ⟨rfl, hne⟩ | ⟨numeral, value, c, rest, rfl, _, _, rfl⟩
  · exact hne
  · rw [clip_rest]
    exact List.cons_ne_nil c rest

/-- **The ways a round can read.** -/
inductive ScanCases (text : List Char) : Scan → Prop
  | off (h : IsOpenNumeral text) : ScanCases text (.stop .off)
  | bad (n : Strtol) (h : strtol text = some n) (hbad : ¬ n.converted ∨ n.erange) :
      ScanCases text (.stop .refuse)
  | finish (n : Strtol) (c : Char) (rest : List Char) (h : strtol text = some n)
      (hgood : ¬ (¬ n.converted ∨ n.erange)) (hrest : n.rest = c :: rest)
      (hc : c = '\n' ∨ c = nul) : ScanCases text (.stop .finish)
  | stray (n : Strtol) (c : Char) (rest : List Char) (h : strtol text = some n)
      (hgood : ¬ (¬ n.converted ∨ n.erange)) (hrest : n.rest = c :: rest)
      (hc : c ≠ ',' ∧ c ≠ '\n' ∧ c ≠ nul ∧ c ≠ '-') : ScanCases text (.stop .refuse)
  | number (n : Strtol) (rest : List Char) (h : strtol text = some n)
      (hgood : ¬ (¬ n.converted ∨ n.erange)) (hrest : n.rest = ',' :: rest) :
      ScanCases text (.next (.number n.value) rest)
  | openRange (n : Strtol) (rest : List Char) (h : strtol text = some n)
      (hgood : ¬ (¬ n.converted ∨ n.erange)) (hrest : n.rest = '-' :: rest)
      (hopen : IsOpenNumeral rest) : ScanCases text (.stop .off)
  | badRange (n m : Strtol) (rest : List Char) (h : strtol text = some n)
      (hgood : ¬ (¬ n.converted ∨ n.erange)) (hrest : n.rest = '-' :: rest)
      (hm : strtol rest = some m) (hbad : ¬ m.converted ∨ m.erange) :
      ScanCases text (.stop .refuse)
  | range (n m : Strtol) (rest : List Char) (d : Char) (rest' : List Char)
      (h : strtol text = some n) (hgood : ¬ (¬ n.converted ∨ n.erange))
      (hrest : n.rest = '-' :: rest) (hm : strtol rest = some m)
      (hgood' : ¬ (¬ m.converted ∨ m.erange)) (hrest' : m.rest = d :: rest') :
      ScanCases text (scanAfterRange (.range n.value m.value) (d :: rest'))

theorem scanRound_cases (text : List Char) : ScanCases text (scanRound text) := by
  unfold scanRound
  split
  · rename_i h
    exact .off (strtol_eq_none.mp h)
  · rename_i n h
    split
    · rename_i hbad
      exact .bad n h hbad
    · rename_i hgood
      split
      · rename_i hrest
        exact absurd hrest (strtol_rest_ne_nil h)
      · rename_i c next hrest
        split
        · rename_i hc
          subst hc
          exact .number n next h hgood hrest
        · rename_i hcomma
          split
          · rename_i hc
            exact .finish n c next h hgood hrest hc
          · rename_i hend
            rw [not_or] at hend
            split
            · rename_i hc
              subst hc
              split
              · rename_i hm
                exact .openRange n next h hgood hrest (strtol_eq_none.mp hm)
              · rename_i m hm
                split
                · rename_i hbad
                  exact .badRange n m next h hgood hrest hm hbad
                · rename_i hgood'
                  cases hrest' : m.rest with
                  | nil => exact absurd hrest' (strtol_rest_ne_nil hm)
                  | cons d rest' => exact .range n m next d rest' h hgood hrest hm hgood' hrest'
            · rename_i hdash
              exact .stray n c next h hgood hrest ⟨hcomma, hend.1, hend.2, hdash⟩

theorem ScanCases.eq {text : List Char} {s : Scan} (h : ScanCases text s) :
    scanRound text = s := by
  unfold scanRound
  cases h with
  | off h => rw [strtol_eq_none.mpr h]
  | bad n h hbad => simp only [h, if_pos hbad]
  | finish n c rest h hgood hrest hc =>
      have hcomma : c ≠ ',' := by
        rintro rfl
        exact absurd hc (by decide)
      simp only [h, if_neg hgood, hrest, if_neg hcomma, if_pos hc]
  | stray n c rest h hgood hrest hc =>
      simp only [h, if_neg hgood, hrest, if_neg hc.1,
        if_neg (not_or.mpr ⟨hc.2.1, hc.2.2.1⟩), if_neg hc.2.2.2]
  | number n rest h hgood hrest => simp only [h, if_neg hgood, hrest, if_true]
  | openRange n rest h hgood hrest hopen =>
      simp only [h, if_neg hgood, hrest, strtol_eq_none.mpr hopen]
      rfl
  | badRange n m rest h hgood hrest hm hbad =>
      simp only [h, if_neg hgood, hrest, hm, if_pos hbad]
      rfl
  | range n m rest d rest' h hgood hrest hm hgood' hrest' =>
      simp only [h, if_neg hgood, hrest, hm, if_neg hgood', hrest']
      rfl

/-- The same round in front of more text. -/
def Scan.append (u : List Char) : Scan → Scan
  | .next item rest => .next item (rest ++ u)
  | s => s

theorem scanAfterRange_cases (item : Append) (d : Char) (rest : List Char) :
    (scanAfterRange item (d :: rest) = .last item .finish ∧ (d = '\n' ∨ d = nul)) ∨
      (scanAfterRange item (d :: rest) = .next item rest ∧ d = ',') ∨
      (scanAfterRange item (d :: rest) = .last item .refuse ∧ d ≠ '\n' ∧ d ≠ nul ∧ d ≠ ',') := by
  rw [scanAfterRange]
  split
  · rename_i hd
    exact .inl ⟨rfl, hd⟩
  · rename_i hend
    rw [not_or] at hend
    split
    · rename_i hd
      exact .inr (.inl ⟨rfl, hd⟩)
    · rename_i hcomma
      exact .inr (.inr ⟨rfl, hend.1, hend.2, hcomma⟩)

theorem scanAfterRange_append (item : Append) (d : Char) (rest u : List Char) :
    scanAfterRange item (d :: (rest ++ u)) = (scanAfterRange item (d :: rest)).append u := by
  rw [scanAfterRange, scanAfterRange]
  split
  · rfl
  · split <;> rfl

/-- **A round that ends inside the text** reads the same when more text follows. -/
theorem scanRound_append {text : List Char} (h : scanRound text ≠ .stop .off) (u : List Char) :
    scanRound (text ++ u) = (scanRound text).append u := by
  have hcases := scanRound_cases text
  generalize hs : scanRound text = s at hcases h
  cases hcases with
  | off _ => exact absurd rfl h
  | openRange _ _ _ _ _ _ => exact absurd rfl h
  | bad n hn hbad => exact (ScanCases.bad _ (strtol_append hn u) hbad).eq
  | finish n c rest hn hgood hrest hc =>
      exact (ScanCases.finish _ c (rest ++ u) (strtol_append hn u) hgood (by rw [hrest]; rfl) hc).eq
  | stray n c rest hn hgood hrest hc =>
      exact (ScanCases.stray _ c (rest ++ u) (strtol_append hn u) hgood (by rw [hrest]; rfl) hc).eq
  | number n rest hn hgood hrest =>
      exact (ScanCases.number _ (rest ++ u) (strtol_append hn u) hgood (by rw [hrest]; rfl)).eq
  | badRange n m rest hn hgood hrest hm hbad =>
      exact (ScanCases.badRange _ _ (rest ++ u) (strtol_append hn u) hgood (by rw [hrest]; rfl)
        (strtol_append hm u) hbad).eq
  | range n m rest d rest' hn hgood hrest hm hgood' hrest' =>
      have hround := (ScanCases.range _ _ (rest ++ u) d (rest' ++ u) (strtol_append hn u) hgood
        (by rw [hrest]; rfl) (strtol_append hm u) hgood' (by rw [hrest']; rfl)).eq
      rw [hround]
      exact scanAfterRange_append _ _ _ _

/-- Digits behind a round that runs off the text do not end it. -/
theorem scanRound_append_digits {text : List Char} (h : scanRound text = .stop .off)
    {digits : List Char} (hdigits : ∀ c ∈ digits, c.isDigit = true) :
    scanRound (text ++ digits) = .stop .off := by
  have hcases := scanRound_cases text
  generalize hs : scanRound text = s at hcases h
  cases hcases with
  | off hopen => exact (ScanCases.off (hopen.append_digits hdigits)).eq
  | openRange n rest hn hgood hrest hopen =>
      exact (ScanCases.openRange _ (rest ++ digits) (strtol_append hn digits) hgood
        (by rw [hrest]; rfl) (hopen.append_digits hdigits)).eq
  | range n m rest d rest' hn hgood hrest hm hgood' hrest' =>
      rcases scanAfterRange_cases (.range n.value m.value) d rest' with ⟨heq, _⟩ | ⟨heq, _⟩ |
        ⟨heq, _⟩ <;> rw [heq] at h <;> cases h
  | _ => cases h

/-- A round consumes text. -/
theorem scanRound_next_length {text rest : List Char} {item : Append}
    (h : scanRound text = .next item rest) : rest.length < text.length := by
  have hcases := scanRound_cases text
  generalize hs : scanRound text = s at hcases h
  cases hcases with
  | number n rest' hn hgood hrest =>
      cases h
      have hle := strtol_rest_length hn
      rw [hrest, List.length_cons] at hle
      exact hle
  | range n m rest₁ d rest₂ hn hgood hrest hm hgood' hrest' =>
      have hsame : rest₂ = rest := by
        rcases scanAfterRange_cases (.range n.value m.value) d rest₂ with ⟨heq, _⟩ | ⟨heq, _⟩ |
          ⟨heq, _⟩ <;> rw [heq] at h <;> cases h
        rfl
      subst hsame
      have hle := strtol_rest_length hn
      have hle' := strtol_rest_length hm
      rw [hrest, List.length_cons] at hle
      rw [hrest', List.length_cons] at hle'
      omega
  | _ => cases h

/-- There is always enough fuel. -/
theorem scanItems_eq_scan : ∀ (fuel : Nat) (text : List Char), text.length < fuel →
    scanItems fuel text = scan text := by
  have hfuel : ∀ (n m : Nat) (text : List Char), text.length < n → text.length < m →
      scanItems n text = scanItems m text := by
    intro n
    induction n with
    | zero => exact fun _ _ h _ => absurd h (Nat.not_lt_zero _)
    | succ n ih =>
        intro m text hn hm
        obtain ⟨m, rfl⟩ : ∃ k, m = k + 1 := ⟨m - 1, by omega⟩
        rw [scanItems, scanItems]
        cases hround : scanRound text with
        | stop ending => rfl
        | last item ending => rfl
        | next item rest =>
            have hlt := scanRound_next_length hround
            simp only [ih m rest (by omega) (by omega)]
  exact fun fuel text h => hfuel fuel _ text h (Nat.lt_succ_self _)

theorem scan_eq (text : List Char) :
    scan text = match scanRound text with
      | .stop ending => ([], ending)
      | .last item ending => ([item], ending)
      | .next item rest => (item :: (scan rest).1, (scan rest).2) := by
  rw [scan, scanItems]
  cases hround : scanRound text with
  | stop ending => rfl
  | last item ending => rfl
  | next item rest => simp only [scanItems_eq_scan _ _ (scanRound_next_length hround)]

/-- **Induction on the rounds of a text.** -/
theorem scan_induction {P : List Char → Prop}
    (stop : ∀ text ending, scanRound text = .stop ending → P text)
    (last : ∀ text item ending, scanRound text = .last item ending → P text)
    (next : ∀ text item rest, scanRound text = .next item rest → P rest → P text) :
    ∀ text, P text := by
  intro text
  induction hn : text.length using Nat.strong_induction_on generalizing text with
  | _ n ih =>
      subst hn
      cases hround : scanRound text with
      | stop ending => exact stop text ending hround
      | last item ending => exact last text item ending hround
      | next item rest =>
          exact next text item rest hround (ih _ (scanRound_next_length hround) rest rfl)

/-- **What follows an exit plays no role.** -/
theorem scan_append (u : List Char) (text : List Char) :
    (scan text).2 ≠ .off → scan (text ++ u) = scan text := by
  induction text using scan_induction with
  | stop text ending hround =>
      intro h
      rw [scan_eq, hround] at h
      rw [scan_eq, scan_eq text, scanRound_append (by rw [hround]; rintro ⟨⟩; exact h rfl), hround]
      rfl
  | last text item ending hround =>
      intro _
      rw [scan_eq, scan_eq text, scanRound_append (by rw [hround]; nofun), hround]
      rfl
  | next text item rest hround ih =>
      intro h
      rw [scan_eq, hround] at h
      rw [scan_eq, scan_eq text, scanRound_append (by rw [hround]; nofun), hround]
      simp only [Scan.append, ih h]

/-- **A text without an exit** has none either with digits behind it. -/
theorem scan_append_digits {digits : List Char} (hdigits : ∀ c ∈ digits, c.isDigit = true)
    (text : List Char) : (scan text).2 = .off → scan (text ++ digits) = scan text := by
  induction text using scan_induction with
  | stop text ending hround =>
      intro h
      rw [scan_eq, hround] at h
      cases h
      rw [scan_eq, scan_eq text, scanRound_append_digits hround hdigits, hround]
  | last text item ending hround =>
      intro _
      rw [scan_eq, scan_eq text, scanRound_append (by rw [hround]; nofun), hround]
      rfl
  | next text item rest hround ih =>
      intro h
      rw [scan_eq, hround] at h
      rw [scan_eq, scan_eq text, scanRound_append (by rw [hround]; nofun), hround]
      simp only [Scan.append, ih h]

end Text

/-- Why an append does not go on: `realloc` refuses, or C leaves it undefined. -/
inductive Halt
  | refused
  | undefined
deriving DecidableEq

/-- What the loop returns when it leaves with an array. -/
def Ending.leave (st : ListState) : Ending → Except ParseStop ListResult
  | .off => .error .undefined
  | .refuse => .ok .failure
  | .finish => .ok ⟨0, st.result, st.length⟩

/-- What the loop returns after its appends. -/
def outcome : Except Halt ListState → Ending → Except ParseStop ListResult
  | .error .undefined, _ => .error .undefined
  | .error .refused, _ => .ok .failure
  | .ok st, ending => ending.leave st

section Appends

variable (grant : Nat → Nat → Bool)

/-- The appending part of one round. -/
def appendItem (st : ListState) : Append → Except ParseStop (Option ListState)
  | .number n => appendNumber grant st n
  | .range first last => appendRange grant st first last

/-- One append as a step. -/
def appendStep (st : ListState) (item : Append) : Except Halt ListState :=
  match appendItem grant st item with
  | .error _ => .error .undefined
  | .ok none => .error .refused
  | .ok (some st') => .ok st'

/-- Every append of a text. -/
def appendAll (st : ListState) (items : List Append) : Except Halt ListState :=
  Transition.run (appendStep grant) st items

variable {grant}

theorem storeLong_error {tmp : List Int} {index value : Int} {e : ParseStop}
    (h : storeLong tmp index value = .error e) : e = .undefined := by
  unfold storeLong at h
  split at h <;> cases h
  rfl

theorem storeRange_error {n : Nat} {index value : Int} {tmp : List Int} {e : ParseStop}
    (h : storeRange n index value tmp = .error e) : e = .undefined := by
  induction n generalizing index value tmp with
  | zero => cases h
  | succ n ih =>
      rw [storeRange] at h
      split at h
      · exact ih h
      · rename_i hstore
        cases h
        exact storeLong_error hstore

theorem reallocLongs_error {st : ListState} {bytes : Nat} {e : ParseStop}
    (h : reallocLongs grant st bytes = .error e) : e = .undefined := by
  unfold reallocLongs at h
  split at h
  · cases h
    rfl
  · split at h <;> cases h

theorem appendItem_error {st : ListState} {item : Append} {e : ParseStop}
    (h : appendItem grant st item = .error e) : e = .undefined := by
  cases item with
  | number n =>
      change appendNumber grant st n = _ at h
      unfold appendNumber at h
      split at h
      · cases h
        rfl
      · split at h
        · rename_i hrealloc
          cases h
          exact reallocLongs_error hrealloc
        · cases h
        · split at h
          · rename_i hstore
            cases h
            exact storeLong_error hstore
          · cases h
  | range first last =>
      change appendRange grant st first last = _ at h
      unfold appendRange at h
      split at h
      · cases h
        rfl
      · split at h
        · rename_i hrealloc
          cases h
          exact reallocLongs_error hrealloc
        · cases h
        · split at h
          · rename_i hstore
            cases h
            exact storeRange_error hstore
          · split at h <;> cases h
            rfl

/-- What the loop makes of an append, and of what it does then. -/
theorem match_appendItem (st : ListState) (item : Append)
    (k : ListState → Except ParseStop ListResult) :
    (match appendItem grant st item with
      | .error e => (.error e : Except ParseStop ListResult)
      | .ok none => .ok .failure
      | .ok (some st') => k st') =
    match appendStep grant st item with
      | .error .undefined => .error .undefined
      | .error .refused => .ok .failure
      | .ok st' => k st' := by
  unfold appendStep
  cases hitem : appendItem grant st item with
  | error e =>
      obtain rfl := appendItem_error hitem
      rfl
  | ok r => cases r <;> rfl

/-- One round of the loop, taken apart. -/
theorem readItems_succ (fuel : Nat) (st : ListState) (text : List Char) :
    readItems grant (fuel + 1) st text =
      match scanRound text with
      | .stop ending => ending.leave st
      | .last item ending => outcome (appendStep grant st item) ending
      | .next item rest =>
          match appendStep grant st item with
          | .error .undefined => .error .undefined
          | .error .refused => .ok .failure
          | .ok st' => readItems grant fuel st' rest := by
  have hcases := scanRound_cases text
  generalize hs : scanRound text = s at hcases
  rw [readItems]
  cases hcases with
  | off h => simp only [strtol_eq_none.mpr h, Ending.leave]
  | bad n h hbad => simp only [h, if_pos hbad, Ending.leave]
  | finish n c rest h hgood hrest hc =>
      have hcomma : c ≠ ',' := by
        rintro rfl
        exact absurd hc (by decide)
      simp only [h, if_neg hgood, hrest, if_neg hcomma, if_pos hc, Ending.leave]
  | stray n c rest h hgood hrest hc =>
      simp only [h, if_neg hgood, hrest, if_neg hc.1,
        if_neg (not_or.mpr ⟨hc.2.1, hc.2.2.1⟩), if_neg hc.2.2.2, Ending.leave]
  | number n rest h hgood hrest =>
      simp only [h, if_neg hgood, hrest, if_true]
      exact match_appendItem st (.number n.value) fun st' => readItems grant fuel st' rest
  | openRange n rest h hgood hrest hopen =>
      simp only [h, if_neg hgood, hrest, strtol_eq_none.mpr hopen]
      rfl
  | badRange n m rest h hgood hrest hm hbad =>
      simp only [h, if_neg hgood, hrest, hm, if_pos hbad]
      rfl
  | range n m rest d rest' h hgood hrest hm hgood' hrest' =>
      simp only [h, if_neg hgood, hrest, hm, if_neg hgood', hrest']
      rw [if_neg (by decide), if_neg (by decide), if_pos trivial]
      have hmatch := @match_appendItem grant st (.range n.value m.value)
      rcases scanAfterRange_cases (.range n.value m.value) d rest' with ⟨heq, hd⟩ | ⟨heq, rfl⟩ |
        ⟨heq, hnl, hnul, hcomma⟩
      · simp only [heq, if_pos hd]
        refine (hmatch fun st' => .ok ⟨0, st'.result, st'.length⟩).trans ?_
        cases appendStep grant st (.range n.value m.value) with
        | error halt => cases halt <;> rfl
        | ok st' => rfl
      · rw [heq]
        exact hmatch fun st' => readItems grant fuel st' rest'
      · simp only [heq, if_neg (not_or.mpr ⟨hnl, hnul⟩), if_neg hcomma]
        refine (hmatch fun _ => .ok .failure).trans ?_
        cases appendStep grant st (.range n.value m.value) with
        | error halt => cases halt <;> rfl
        | ok st' => rfl

/-- What the loop makes of a text. -/
def readFrom (grant : Nat → Nat → Bool) (st : ListState) (text : List Char) :
    Except ParseStop ListResult :=
  outcome (appendAll grant st (scan text).1) (scan text).2

/-- One round of it. -/
theorem readFrom_eq (st : ListState) (text : List Char) :
    readFrom grant st text =
      match scanRound text with
      | .stop ending => ending.leave st
      | .last item ending => outcome (appendStep grant st item) ending
      | .next item rest =>
          match appendStep grant st item with
          | .error .undefined => .error .undefined
          | .error .refused => .ok .failure
          | .ok st' => readFrom grant st' rest := by
  unfold readFrom
  rw [scan_eq]
  cases hround : scanRound text with
  | stop ending => rfl
  | last item ending =>
      simp only [appendAll, Transition.run]
      cases appendStep grant st item with
      | error halt => rfl
      | ok st' => rfl
  | next item rest =>
      simp only [appendAll, Transition.run]
      cases appendStep grant st item with
      | error halt => cases halt <;> rfl
      | ok st' => rfl

/-- **The loop appends what is scanned** and leaves through the scanned exit. -/
theorem readItems_eq (text : List Char) : ∀ (fuel : Nat) (st : ListState), text.length < fuel →
    readItems grant fuel st text = readFrom grant st text := by
  induction text using scan_induction with
  | stop text ending hround =>
      intro fuel st hfuel
      obtain ⟨fuel, rfl⟩ : ∃ k, fuel = k + 1 := ⟨fuel - 1, by omega⟩
      rw [readItems_succ, readFrom_eq, hround]
  | last text item ending hround =>
      intro fuel st hfuel
      obtain ⟨fuel, rfl⟩ : ∃ k, fuel = k + 1 := ⟨fuel - 1, by omega⟩
      rw [readItems_succ, readFrom_eq, hround]
  | next text item rest hround ih =>
      intro fuel st hfuel
      obtain ⟨fuel, rfl⟩ : ∃ k, fuel = k + 1 := ⟨fuel - 1, by omega⟩
      have hlt := scanRound_next_length hround
      rw [readItems_succ, readFrom_eq, hround]
      simp only [fun st => ih fuel st (by omega)]

end Appends

/-- The empty array. -/
def noNumbers : ListState := ⟨none, 0, 0⟩

section Buffer

/-- What is read of a buffer.  An empty line is not scanned. -/
def scanBuffer : List Char → List Append × Ending
  | [] => ([], .off)
  | c :: text => if c = '\n' ∨ c = nul then ([], .finish) else scan (c :: text)

theorem scanBuffer_eq_scan {text : List Char} (h : ∀ c ∈ text.head?, c ≠ '\n' ∧ c ≠ nul) :
    scanBuffer text = scan text := by
  cases text with
  | nil => rfl
  | cons c text =>
      rw [scanBuffer, if_neg (not_or.mpr (h c rfl))]

theorem scanBuffer_append {text : List Char} (h : (scanBuffer text).2 ≠ .off) (u : List Char) :
    scanBuffer (text ++ u) = scanBuffer text := by
  cases text with
  | nil => exact absurd rfl h
  | cons c text =>
      rw [scanBuffer] at h
      rw [List.cons_append, scanBuffer, scanBuffer]
      split
      · rfl
      · rename_i hc
        rw [if_neg hc] at h
        exact scan_append u _ h

/-- **A file that fits the buffer**: the appends and the exit of what is read. -/
theorem readFileLongList_eq (grant : Nat → Nat → Bool) (stack : List Char) {content : List Char}
    (hlen : content.length < bufferSize) :
    readFileLongList grant stack (.bytes content) =
      outcome (appendAll grant noNumbers (scanBuffer (content ++ stack.drop content.length)).1)
        (scanBuffer (content ++ stack.drop content.length)).2 := by
  simp only [readFileLongList, if_neg (Nat.not_le.mpr hlen), fillBuffer_eq hlen]
  cases content ++ stack.drop content.length with
  | nil => rfl
  | cons c text =>
      simp only [scanBuffer]
      split
      · rfl
      · exact readItems_eq _ _ _ (by simp)

end Buffer

end ParseArchitecture
end X86Energy
