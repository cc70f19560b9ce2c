import Mathlib.Data.List.Basic
import X86Energy.Library.CInt

/-!
# Reading and printing C numbers

A C string is a list of characters, one for each byte.  A function that scans
past the end of its list has left the array it was given: it returns `none`.

`strtol` is the base-10 `strtol` of the C library with its `errno` and its end
pointer; `decimal` is what `printf` writes for `%ld`.
`strtol_decimal` says that the first reads the second back.
-/

namespace CText

open CInt

/-- `isspace` in the C locale. -/
def isSpace (c : Char) : Bool := c = ' ' || (9 ≤ c.toNat && c.toNat ≤ 13)

/-- Skip leading white space. -/
def skipSpaces : List Char → Option (List Char)
  | [] => none
  | c :: s => if isSpace c then skipSpaces s else some (c :: s)

/-- An optional sign: whether it is a minus, and the text behind it. -/
def scanSign : List Char → Bool × List Char
  | '-' :: s => (true, s)
  | '+' :: s => (false, s)
  | s => (false, s)

/-- The longest prefix of decimal digits and the text behind it. -/
def scanDigits : List Char → Option (List Char × List Char)
  | [] => none
  | c :: s =>
      if c.isDigit then
        match scanDigits s with
        | some (ds, rest) => some (c :: ds, rest)
        | none => none
      else some ([], c :: s)

/-- What `strtol` leaves behind: its value, the end pointer, whether it moved
from the start, and whether `errno` is `ERANGE`. -/
structure Strtol where
  value : Int
  rest : List Char
  converted : Bool
  erange : Bool
deriving DecidableEq, Repr

/-- The value of a converted numeral, clipped to `long`. -/
def clip (value : Int) (rest : List Char) : Strtol :=
  if longMax < value then ⟨longMax, rest, true, true⟩
  else if value < longMin then ⟨longMin, rest, true, true⟩
  else ⟨value, rest, true, false⟩

/-- Apply a scanned sign. -/
def signed (neg : Bool) (n : Nat) : Int := if neg then -(n : Int) else n

/-- `strtol(text, &rest, 10)`. -/
def strtol (text : List Char) : Option Strtol :=
  match skipSpaces text with
  | none => none
  | some s =>
      match scanDigits (scanSign s).2 with
      | none => none
      | some ([], _) => some ⟨0, text, false, false⟩
      | some (d :: ds, rest) =>
          some (clip (signed (scanSign s).1 (Nat.ofDigitChars 10 (d :: ds) 0)) rest)

/-- What `printf` writes for a `long` under `%ld`. -/
def decimal (x : Int) : List Char :=
  if x < 0 then '-' :: Nat.toDigits 10 x.natAbs else Nat.toDigits 10 x.natAbs

theorem isDigit_iff (c : Char) : c.isDigit = true ↔ 48 ≤ c.toNat ∧ c.toNat ≤ 57 := by
  rw [Char.isDigit]
  simp only [Bool.and_eq_true, decide_eq_true_eq]
  exact Iff.rfl

theorem not_isSpace_of_isDigit {c : Char} (h : c.isDigit = true) : isSpace c = false := by
  rw [isDigit_iff] at h
  have hc : c ≠ ' ' := by
    rintro rfl
    exact absurd h.1 (by decide)
  simp only [isSpace, hc, decide_false, Bool.false_or, Bool.and_eq_false_iff,
    decide_eq_false_iff_not]
  omega

theorem scanDigits_append {ds : List Char} (hds : ∀ c ∈ ds, c.isDigit = true)
    {c : Char} (hc : c.isDigit = false) (rest : List Char) :
    scanDigits (ds ++ c :: rest) = some (ds, c :: rest) := by
  induction ds with
  | nil =>
      simp [scanDigits, hc]
  | cons d ds ih =>
      have hd := hds d (by simp)
      have hrest := ih (fun x hx => hds x (by simp [hx]))
      simp [scanDigits, hd, hrest]

theorem skipSpaces_of_not_isSpace {c : Char} (h : isSpace c = false) (s : List Char) :
    skipSpaces (c :: s) = some (c :: s) := by
  simp [skipSpaces, h]

theorem scanSign_of_isDigit {c : Char} (h : c.isDigit = true) (s : List Char) :
    scanSign (c :: s) = (false, c :: s) := by
  unfold scanSign
  split
  · rename_i heq
    cases heq
    exact absurd h (by decide)
  · rename_i heq
    cases heq
    exact absurd h (by decide)
  · rfl

theorem clip_of_isLong {x : Int} (h : IsLong x) (rest : List Char) :
    clip x rest = ⟨x, rest, true, false⟩ := by
  obtain ⟨hlo, hhi⟩ := h
  rw [clip, if_neg (by omega), if_neg (by omega)]

theorem clip_of_not_isLong {x : Int} (h : ¬ IsLong x) (rest : List Char) :
    (clip x rest).erange = true := by
  unfold clip
  split
  · rfl
  · split
    · rfl
    · rename_i hhi hlo
      exact absurd ⟨by omega, by omega⟩ h

/-- A printed number starts with its sign or a digit. -/
theorem decimal_eq_cons (x : Int) :
    ∃ c s, decimal x = c :: s ∧ (c = '-' ∨ c.isDigit = true) := by
  unfold decimal
  split
  · exact ⟨_, _, rfl, Or.inl rfl⟩
  · cases hd : Nat.toDigits 10 x.natAbs with
    | nil => exact absurd hd Nat.toDigits_ne_nil
    | cons d ds =>
        refine ⟨d, ds, rfl, Or.inr ?_⟩
        exact Nat.isDigit_of_mem_toDigits (b := 10) (n := x.natAbs) (by decide) (by decide)
          (by rw [hd]; simp)

section Scanners

theorem skipSpaces_append {spaces : List Char} (h : ∀ c ∈ spaces, isSpace c = true)
    (s : List Char) : skipSpaces (spaces ++ s) = skipSpaces s := by
  induction spaces with
  | nil => rfl
  | cons c spaces ih =>
      rw [List.cons_append, skipSpaces, if_pos (h c (by simp))]
      exact ih fun x hx => h x (by simp [hx])

theorem skipSpaces_eq_none {text : List Char} (h : skipSpaces text = none) :
    ∀ c ∈ text, isSpace c = true := by
  induction text with
  | nil => exact fun c hc => absurd hc List.not_mem_nil
  | cons c text ih =>
      rw [skipSpaces] at h
      split at h
      · rename_i hc
        exact List.forall_mem_cons.mpr ⟨hc, ih h⟩
      · cases h

theorem skipSpaces_eq_some {text s : List Char} (h : skipSpaces text = some s) :
    ∃ spaces c rest, text = spaces ++ s ∧ s = c :: rest ∧ (∀ x ∈ spaces, isSpace x = true) ∧
      isSpace c = false := by
  induction text with
  | nil => cases h
  | cons c text ih =>
      rw [skipSpaces] at h
      split at h
      · rename_i hc
        obtain ⟨spaces, d, rest, rfl, hs, hspaces, hd⟩ := ih h
        exact ⟨c :: spaces, d, rest, rfl, hs, List.forall_mem_cons.mpr ⟨hc, hspaces⟩, hd⟩
      · rename_i hc
        cases h
        exact ⟨[], c, text, rfl, rfl, by simp, by simpa using hc⟩

theorem scanDigits_eq_none {s : List Char} :
    scanDigits s = none ↔ ∀ c ∈ s, c.isDigit = true := by
  induction s with
  | nil => simp [scanDigits]
  | cons c s ih =>
      rw [scanDigits, List.forall_mem_cons]
      by_cases hc : c.isDigit = true
      · rw [if_pos hc]
        cases hs : scanDigits s with
        | none => exact iff_of_true rfl ⟨hc, ih.mp hs⟩
        | some scanned =>
            refine iff_of_false nofun fun h => ?_
            rw [ih.mpr h.2] at hs
            cases hs
      · rw [if_neg hc]
        exact iff_of_false nofun fun h => hc h.1

theorem scanDigits_eq_some {s ds rest : List Char} (h : scanDigits s = some (ds, rest)) :
    s = ds ++ rest ∧ (∀ c ∈ ds, c.isDigit = true) ∧
      ∃ c rest', rest = c :: rest' ∧ c.isDigit = false := by
  induction s generalizing ds with
  | nil => cases h
  | cons c s ih =>
      rw [scanDigits] at h
      by_cases hc : c.isDigit = true
      · rw [if_pos hc] at h
        cases hs : scanDigits s with
        | none =>
            rw [hs] at h
            cases h
        | some scanned =>
            rw [hs] at h
            cases h
            obtain ⟨hsplit, hds, hrest⟩ := ih hs
            exact ⟨congrArg (c :: ·) hsplit, List.forall_mem_cons.mpr ⟨hc, hds⟩, hrest⟩
      · rw [if_neg hc] at h
        cases h
        exact ⟨rfl, by simp, c, s, rfl, by simpa using hc⟩

/-- The texts of a sign. -/
def IsSign (sign : List Char) : Prop := sign = [] ∨ sign = ['+'] ∨ sign = ['-']

theorem scanSign_split (s : List Char) :
    ∃ sign, IsSign sign ∧ s = sign ++ (scanSign s).2 ∧
      (scanSign s).1 = decide (sign = ['-']) := by
  unfold scanSign
  split
  · exact ⟨['-'], .inr (.inr rfl), rfl, rfl⟩
  · exact ⟨['+'], .inr (.inl rfl), rfl, rfl⟩
  · exact ⟨[], .inl rfl, rfl, rfl⟩

/-- A sign in front of digits. -/
theorem scanSign_append {sign ds : List Char} (hsign : IsSign sign)
    (hds : ∀ c ∈ ds, c.isDigit = true) (rest : List Char) (hne : ds ≠ [] ∨ sign ≠ []) :
    scanSign (sign ++ ds ++ rest) = (decide (sign = ['-']), ds ++ rest) := by
  rcases hsign with rfl | rfl | rfl
  · cases ds with
    | nil => exact absurd rfl (hne.resolve_right fun h => h rfl)
    | cons d ds =>
        rw [List.nil_append, List.cons_append, scanSign_of_isDigit (hds d (by simp))]
        rfl
  · rfl
  · rfl

theorem not_isSpace_sign {sign : List Char} (hsign : IsSign sign) :
    ∀ c ∈ sign, isSpace c = false := by
  rcases hsign with rfl | rfl | rfl
  · exact fun c hc => absurd hc List.not_mem_nil
  · exact List.forall_mem_singleton.mpr rfl
  · exact List.forall_mem_singleton.mpr rfl

/-- White space, a sign and digits, of which each may be missing: as far as `strtol` can
read without coming to its end. -/
def IsOpenNumeral (text : List Char) : Prop :=
  ∃ spaces sign ds, text = spaces ++ (sign ++ ds) ∧ (∀ c ∈ spaces, isSpace c = true) ∧
    IsSign sign ∧ ∀ c ∈ ds, c.isDigit = true

/-- A numeral as `strtol` accepts it: white space, a sign and at least one digit. -/
def IsNumeral (text : List Char) (value : Int) : Prop :=
  ∃ spaces sign ds, text = spaces ++ (sign ++ ds) ∧ (∀ c ∈ spaces, isSpace c = true) ∧
    IsSign sign ∧ (∀ c ∈ ds, c.isDigit = true) ∧ ds ≠ [] ∧
    value = signed (decide (sign = ['-'])) (Nat.ofDigitChars 10 ds 0)

theorem isOpenNumeral_nil : IsOpenNumeral [] := ⟨[], [], [], rfl, by simp, .inl rfl, by simp⟩

theorem IsNumeral.isOpenNumeral {text : List Char} {value : Int} (h : IsNumeral text value) :
    IsOpenNumeral text := by
  obtain ⟨spaces, sign, ds, htext, hspaces, hsign, hds, _⟩ := h
  exact ⟨spaces, sign, ds, htext, hspaces, hsign, hds⟩

theorem IsOpenNumeral.mem {text : List Char} (h : IsOpenNumeral text) {c : Char} (hc : c ∈ text) :
    isSpace c = true ∨ c = '+' ∨ c = '-' ∨ c.isDigit = true := by
  obtain ⟨spaces, sign, ds, rfl, hspaces, hsign, hds⟩ := h
  rcases List.mem_append.mp hc with hc | hc
  · exact .inl (hspaces c hc)
  · rcases List.mem_append.mp hc with hc | hc
    · rcases hsign with rfl | rfl | rfl
      · cases hc
      · exact .inr (.inl (List.mem_singleton.mp hc))
      · exact .inr (.inr (.inl (List.mem_singleton.mp hc)))
    · exact .inr (.inr (.inr (hds c hc)))

/-- What `strtol` does with white space, a sign, digits and the text behind them. -/
theorem skipSpaces_numeral {spaces sign ds : List Char}
    (hspaces : ∀ c ∈ spaces, isSpace c = true) (hsign : IsSign sign)
    (hds : ∀ c ∈ ds, c.isDigit = true) (hne : ds ≠ [] ∨ sign ≠ []) (rest : List Char) :
    skipSpaces (spaces ++ (sign ++ ds) ++ rest) = some (sign ++ ds ++ rest) := by
  rw [List.append_assoc, skipSpaces_append hspaces]
  cases hsplit : sign ++ ds with
  | nil =>
      rw [List.append_eq_nil_iff] at hsplit
      rcases hne with h | h
      · exact absurd hsplit.2 h
      · exact absurd hsplit.1 h
  | cons c s =>
      refine skipSpaces_of_not_isSpace ?_ _
      have hc : c ∈ sign ++ ds := by
        rw [hsplit]
        exact List.mem_cons_self
      rcases List.mem_append.mp hc with hc | hc
      · exact not_isSpace_sign hsign c hc
      · exact not_isSpace_of_isDigit (hds c hc)

/-- **`strtol` runs off the text exactly if nothing in it ends a numeral.** -/
theorem strtol_eq_none {text : List Char} : strtol text = none ↔ IsOpenNumeral text := by
  constructor
  · intro h
    unfold strtol at h
    split at h
    · rename_i hskip
      exact ⟨text, [], [], by simp, skipSpaces_eq_none hskip, .inl rfl, by simp⟩
    · rename_i s hskip
      split at h
      · rename_i hscan
        obtain ⟨spaces, c, rest, rfl, _, hspaces, _⟩ := skipSpaces_eq_some hskip
        obtain ⟨sign, hsign, hs, _⟩ := scanSign_split s
        refine ⟨spaces, sign, (scanSign s).2, ?_, hspaces, hsign, scanDigits_eq_none.mp hscan⟩
        rw [← hs]
      · cases h
      · cases h
  · rintro ⟨spaces, sign, ds, rfl, hspaces, hsign, hds⟩
    by_cases hne : ds ≠ [] ∨ sign ≠ []
    · have hskip := skipSpaces_numeral hspaces hsign hds hne []
      have hscan := scanSign_append hsign hds [] hne
      simp only [List.append_nil] at hskip hscan
      unfold strtol
      simp only [hskip, hscan, scanDigits_eq_none.mpr hds]
    · rw [not_or, not_not, not_not] at hne
      obtain ⟨rfl, rfl⟩ := hne
      unfold strtol
      have hskip : skipSpaces (spaces ++ ([] ++ [])) = none := by
        rw [skipSpaces_append hspaces]
        rfl
      rw [hskip]

/-- Digits behind a text that `strtol` runs off do not end the numeral. -/
theorem IsOpenNumeral.append_digits {text digits : List Char} (h : IsOpenNumeral text)
    (hdigits : ∀ c ∈ digits, c.isDigit = true) : IsOpenNumeral (text ++ digits) := by
  obtain ⟨spaces, sign, ds, rfl, hspaces, hsign, hds⟩ := h
  refine ⟨spaces, sign, ds ++ digits, by simp, hspaces, hsign, fun c hc => ?_⟩
  rcases List.mem_append.mp hc with hc | hc
  · exact hds c hc
  · exact hdigits c hc

/-- **`strtol` on a numeral** that a non-digit ends. -/
theorem strtol_of_isNumeral {text : List Char} {value : Int} (h : IsNumeral text value) {c : Char}
    (hc : c.isDigit = false) (rest : List Char) :
    strtol (text ++ c :: rest) = some (clip value (c :: rest)) := by
  obtain ⟨spaces, sign, ds, rfl, hspaces, hsign, hds, hne, rfl⟩ := h
  have hskip := skipSpaces_numeral hspaces hsign hds (.inl hne) (c :: rest)
  have hscan := scanSign_append hsign hds (c :: rest) (.inl hne)
  have hdigits := scanDigits_append hds hc rest
  unfold strtol
  simp only [hskip, hscan, hdigits]
  cases ds with
  | nil => exact absurd rfl hne
  | cons d ds => rfl

/-- What `%ld` prints is a numeral. -/
theorem isNumeral_decimal (x : Int) : IsNumeral (decimal x) x := by
  have hdigits : ∀ c ∈ Nat.toDigits 10 x.natAbs, c.isDigit = true :=
    fun c hc => Nat.isDigit_of_mem_toDigits (by decide) (by decide) hc
  have hval : Nat.ofDigitChars 10 (Nat.toDigits 10 x.natAbs) 0 = x.natAbs :=
    Nat.ofDigitChars_ten_toDigits
  unfold decimal
  split
  · refine ⟨[], ['-'], Nat.toDigits 10 x.natAbs, rfl, by simp, .inr (.inr rfl), hdigits,
      Nat.toDigits_ne_nil, ?_⟩
    rw [hval]
    change x = -(x.natAbs : Int)
    omega
  · refine ⟨[], [], Nat.toDigits 10 x.natAbs, rfl, by simp, .inl rfl, hdigits,
      Nat.toDigits_ne_nil, ?_⟩
    rw [hval]
    change x = (x.natAbs : Int)
    omega

/-- **`strtol` reads back what `%ld` prints**, up to the range of `long`. -/
theorem strtol_decimal (x : Int) {c : Char} (hc : c.isDigit = false) (rest : List Char) :
    strtol (decimal x ++ c :: rest) = some (clip x (c :: rest)) :=
  strtol_of_isNumeral (isNumeral_decimal x) hc rest

/-- **What `strtol` has read**: a numeral that a non-digit ends, if it moved at all. -/
theorem strtol_eq_some {text : List Char} {n : Strtol} (h : strtol text = some n) :
    (n = ⟨0, text, false, false⟩ ∧ text ≠ []) ∨
      ∃ numeral value c rest, text = numeral ++ c :: rest ∧ IsNumeral numeral value ∧
        c.isDigit = false ∧ n = clip value (c :: rest) := by
  unfold strtol at h
  split at h
  · cases h
  · rename_i s hskip
    obtain ⟨spaces, c, rest, rfl, rfl, hspaces, _⟩ := skipSpaces_eq_some hskip
    split at h
    · cases h
    · cases h
      exact .inl ⟨rfl, by simp⟩
    · rename_i d ds rest' hscan
      cases h
      obtain ⟨hsplit, hds, e, rest'', rfl, he⟩ := scanDigits_eq_some hscan
      obtain ⟨sign, hsign, hs, hneg⟩ := scanSign_split (c :: rest)
      refine .inr ⟨spaces ++ (sign ++ (d :: ds)), _, e, rest'', ?_,
        ⟨spaces, sign, d :: ds, rfl, hspaces, hsign, hds, by simp, rfl⟩, he, ?_⟩
      · rw [hs, hsplit]
        simp
      · rw [hneg]

theorem scanDigits_some_append {s ds rest : List Char} (h : scanDigits s = some (ds, rest))
    (u : List Char) : scanDigits (s ++ u) = some (ds, rest ++ u) := by
  obtain ⟨rfl, hds, c, rest', rfl, hc⟩ := scanDigits_eq_some h
  rw [List.append_assoc]
  exact scanDigits_append hds hc _

theorem scanSign_cons_append (c : Char) (s u : List Char) :
    scanSign (c :: s ++ u) = ((scanSign (c :: s)).1, (scanSign (c :: s)).2 ++ u) := by
  by_cases hminus : c = '-'
  · subst hminus
    rfl
  · by_cases hplus : c = '+'
    · subst hplus
      rfl
    · have hnone : ∀ s : List Char, scanSign (c :: s) = (false, c :: s) := by
        intro s
        unfold scanSign
        split
        · rename_i heq
          cases heq
          exact absurd rfl hminus
        · rename_i heq
          cases heq
          exact absurd rfl hplus
        · rfl
      rw [List.cons_append, hnone, hnone]
      rfl

theorem clip_append (value : Int) (rest u : List Char) :
    clip value (rest ++ u) = { clip value rest with rest := rest ++ u } := by
  unfold clip
  split
  · rfl
  · split <;> rfl

theorem clip_rest (value : Int) (rest : List Char) : (clip value rest).rest = rest := by
  unfold clip
  split
  · rfl
  · split <;> rfl

/-- **Where `strtol` ends inside a text**, what follows the text plays no role. -/
theorem strtol_append {text : List Char} {n : Strtol} (h : strtol text = some n)
    (u : List Char) : strtol (text ++ u) = some { n with rest := n.rest ++ u } := by
  unfold strtol at h ⊢
  split at h
  · cases h
  · rename_i s hskip
    obtain ⟨spaces, c, rest, rfl, rfl, hspaces, hc⟩ := skipSpaces_eq_some hskip
    have hskip' : skipSpaces (spaces ++ c :: rest ++ u) = some (c :: rest ++ u) := by
      rw [List.append_assoc, skipSpaces_append hspaces]
      exact skipSpaces_of_not_isSpace hc _
    simp only [hskip', scanSign_cons_append]
    split at h
    · cases h
    · rename_i hscan
      cases h
      rw [scanDigits_some_append hscan]
    · rename_i hscan
      cases h
      rw [scanDigits_some_append hscan]
      simp only
      rw [clip_append, clip_rest]

end Scanners

end CText
