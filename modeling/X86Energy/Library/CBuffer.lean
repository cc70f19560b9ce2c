import Mathlib.Data.List.TakeWhile
import X86Energy.Library.CInt
import X86Energy.Library.Partial

/-!
# Printing into a C buffer

A `Text size` is what a buffer of `size` bytes holds as a C string: the bytes in front of the
NUL, which is in the buffer too.  `print` is `snprintf` at the end of such a text with the room
that is left, and `Output.ret` is its return value: the length of the whole output, also of
what was cut off.

The second half is about the bytes.  `strlen` needs a NUL and `poke` needs room; each is a fault
without it.  `Holds` relates the bytes of a buffer to the text in it, and a write that brings its
own NUL keeps that relation (`Holds.write`, `Holds.overwrite`).
-/

namespace CBuffer

open CInt Partial

/-- A C string. -/
structure CString where
  chars : List Char
  noNul : '\x00' ∉ chars

/-- A C string in a buffer. -/
structure Text (size : Nat) extends CString where
  fits : chars.length < size

/-- What the conversions of a format deliver, and whether one of them fails. -/
structure Output where
  bytes : List Char
  failed : Bool

/-- The return value.  It counts what did not fit, and is negative if `int` cannot count it. -/
def Output.ret (out : Output) : Int :=
  if out.failed ∨ intMax < out.bytes.length then -1 else out.bytes.length

/-- `strlen`. -/
def Text.len {size : Nat} (t : Text size) : Nat := t.chars.length

/-- The bytes in front of the first NUL. -/
def upToNul (bytes : List Char) : List Char := bytes.takeWhile (· ≠ '\x00')

theorem nul_not_mem_upToNul (bytes : List Char) : '\x00' ∉ upToNul bytes := by
  intro h
  have hne := List.mem_takeWhile_imp h
  simp at hne

theorem upToNul_length_le (bytes : List Char) : (upToNul bytes).length ≤ bytes.length :=
  (List.takeWhile_prefix _).length_le

theorem upToNul_eq {bytes : List Char} (h : '\x00' ∉ bytes) : upToNul bytes = bytes := by
  refine List.takeWhile_eq_self_iff.mpr fun c hc => ?_
  rw [decide_eq_true_eq]
  rintro rfl
  exact h hc

theorem Text.eq_of_chars {size : Nat} {t t' : Text size} (h : t.chars = t'.chars) : t = t' := by
  obtain ⟨⟨chars, _⟩, _⟩ := t
  obtain ⟨⟨chars', _⟩, _⟩ := t'
  cases h
  rfl

/-- An empty text. -/
def Text.empty {size : Nat} (h : 0 < size) : Text size := ⟨⟨[], List.not_mem_nil⟩, h⟩

/-- More bytes behind a text. -/
def Text.extend {size : Nat} (t : Text size) (bytes : List Char)
    (hnul : '\x00' ∉ bytes) (hfits : t.len + bytes.length < size) : Text size where
  chars := t.chars ++ bytes
  noNul := by
    rw [List.mem_append, not_or]
    exact ⟨t.noNul, hnul⟩
  fits := by
    rw [List.length_append]
    exact hfits

/-- `snprintf(&t[strlen(t)], size - strlen(t), …)`: the last byte is for the NUL. -/
def Text.print {size : Nat} (t : Text size) (out : Output) : Text size :=
  t.extend (upToNul (out.bytes.take (size - t.len - 1))) (nul_not_mem_upToNul _) (by
    have hle := upToNul_length_le (out.bytes.take (size - t.len - 1))
    have hlt : t.len < size := t.fits
    rw [List.length_take] at hle
    omega)

section Print

variable {size : Nat} {t : Text size} {out : Output}

/-- **What fits is printed whole.** -/
theorem Text.print_chars (hnul : '\x00' ∉ out.bytes) (hfits : t.len + out.bytes.length < size) :
    (t.print out).chars = t.chars ++ out.bytes := by
  change t.chars ++ upToNul (out.bytes.take (size - t.len - 1)) = _
  rw [List.take_of_length_le (by omega), upToNul_eq hnul]

theorem Text.print_len (hnul : '\x00' ∉ out.bytes) (hfits : t.len + out.bytes.length < size) :
    (t.print out).len = t.len + out.bytes.length := by
  rw [Text.len, Text.print_chars hnul hfits, List.length_append]
  rfl

/-- **What does not fit fills the buffer.** -/
theorem Text.print_len_full (hnul : '\x00' ∉ out.bytes)
    (hfull : size ≤ t.len + out.bytes.length) : (t.print out).len + 1 = size := by
  have hlt : t.len < size := t.fits
  have hnul' : '\x00' ∉ out.bytes.take (size - t.len - 1) :=
    fun hmem => hnul (List.mem_of_mem_take hmem)
  change (t.chars ++ upToNul (out.bytes.take (size - t.len - 1))).length + 1 = size
  rw [upToNul_eq hnul', List.length_append, List.length_take]
  change t.len + min (size - t.len - 1) out.bytes.length + 1 = size
  omega

/-- An output that `int` can count returns its length. -/
theorem Output.ret_eq (hfailed : out.failed = false) (hcount : out.bytes.length ≤ intMax) :
    out.ret = out.bytes.length := by
  rw [Output.ret, hfailed, if_neg (by simpa using hcount)]

end Print

section Bytes

/-- What no access to a buffer may do. -/
inductive Fault
  | outside
  | unterminated
deriving DecidableEq, Repr

/-- `strlen`, which runs out of a buffer without a NUL. -/
def strlen (bytes : List Char) : Except Fault Nat :=
  if '\x00' ∈ bytes then .ok (upToNul bytes).length else .error .unterminated

/-- New bytes from an offset on. -/
def poke (bytes : List Char) (offset : Int) (new : List Char) : Except Fault (List Char) :=
  if 0 ≤ offset ∧ offset + new.length ≤ bytes.length then
    .ok (bytes.take offset.toNat ++ (new ++ bytes.drop (offset.toNat + new.length)))
  else .error .outside

/-- What `snprintf` writes from its first argument on, and its return value. -/
structure Printed where
  bytes : List Char
  ret : Int

/-- An `snprintf` or `vsnprintf`, on its size and what the format makes. -/
def Printf : Type := Nat → Output → Printed

/-- Given a size, it writes no more than that, with a NUL. -/
def Printf.Terminates (printf : Printf) : Prop :=
  ∀ (size : Nat) (out : Output), 1 ≤ size →
    (printf size out).bytes.length ≤ size ∧ '\x00' ∈ (printf size out).bytes

/-- `snprintf` as the C standard has it. -/
def snprintf : Printf := fun size out =>
  ⟨if size = 0 then [] else out.bytes.take (size - 1) ++ ['\x00'], out.ret⟩

theorem snprintf_terminates : snprintf.Terminates := by
  intro size out hsize
  change (if size = 0 then [] else out.bytes.take (size - 1) ++ ['\x00']).length ≤ size ∧
    '\x00' ∈ (if size = 0 then [] else out.bytes.take (size - 1) ++ ['\x00'])
  rw [if_neg (by omega), List.length_append, List.length_take, List.length_singleton]
  exact ⟨by omega, by simp⟩

theorem upToNul_append {front back : List Char} (h : '\x00' ∉ front) :
    upToNul (front ++ back) = front ++ upToNul back := by
  refine List.takeWhile_append_of_pos fun c hc => ?_
  rw [decide_eq_true_eq]
  rintro rfl
  exact h hc

theorem upToNul_length_lt {bytes : List Char} (h : '\x00' ∈ bytes) :
    (upToNul bytes).length < bytes.length := by
  refine lt_of_le_of_ne (upToNul_length_le bytes) fun heq => nul_not_mem_upToNul bytes ?_
  have hwhole : upToNul bytes = bytes := (List.takeWhile_prefix _).eq_of_length heq
  rwa [hwhole]

/-- What stands behind a NUL does not count. -/
theorem upToNul_append_of_mem {front : List Char} (h : '\x00' ∈ front) (back : List Char) :
    upToNul (front ++ back) = upToNul front := by
  have hlt := upToNul_length_lt h
  rw [upToNul, List.takeWhile_append, if_neg]
  · rfl
  · exact Nat.ne_of_lt hlt

/-- The NUL at the end of a text does not count either. -/
theorem upToNul_append_nul (bytes : List Char) : upToNul (bytes ++ ['\x00']) = upToNul bytes := by
  by_cases h : '\x00' ∈ bytes
  · exact upToNul_append_of_mem h _
  · rw [upToNul_append h, upToNul_eq h, upToNul, List.takeWhile_cons_of_neg (by decide),
      List.append_nil]

theorem upToNul_snprintf {size : Nat} (hsize : 1 ≤ size) (out : Output) :
    upToNul (snprintf size out).bytes = upToNul (out.bytes.take (size - 1)) := by
  change upToNul (if size = 0 then [] else out.bytes.take (size - 1) ++ ['\x00']) = _
  rw [if_neg (by omega), upToNul_append_nul]

theorem take_upToNul (bytes : List Char) : bytes.take (upToNul bytes).length = upToNul bytes :=
  (List.prefix_iff_eq_take.mp (List.takeWhile_prefix _)).symm

theorem poke_ok {bytes new : List Char} {offset : Nat} (h : offset + new.length ≤ bytes.length) :
    poke bytes offset new =
      .ok (bytes.take offset ++ (new ++ bytes.drop (offset + new.length))) := by
  rw [poke, if_pos (by omega), Int.toNat_natCast]

/-- Two writes side by side are one. -/
theorem poke_poke {bytes new more : List Char} {offset : Nat}
    (hroom : offset + new.length + more.length ≤ bytes.length) :
    (poke bytes offset new >>= fun bytes' => poke bytes' (offset + new.length : Nat) more) =
      poke bytes offset (new ++ more) := by
  have hfront : (bytes.take offset ++ new).length = offset + new.length := by
    rw [List.length_append, List.length_take]
    omega
  have hlen : (bytes.take offset ++ new ++ bytes.drop (offset + new.length)).length =
      bytes.length := by
    rw [List.length_append, hfront, List.length_drop]
    omega
  rw [poke_ok (by omega), poke_ok (by rw [List.length_append]; omega), ← List.append_assoc,
    ok_bind, poke_ok (by omega), List.take_left' hfront, ← List.drop_drop, List.drop_left' hfront,
    List.drop_drop, List.length_append, Nat.add_assoc, List.append_assoc, List.append_assoc]

end Bytes

section Holds

variable {size : Nat} {t t' : Text size} {bytes new : List Char}

/-- The buffer has its size and the text is what `strlen` sees of it. -/
structure Holds (bytes : List Char) (t : Text size) : Prop where
  length : bytes.length = size
  chars : upToNul bytes = t.chars

theorem Holds.nul_mem (h : Holds bytes t) : '\x00' ∈ bytes := by
  by_contra hnul
  have hlt : t.chars.length < size := t.fits
  rw [← h.chars, upToNul_eq hnul, h.length] at hlt
  exact Nat.lt_irrefl _ hlt

theorem Holds.strlen (h : Holds bytes t) : Ends (fun len => len = t.len) (strlen bytes) := by
  rw [CBuffer.strlen, if_pos h.nul_mem, h.chars]
  exact Ends.pure rfl

/-- A write with a NUL behind bytes without one. -/
theorem holds_of_poke {offset : Nat} (hlen : bytes.length = size)
    (hfront : '\x00' ∉ bytes.take offset) (hnul : '\x00' ∈ new)
    (hroom : offset + new.length ≤ size) (ht : t'.chars = bytes.take offset ++ upToNul new) :
    Ends (fun bytes' => Holds bytes' t') (poke bytes offset new) := by
  rw [poke_ok (by omega)]
  refine Ends.pure ⟨?_, ?_⟩
  · simp only [List.length_append, List.length_take, List.length_drop]
    omega
  · rw [upToNul_append hfront, upToNul_append_of_mem hnul, ht]

/-- **A write behind the text** that brings its own NUL. -/
theorem Holds.write (h : Holds bytes t) (hnul : '\x00' ∈ new)
    (hroom : t.len + new.length ≤ size) (ht : t'.chars = t.chars ++ upToNul new) :
    Ends (fun bytes' => Holds bytes' t') (poke bytes t.len new) := by
  have hfront : bytes.take t.len = t.chars := by
    rw [Text.len, ← h.chars, take_upToNul]
  refine holds_of_poke h.length ?_ hnul hroom (by rw [hfront, ht])
  rw [hfront]
  exact t.noNul

/-- **A write over the text** that brings its own NUL. -/
theorem Holds.overwrite (h : Holds bytes t) (hnul : '\x00' ∈ new) (hroom : new.length ≤ size)
    (ht : t'.chars = upToNul new) : Ends (fun bytes' => Holds bytes' t') (poke bytes 0 new) :=
  @holds_of_poke size t' bytes new 0 h.length List.not_mem_nil hnul (by omega) ht

end Holds

end CBuffer
