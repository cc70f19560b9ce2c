import X86Energy.Error.ErrorString

/-!
# The bytes of the error string

`error_string` as the code sees it: an array of bytes in which every offset and every size comes
from a `strlen`.  A `strlen` without a NUL and a write outside of the array are faults, and the
sizes of all calls of `snprintf` and `vsnprintf` are kept in a list.

The two functions are taken from the C library, each call with functions of its own, of which only
`Terminates` is known.  Each operation takes bytes that hold a text to bytes that hold a text
(`Carries`), whatever is returned.

**Results.**
* `run_bounded`: no sequence of reports has a fault, there is a NUL after each of them, and no size
  is 0.
* `run_refines_text`: with `snprintf` as the standard has it, the bytes hold what `Call.step`
  computes.
-/

namespace X86Energy
namespace Error

open CInt CBuffer Partial

/-- The bytes of `error_string`, and the sizes that were passed with it. -/
structure ErrorMemory where
  bytes : List Char
  sizes : List Nat

namespace ErrorMemory

/-- `static char error_string[4096]={'\0'}`. -/
def start : ErrorMemory := ⟨List.replicate 4096 '\x00', []⟩

/-- `snprintf(&error_string[offset], size, …)` or the same with `vsnprintf`. -/
def print (printf : Printf) (offset : Int) (size : Nat) (out : Output) (m : ErrorMemory) :
    Except Fault (ErrorMemory × Int) := do
  let bytes ← poke m.bytes offset (printf size out).bytes
  return (⟨bytes, size :: m.sizes⟩, (printf size out).ret)

/-- The same with `&error_string[strlen(error_string)]` and `ERROR_LEN - strlen(error_string)`. -/
def printAtEnd (printf : Printf) (out : Output) (m : ErrorMemory) :
    Except Fault (ErrorMemory × Int) := do
  let offset ← strlen m.bytes
  let len ← strlen m.bytes
  print printf offset (toSize (errorLen - len)) out m

/-- `sprintf(error_string,"%s",text)`. -/
def sprintf (text : CString) (m : ErrorMemory) : Except Fault ErrorMemory := do
  let bytes ← poke m.bytes 0 (text.chars ++ ['\x00'])
  return { m with bytes := bytes }

/-- `x86_energy_handle_problematic_error_string`. -/
def handleProblematicErrorString (printfReturn : Int) (m : ErrorMemory) :
    Except Fault (ErrorMemory × Int) := do
  let len ← strlen m.bytes
  if 4096 ≤ (toSize printfReturn + len) % 18446744073709551616 then
    let m ← sprintf notEnoughSpace.toCString m
    return (m, -1)
  else if printfReturn < 0 then
    let m ← sprintf internalError.toCString m
    return (m, -2)
  else return (m, 0)

/-- The newline behind the message, with `old_len` an `int`. -/
def endLine (m : ErrorMemory) : Except Fault ErrorMemory := do
  let len ← strlen m.bytes
  let oldLen := toInt32 len
  if oldLen + 2 < errorLen then
    let bytes ← poke m.bytes oldLen ['\n']
    let bytes ← poke bytes (oldLen + 1) ['\x00']
    return { m with bytes := bytes }
  else return m

/-- What both functions do after the `snprintf` of the header. -/
def writeMessage (vsnprintf : Printf) (message : Output) (printed : ErrorMemory × Int) :
    Except Fault ErrorMemory := do
  let checked ← handleProblematicErrorString printed.2 printed.1
  if checked.2 = 0 then
    let printed ← printAtEnd vsnprintf message checked.1
    let checked ← handleProblematicErrorString printed.2 printed.1
    endLine checked.1
  else return checked.1

/-- `x86_energy_set_error_string`. -/
def setErrorString (snprintf vsnprintf : Printf) (errorFile errorFunc : CString) (errorLine : Int)
    (message : Output) (m : ErrorMemory) : Except Fault ErrorMemory := do
  let printed ← print snprintf 0 errorLen ⟨header errorFile errorFunc errorLine, false⟩ m
  writeMessage vsnprintf message printed

/-- `x86_energy_append_error_string`. -/
def appendErrorString (snprintf vsnprintf : Printf) (errorFile errorFunc : CString)
    (errorLine : Int) (message : Output) (m : ErrorMemory) : Except Fault ErrorMemory := do
  let printed ← printAtEnd snprintf ⟨header errorFile errorFunc errorLine, false⟩ m
  writeMessage vsnprintf message printed

/-- A call of one of the two, and what the C library does in it. -/
structure Invocation where
  call : Call
  snprintf : Printf
  vsnprintf : Printf

/-- The C library keeps to the sizes. -/
def Invocation.Terminates (i : Invocation) : Prop :=
  i.snprintf.Terminates ∧ i.vsnprintf.Terminates

def step (m : ErrorMemory) (i : Invocation) : Except Fault ErrorMemory :=
  match i.call with
  | .set report => setErrorString i.snprintf i.vsnprintf report.errorFile report.errorFunc
      report.errorLine report.message m
  | .append report => appendErrorString i.snprintf i.vsnprintf report.errorFile report.errorFunc
      report.errorLine report.message m

section Operations

variable {m : ErrorMemory} {t : ErrorString}

/-- The bytes hold the text, and no size was 0. -/
structure Carries (m : ErrorMemory) (t : ErrorString) : Prop where
  holds : Holds m.bytes t
  sizes : ∀ size ∈ m.sizes, 1 ≤ size

theorem start_carries : Carries start (Text.empty (by decide)) := by
  refine ⟨⟨List.length_replicate, ?_⟩, fun _ hsize => absurd hsize List.not_mem_nil⟩
  rw [start, List.replicate_succ, upToNul, List.takeWhile_cons_of_neg (by decide)]
  rfl

/-- The size of a text that is in the buffer leaves room for the NUL. -/
theorem toSize_room (t : ErrorString) : toSize (errorLen - t.len) = errorLen - t.len := by
  have hle : t.len ≤ errorLen := Nat.le_of_lt t.fits
  rw [← Int.ofNat_sub hle]
  apply toSize_natCast
  unfold errorLen
  omega

/-- A call that gets a size and whose write leaves the bytes with a text. -/
theorem Carries.print {t' : ErrorString} (h : Carries m t) {printf : Printf} {offset : Int}
    {size : Nat} {out : Output} (hsize : 1 ≤ size)
    (hwrite : Ends (fun bytes => Holds bytes t') (poke m.bytes offset (printf size out).bytes)) :
    Ends (fun printed => Carries printed.1 t' ∧ printed.2 = (printf size out).ret)
      (m.print printf offset size out) := by
  refine hwrite.bind fun bytes hbytes => Ends.pure ⟨⟨hbytes, ?_⟩, rfl⟩
  intro size' hmem
  rcases List.mem_cons.mp hmem with rfl | hmem
  · exact hsize
  · exact h.sizes size' hmem

/-- **Printing at the end** puts what was printed behind the text. -/
theorem Carries.printAtEnd (h : Carries m t) {printf : Printf} (hprintf : printf.Terminates)
    (out : Output) : ∃ t' : ErrorString,
      t'.chars = t.chars ++ upToNul (printf (errorLen - t.len) out).bytes ∧
      Ends (fun printed => Carries printed.1 t' ∧
        printed.2 = (printf (errorLen - t.len) out).ret) (m.printAtEnd printf out) := by
  have hlt : t.len < errorLen := t.fits
  obtain ⟨hsize, hnul⟩ := hprintf (errorLen - t.len) out (by omega)
  have hshort := upToNul_length_lt hnul
  refine ⟨t.extend (upToNul (printf (errorLen - t.len) out).bytes) (nul_not_mem_upToNul _)
    (by omega), rfl, ?_⟩
  refine h.holds.strlen.bind ?_
  rintro _ rfl
  refine h.holds.strlen.bind ?_
  rintro _ rfl
  rw [toSize_room]
  exact h.print (by omega) (h.holds.write hnul (by omega) rfl)

/-- **Printing at the start** replaces the text. -/
theorem Carries.printAtStart (h : Carries m t) {printf : Printf} (hprintf : printf.Terminates)
    (out : Output) : ∃ t' : ErrorString,
      t'.chars = upToNul (printf errorLen out).bytes ∧
      Ends (fun printed => Carries printed.1 t' ∧ printed.2 = (printf errorLen out).ret)
        (m.print printf 0 errorLen out) := by
  obtain ⟨hsize, hnul⟩ := hprintf errorLen out (by decide)
  have hshort := upToNul_length_lt hnul
  refine ⟨⟨⟨_, nul_not_mem_upToNul _⟩, Nat.lt_of_lt_of_le hshort hsize⟩, rfl, ?_⟩
  exact h.print (by decide) (h.holds.overwrite hnul hsize rfl)

theorem Carries.sprintf (h : Carries m t) (t' : ErrorString) :
    Ends (fun m' => Carries m' t') (m.sprintf t'.toCString) := by
  have hfits : (t'.chars ++ ['\x00']).length ≤ errorLen := by
    rw [List.length_append]
    exact t'.fits
  have htext : t'.chars = upToNul (t'.chars ++ ['\x00']) := by
    rw [upToNul_append_nul, upToNul_eq t'.noNul]
  exact (h.holds.overwrite (by simp) hfits htext).bind fun bytes hbytes =>
    Ends.pure ⟨hbytes, h.sizes⟩

/-- **The check** of any return value does what it does on the text. -/
theorem Carries.handle (h : Carries m t) (printfReturn : Int) :
    Ends (fun checked =>
      Carries checked.1 (Error.handleProblematicErrorString printfReturn t).1 ∧
        checked.2 = (Error.handleProblematicErrorString printfReturn t).2)
      (m.handleProblematicErrorString printfReturn) := by
  refine h.holds.strlen.bind ?_
  rintro _ rfl
  rw [Error.handleProblematicErrorString]
  split
  · exact (h.sprintf notEnoughSpace).bind fun m' hm' => Ends.pure ⟨hm', rfl⟩
  · split
    · exact (h.sprintf internalError).bind fun m' hm' => Ends.pure ⟨hm', rfl⟩
    · exact Ends.pure ⟨h, rfl⟩

/-- **The newline**: two writes, of which only the second brings the NUL back. -/
theorem Carries.endLine (h : Carries m t) :
    Ends (fun m' => Carries m' (Error.endLine t)) m.endLine := by
  have hlt : t.len < 4096 := t.fits
  have hint : toInt32 (t.len : Int) = t.len :=
    toInt32_of_isInt32 (by unfold IsInt32 intMin intMax; omega)
  refine h.holds.strlen.bind ?_
  rintro _ rfl
  rw [hint]
  by_cases hroom : t.len + 2 < errorLen
  · rw [if_pos (by omega)]
    have hroom' : t.len + ['\n'].length + ['\x00'].length ≤ m.bytes.length := by
      rw [h.holds.length]
      exact Nat.le_of_lt hroom
    have hend : Ends (fun bytes => Holds bytes (Error.endLine t))
        (poke m.bytes t.len (['\n'] ++ ['\x00'])) :=
      h.holds.write (by decide) (Nat.le_of_lt hroom) (endLine_chars hroom)
    rw [← poke_poke hroom'] at hend
    rw [← bind_assoc]
    exact hend.bind fun bytes hbytes => Ends.pure ⟨hbytes, h.sizes⟩
  · rw [if_neg (by omega), Error.endLine, dif_neg hroom]
    exact Ends.pure h

end Operations

section Bounded

/-- The bytes hold some text. -/
def Good (m : ErrorMemory) : Prop := ∃ t, Carries m t

variable {vsnprintf : Printf} (hvsnprintf : vsnprintf.Terminates) (message : Output)
include hvsnprintf

/-- What follows the header keeps the bytes good, whatever the header returned. -/
theorem writeMessage_good {printed : ErrorMemory × Int} (h : Good printed.1) :
    Ends Good (writeMessage vsnprintf message printed) := by
  obtain ⟨t, h⟩ := h
  refine (h.handle printed.2).bind ?_
  rintro checked ⟨hchecked, -⟩
  split
  · obtain ⟨t', -, hprinted⟩ := hchecked.printAtEnd hvsnprintf message
    refine hprinted.bind ?_
    rintro printed' ⟨hprinted', -⟩
    refine (hprinted'.handle printed'.2).bind ?_
    rintro checked' ⟨hchecked', -⟩
    exact hchecked'.endLine.mono fun _ hend => ⟨_, hend⟩
  · exact Ends.pure ⟨_, hchecked⟩

end Bounded

/-- **One report** keeps the bytes good. -/
theorem step_good {m : ErrorMemory} {i : Invocation} (hi : i.Terminates) (h : Good m) :
    Ends Good (step m i) := by
  obtain ⟨t, h⟩ := h
  obtain ⟨hsnprintf, hvsnprintf⟩ := hi
  obtain ⟨call, snprintf, vsnprintf⟩ := i
  cases call with
  | set report =>
      obtain ⟨t', -, hprinted⟩ := h.printAtStart hsnprintf
        ⟨header report.errorFile report.errorFunc report.errorLine, false⟩
      exact hprinted.bind fun printed hprinted =>
        writeMessage_good hvsnprintf report.message ⟨t', hprinted.1⟩
  | append report =>
      obtain ⟨t', -, hprinted⟩ := h.printAtEnd hsnprintf
        ⟨header report.errorFile report.errorFunc report.errorLine, false⟩
      exact hprinted.bind fun printed hprinted =>
        writeMessage_good hvsnprintf report.message ⟨t', hprinted.1⟩

/-- **No report leaves the buffer**: whatever is reported and whatever `snprintf` and `vsnprintf`
return, there is no fault, the 4096 bytes have a NUL, and no size was 0. -/
theorem run_bounded {calls : List Invocation} (hcalls : ∀ i ∈ calls, i.Terminates) :
    ∃ m, Transition.run step start calls = .ok m ∧ m.bytes.length = 4096 ∧ '\x00' ∈ m.bytes ∧
      ∀ size ∈ m.sizes, 1 ≤ size := by
  obtain ⟨m, hrun, t, hcarries⟩ := Transition.run_ok_of_meets (I := Good)
    (G := fun _ _ => True) (fun _ i hi h _ => step_good (hcalls i hi) h) ⟨_, start_carries⟩
    (Transition.Meets.of_forall (fun _ _ => trivial) _ _)
  exact ⟨m, hrun, hcarries.holds.length, hcarries.holds.nul_mem, hcarries.sizes⟩

/-- The call with the `snprintf` of the standard. -/
def standard (call : Call) : Invocation := ⟨call, CBuffer.snprintf, CBuffer.snprintf⟩

theorem standard_terminates (call : Call) : (standard call).Terminates :=
  ⟨snprintf_terminates, snprintf_terminates⟩

/-- A short report, one that does not fit, and one whose message fails. -/
def someCalls : List Call :=
  [.set ⟨listParser.1, listParser.2, 86, noNextCpu ['x', '\n']⟩,
    .append ⟨listParser.1, listParser.2, 86, noNextCpu (List.replicate 5000 'x')⟩,
    .append ⟨listParser.1, listParser.2, 86, ⟨[], true⟩⟩]

theorem run_bounded_someCalls :
    ∃ m, Transition.run step start (someCalls.map standard) = .ok m ∧ m.bytes.length = 4096 ∧
      '\x00' ∈ m.bytes ∧ ∀ size ∈ m.sizes, 1 ≤ size :=
  run_bounded fun i hi => by
    obtain ⟨call, -, rfl⟩ := List.mem_map.mp hi
    exact standard_terminates call

section Refinement

variable {m : ErrorMemory} {t : ErrorString}

/-- `snprintf` prints at the end what fits. -/
theorem Carries.snprintf (h : Carries m t) (out : Output) :
    Ends (fun printed => Carries printed.1 (t.print out) ∧ printed.2 = out.ret)
      (m.printAtEnd snprintf out) := by
  have hlt : t.len < errorLen := t.fits
  obtain ⟨t', ht', hprinted⟩ := h.printAtEnd snprintf_terminates out
  rw [upToNul_snprintf (by omega)] at ht'
  have heq : t' = t.print out := Text.eq_of_chars ht'
  rw [← heq]
  exact hprinted

theorem Carries.snprintfAtStart (h : Carries m t) (out : Output) :
    Ends (fun printed => Carries printed.1 ((Text.empty (by decide) : ErrorString).print out) ∧
        printed.2 = out.ret)
      (m.print CBuffer.snprintf 0 errorLen out) := by
  obtain ⟨t', ht', hprinted⟩ := h.printAtStart snprintf_terminates out
  rw [upToNul_snprintf (by decide)] at ht'
  have heq : t' = (Text.empty (by decide) : ErrorString).print out := Text.eq_of_chars ht'
  rw [← heq]
  exact hprinted

/-- After the header of a report, its message. -/
theorem writeMessage_carries {head : Output} (message : Output) {printed : ErrorMemory × Int}
    (h : Carries printed.1 (t.print head)) (hret : printed.2 = head.ret) :
    Ends (fun m' => Carries m' (writeError t head message))
      (writeMessage CBuffer.snprintf message printed) := by
  refine (h.handle printed.2).bind ?_
  rintro checked ⟨hchecked, hresult⟩
  rw [hret] at hchecked hresult
  rw [hresult, writeError]
  split
  · refine (hchecked.snprintf message).bind ?_
    rintro printed' ⟨hprinted', hret'⟩
    refine (hprinted'.handle printed'.2).bind ?_
    rintro checked' ⟨hchecked', -⟩
    rw [hret'] at hchecked'
    exact hchecked'.endLine
  · exact Ends.pure hchecked

theorem step_carries (h : Carries m t) (call : Call) :
    ∃ m' t', step m (standard call) = .ok m' ∧ call.step t = .ok t' ∧ Carries m' t' := by
  cases call with
  | set report =>
      obtain ⟨m', hstep, hcarries⟩ := (h.snprintfAtStart
        ⟨header report.errorFile report.errorFunc report.errorLine, false⟩).bind
        fun _ hprinted => writeMessage_carries report.message hprinted.1 hprinted.2
      exact ⟨m', _, hstep, rfl, hcarries⟩
  | append report =>
      obtain ⟨m', hstep, hcarries⟩ := (h.snprintf
        ⟨header report.errorFile report.errorFunc report.errorLine, false⟩).bind
        fun _ hprinted => writeMessage_carries report.message hprinted.1 hprinted.2
      exact ⟨m', _, hstep, rfl, hcarries⟩

/-- **The bytes refine the text**: with the `snprintf` of the standard, they hold after every
history of reports what the model of the text has computed. -/
theorem run_refines_text (calls : List Call) :
    ∃ m t, Transition.run step start (calls.map standard) = .ok m ∧
      Transition.run (fun t call => call.step t) (Text.empty (by decide)) calls = .ok t ∧
      Carries m t :=
  Transition.run_simulates standard (fun _ _ call h => step_carries h call) calls start_carries

end Refinement

end ErrorMemory

end Error
end X86Energy
