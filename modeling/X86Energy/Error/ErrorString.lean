import X86Energy.Library.CBuffer
import X86Energy.Library.CText
import X86Energy.Library.Transition

/-!
# The error string

Both calls that report an error print a header and a message into one buffer, and check after
each of the two whether there was room.  `x86_energy_set_error_string` begins at the start of
the buffer, `x86_energy_append_error_string` behind what is there.

The check adds what was printed to the length of the buffer, in which it is counted already.
`Room` is what is left for a header and a message under this check, and `keptWhole_iff` says
that a message that would fit is kept whole exactly if it has this room.  `run_eq_log` says the
same of a history of reports: while each has room, the buffer is a log without a bound.
-/

namespace X86Energy
namespace Error

open CInt CText CBuffer

/-- `ERROR_LEN`. -/
def errorLen : Nat := 4096

/-- `error_string`. -/
abbrev ErrorString : Type := Text errorLen

/-- `not_enough_space`. -/
def notEnoughSpace : ErrorString where
  chars := "Not enough space for writing error\n".toList
  noNul := by decide
  fits := by decide

/-- `internal_error`. -/
def internalError : ErrorString where
  chars := "Error while writing error (errorception)\n".toList
  noNul := by decide
  fits := by decide

/-- The text of `"Error in function %s at %s:%d: "`. -/
def header (errorFile errorFunc : CString) (errorLine : Int) : List Char :=
  "Error in function ".toList ++ (errorFunc.chars ++ (" at ".toList ++ (errorFile.chars ++
    (':' :: (decimal errorLine ++ [':', ' '])))))

/-- `x86_energy_handle_problematic_error_string`: the text, and the return code.  The sum is in
`size_t`, to which a negative return value of `snprintf` is converted. -/
def handleProblematicErrorString (printfReturn : Int) (errorString : ErrorString) :
    ErrorString × Int :=
  if 4096 ≤ (toSize printfReturn + errorString.len) % 18446744073709551616 then
    (notEnoughSpace, -1)
  else if printfReturn < 0 then (internalError, -2)
  else (errorString, 0)

/-- The newline behind the message, if it has room. -/
def endLine (errorString : ErrorString) : ErrorString :=
  if h : errorString.len + 2 < errorLen then
    errorString.extend ['\n'] (by decide) (by rw [List.length_singleton]; omega)
  else errorString

/-- A header and a message behind a text. -/
def writeError (errorString : ErrorString) (header message : Output) : ErrorString :=
  let printed := errorString.print header
  let checked := handleProblematicErrorString header.ret printed
  if checked.2 = 0 then
    let printed' := checked.1.print message
    endLine (handleProblematicErrorString message.ret printed').1
  else checked.1

/-- `x86_energy_set_error_string`: the old text does not matter. -/
def setErrorString (errorFile errorFunc : CString) (errorLine : Int) (message : Output)
    (_errorString : ErrorString) : ErrorString :=
  writeError (Text.empty (by decide)) ⟨header errorFile errorFunc errorLine, false⟩ message

/-- `x86_energy_append_error_string`. -/
def appendErrorString (errorFile errorFunc : CString) (errorLine : Int) (message : Output)
    (errorString : ErrorString) : ErrorString :=
  writeError errorString ⟨header errorFile errorFunc errorLine, false⟩ message

section Header

variable (errorFile errorFunc : CString) (errorLine : Int)

theorem nul_not_mem_decimal (x : Int) : '\x00' ∉ decimal x := by
  have hdigits : '\x00' ∉ Nat.toDigits 10 x.natAbs := by
    intro h
    exact absurd (Nat.isDigit_of_mem_toDigits (by decide) (by decide) h) (by decide)
  unfold decimal
  split
  · rw [List.mem_cons, not_or]
    exact ⟨by decide, hdigits⟩
  · exact hdigits

theorem nul_not_mem_header : '\x00' ∉ header errorFile errorFunc errorLine := by
  unfold header
  simp only [List.mem_append, List.mem_cons, not_or]
  exact ⟨by decide, errorFunc.noNul, by decide, errorFile.noNul, by decide,
    nul_not_mem_decimal errorLine, by decide, by decide, List.not_mem_nil⟩

/-- The fixed part of a header. -/
theorem header_length : 25 ≤ (header errorFile errorFunc errorLine).length := by
  unfold header
  simp only [List.length_append, List.length_cons]
  rw [show "Error in function ".toList.length = 18 from rfl, show " at ".toList.length = 4 from rfl]
  simp only [List.length_nil]
  omega

/-- A header has a letter that the text for a full buffer does not have. -/
theorem mem_header : 'E' ∈ header errorFile errorFunc errorLine :=
  List.mem_append_left _ (by decide)

end Header

section Check

variable (errorString : ErrorString) {out : Output}

/-- The check after an output that `int` can count. -/
theorem handle_of_ret {n : Nat} (hn : (n : Int) ≤ intMax) :
    handleProblematicErrorString n errorString =
      if errorLen ≤ n + errorString.len then (notEnoughSpace, -1) else (errorString, 0) := by
  have hlen : errorString.len < 4096 := errorString.fits
  unfold intMax at hn
  have hsum : (toSize n + errorString.len) % 18446744073709551616 = n + errorString.len := by
    rw [toSize_natCast (by omega), Nat.mod_eq_of_lt (by omega)]
  rw [handleProblematicErrorString, hsum]
  split
  · rename_i hfull
    rw [if_pos (show errorLen ≤ n + errorString.len from hfull)]
  · rename_i hroom
    rw [if_neg (show ¬ (n : Int) < 0 by omega),
      if_neg (show ¬ errorLen ≤ n + errorString.len from hroom)]

/-- **The check counts the output twice**, in the buffer and as the return value. -/
theorem handle_print_of_room (hfailed : out.failed = false) (hnul : '\x00' ∉ out.bytes)
    (hroom : errorString.len + 2 * out.bytes.length < errorLen) :
    handleProblematicErrorString out.ret (errorString.print out) = (errorString.print out, 0) := by
  unfold errorLen at hroom
  have hcount : (out.bytes.length : Int) ≤ intMax := by
    unfold intMax
    omega
  have hlen := Text.print_len (t := errorString) hnul (show _ < errorLen by unfold errorLen; omega)
  rw [Output.ret_eq hfailed hcount, handle_of_ret _ hcount, hlen, if_neg]
  unfold errorLen
  omega

theorem handle_print_of_full (hfailed : out.failed = false) (hnul : '\x00' ∉ out.bytes)
    (hcount : (out.bytes.length : Int) ≤ intMax)
    (hfull : errorLen ≤ errorString.len + 2 * out.bytes.length) :
    handleProblematicErrorString out.ret (errorString.print out) = (notEnoughSpace, -1) := by
  have hlt : errorString.len < errorLen := errorString.fits
  rw [Output.ret_eq hfailed hcount, handle_of_ret _ hcount, if_pos]
  by_cases hfits : errorString.len + out.bytes.length < errorLen
  · rw [Text.print_len hnul hfits]
    omega
  · have hlen := Text.print_len_full (t := errorString) hnul (Nat.le_of_not_lt hfits)
    omega

variable {errorString} in
theorem endLine_chars (h : errorString.len + 2 < errorLen) :
    (endLine errorString).chars = errorString.chars ++ ['\n'] := by
  rw [endLine, dif_pos h]
  rfl

end Check

section Write

/-- The text with its newline and its NUL fits the buffer. -/
def Fits (start head message : List Char) : Prop :=
  start.length + head.length + message.length + 2 ≤ errorLen

/-- The room that the code asks for: twice what it has just printed. -/
def Room (start head message : List Char) : Prop :=
  start.length + 2 * head.length < errorLen ∧
    start.length + head.length + 2 * message.length < errorLen

/-- The text for a full buffer stands alone in it, perhaps with one more newline. -/
def Replaced (errorString : ErrorString) : Prop :=
  errorString.chars = notEnoughSpace.chars ∨
    errorString.chars = notEnoughSpace.chars ++ ['\n']

/-- **A message is kept whole**: if it fits, it stands in the buffer behind its header, and it is
replaced only if it does not fit. -/
structure KeptWhole (start head message : List Char) (result : ErrorString) : Prop where
  whole : Fits start head message → result.chars = start ++ head ++ message ++ ['\n']
  replaced : Replaced result → ¬ Fits start head message

variable (errorString : ErrorString) (head message : Output)

/-- With room, everything is written. -/
theorem writeError_of_room (hhead : head.failed = false) (hnul : '\x00' ∉ head.bytes)
    (hlong : 2 < head.bytes.length) (hmessage : message.failed = false)
    (hnul' : '\x00' ∉ message.bytes) (hroom : Room errorString.chars head.bytes message.bytes) :
    (writeError errorString head message).chars =
      errorString.chars ++ head.bytes ++ message.bytes ++ ['\n'] := by
  obtain ⟨hroom₁, hroom₂⟩ := hroom
  have hfits : errorString.len + head.bytes.length < errorLen :=
    Nat.lt_of_le_of_lt (by change errorString.chars.length + _ ≤ _; omega) hroom₁
  have hlen := Text.print_len (t := errorString) hnul hfits
  have hfits' : (errorString.print head).len + message.bytes.length < errorLen := by
    rw [hlen]
    change errorString.chars.length + _ + _ < _
    omega
  have hchecked := handle_print_of_room errorString hhead hnul hroom₁
  have hchecked' := handle_print_of_room (errorString.print head) hmessage hnul'
    (by rw [hlen]; exact hroom₂)
  have hlen' := Text.print_len (t := errorString.print head) hnul' hfits'
  have hend : ((errorString.print head).print message).len + 2 < errorLen := by
    rw [hlen', hlen]
    change errorString.chars.length + _ + _ + 2 < _
    omega
  simp only [writeError, hchecked, hchecked', if_true]
  rw [endLine_chars hend, Text.print_chars hnul' hfits', Text.print_chars hnul hfits]

/-- Without room, what was there is lost. -/
theorem writeError_of_full (hhead : head.failed = false) (hnul : '\x00' ∉ head.bytes)
    (hcount : (head.bytes.length : Int) ≤ intMax) (hmessage : message.failed = false)
    (hnul' : '\x00' ∉ message.bytes) (hcount' : (message.bytes.length : Int) ≤ intMax)
    (hroom : ¬ Room errorString.chars head.bytes message.bytes) :
    Replaced (writeError errorString head message) := by
  by_cases hroom₁ : errorString.len + 2 * head.bytes.length < errorLen
  · have hfits : errorString.len + head.bytes.length < errorLen := by omega
    have hfull : errorLen ≤ (errorString.print head).len + 2 * message.bytes.length := by
      rw [Text.print_len hnul hfits]
      exact Nat.le_of_not_lt fun h => hroom ⟨hroom₁, h⟩
    have hchecked := handle_print_of_room errorString hhead hnul hroom₁
    have hchecked' := handle_print_of_full (errorString.print head) hmessage hnul' hcount' hfull
    simp only [writeError, hchecked, hchecked', if_true]
    exact .inr (endLine_chars (by decide))
  · have hchecked := handle_print_of_full errorString hhead hnul hcount (Nat.le_of_not_lt hroom₁)
    simp only [writeError, hchecked]
    exact .inl rfl

end Write

section Kept

variable {errorFile errorFunc : CString} {errorLine : Int} {message : Output}

/-- A text with a header is not the text for a full buffer. -/
theorem not_replaced {errorString : ErrorString} (h : 'E' ∈ errorString.chars) :
    ¬ Replaced errorString := by
  rintro (heq | heq) <;> rw [heq] at h <;> exact absurd h (by decide)

/-- **One report**: what fits is kept whole exactly if it has room. -/
theorem keptWhole_writeError (hfailed : message.failed = false) (hnul : '\x00' ∉ message.bytes)
    (errorString : ErrorString) :
    KeptWhole errorString.chars (header errorFile errorFunc errorLine) message.bytes
        (writeError errorString ⟨header errorFile errorFunc errorLine, false⟩ message) ↔
      (Fits errorString.chars (header errorFile errorFunc errorLine) message.bytes →
        Room errorString.chars (header errorFile errorFunc errorLine) message.bytes) := by
  have hlong := header_length errorFile errorFunc errorLine
  have hnul' := nul_not_mem_header errorFile errorFunc errorLine
  have hmem := mem_header errorFile errorFunc errorLine
  generalize header errorFile errorFunc errorLine = head at hlong hnul' hmem ⊢
  have hwhole : 'E' ∈ errorString.chars ++ head ++ message.bytes ++ ['\n'] := by
    simp [hmem]
  constructor
  · intro hkept hfits
    by_contra hroom
    have hfits' := hfits
    unfold Fits errorLen at hfits'
    have hreplaced := writeError_of_full errorString ⟨head, false⟩ message rfl hnul'
      (by unfold intMax; change (head.length : Int) ≤ _; omega) hfailed hnul
      (by unfold intMax; omega) hroom
    exact hkept.replaced hreplaced hfits
  · intro hroom
    have hchars : ∀ hfits : Fits errorString.chars head message.bytes,
        (writeError errorString ⟨head, false⟩ message).chars =
          errorString.chars ++ head ++ message.bytes ++ ['\n'] := fun hfits =>
      writeError_of_room errorString ⟨head, false⟩ message rfl hnul'
        (by change 2 < head.length; omega) hfailed hnul (hroom hfits)
    refine ⟨hchars, fun hreplaced hfits => not_replaced ?_ hreplaced⟩
    rw [hchars hfits]
    exact hwhole

/-- **Every message that fits is kept whole** exactly if the check finds room for it, and the
same behind what is in the buffer. -/
theorem keptWhole_iff (hfailed : message.failed = false) (hnul : '\x00' ∉ message.bytes)
    (errorString : ErrorString) :
    (KeptWhole [] (header errorFile errorFunc errorLine) message.bytes
        (setErrorString errorFile errorFunc errorLine message errorString) ↔
      (Fits [] (header errorFile errorFunc errorLine) message.bytes →
        Room [] (header errorFile errorFunc errorLine) message.bytes)) ∧
    (KeptWhole errorString.chars (header errorFile errorFunc errorLine) message.bytes
        (appendErrorString errorFile errorFunc errorLine message errorString) ↔
      (Fits errorString.chars (header errorFile errorFunc errorLine) message.bytes →
        Room errorString.chars (header errorFile errorFunc errorLine) message.bytes)) :=
  ⟨keptWhole_writeError hfailed hnul (Text.empty (by decide)),
    keptWhole_writeError hfailed hnul errorString⟩

/-- The name of a source file and of a function, as the macros pass them. -/
def listParser : CString × CString :=
  (⟨"parse_architecture.c".toList, by decide⟩, ⟨"read_file_long_list".toList, by decide⟩)

/-- What `"Could not read next CPU: %s"` makes of a text. -/
def noNextCpu (text : List Char) : Output := ⟨"Could not read next CPU: ".toList ++ text, false⟩

/-- A short message on an empty buffer. -/
theorem keptWhole_short :
    KeptWhole [] (header listParser.1 listParser.2 86) (noNextCpu ['x', '\n']).bytes
      (setErrorString listParser.1 listParser.2 86 (noNextCpu ['x', '\n'])
        (Text.empty (by decide))) :=
  (keptWhole_iff rfl (by decide) _).1.mpr fun _ => by
    unfold Room
    decide

/-- **Half of the buffer is not enough** for a message that takes half of it: a list file with
2040 bytes that are no number. -/
theorem not_keptWhole_half :
    ¬ KeptWhole [] (header listParser.1 listParser.2 86)
      (noNextCpu (List.replicate 2040 'x')).bytes
      (setErrorString listParser.1 listParser.2 86 (noNextCpu (List.replicate 2040 'x'))
        (Text.empty (by decide))) := by
  have hbytes : (noNextCpu (List.replicate 2040 'x')).bytes.length = 2065 := by
    unfold noNextCpu
    rw [List.length_append, List.length_replicate]
    rfl
  have hhead : (header listParser.1 listParser.2 86).length = 66 := rfl
  have hnul : '\x00' ∉ (noNextCpu (List.replicate 2040 'x')).bytes := by
    unfold noNextCpu
    rw [List.mem_append, not_or]
    exact ⟨by decide, fun h => absurd (List.eq_of_mem_replicate h) (by decide)⟩
  intro hkept
  refine hkept.replaced ?_ ?_
  · refine writeError_of_full _ _ _ rfl (nul_not_mem_header _ _ _) ?_ rfl hnul ?_ ?_
    · unfold intMax
      rw [hhead]
      decide
    · unfold intMax
      rw [hbytes]
      decide
    · rintro ⟨_, hroom⟩
      rw [hbytes, hhead] at hroom
      exact absurd hroom (by decide)
  · unfold Fits
    rw [hbytes, hhead]
    decide

end Kept

section Reports

/-- The arguments of one report. -/
structure Report where
  errorFile : CString
  errorFunc : CString
  errorLine : Int
  message : Output

/-- What a report is to leave in the buffer. -/
def Report.line (report : Report) : List Char :=
  header report.errorFile report.errorFunc report.errorLine ++ report.message.bytes ++ ['\n']

/-- A call of one of the two functions. -/
inductive Call
  | set (report : Report)
  | append (report : Report)

/-- The call on the buffer. -/
def Call.step (errorString : ErrorString) : Call → Except Empty ErrorString
  | .set report => .ok (setErrorString report.errorFile report.errorFunc report.errorLine
      report.message errorString)
  | .append report => .ok (appendErrorString report.errorFile report.errorFunc report.errorLine
      report.message errorString)

/-- The call on a log without a bound. -/
def Call.log (log : List Char) : Call → List Char
  | .set report => report.line
  | .append report => log ++ report.line

/-- The report behind a text has room, and nothing in it ends the text. -/
def Report.HasRoom (start : List Char) (report : Report) : Prop :=
  report.message.failed = false ∧ '\x00' ∉ report.message.bytes ∧
    Room start (header report.errorFile report.errorFunc report.errorLine) report.message.bytes

/-- The call has room in the buffer. -/
def Call.HasRoom (errorString : ErrorString) : Call → Prop
  | .set report => report.HasRoom []
  | .append report => report.HasRoom errorString.chars

/-- One report with room. -/
theorem Report.writeError_chars {report : Report} (errorString : ErrorString)
    (h : report.HasRoom errorString.chars) :
    (writeError errorString ⟨header report.errorFile report.errorFunc report.errorLine, false⟩
      report.message).chars = errorString.chars ++ report.line := by
  obtain ⟨hfailed, hnul, hroom⟩ := h
  have hlong := header_length report.errorFile report.errorFunc report.errorLine
  rw [writeError_of_room _ _ _ rfl (nul_not_mem_header _ _ _) (Nat.lt_of_lt_of_le (by decide) hlong)
    hfailed hnul hroom, Report.line]
  simp only [List.append_assoc]

/-- **The history of reports**: as long as every call has room, the buffer holds what a log
without a bound would hold. -/
theorem run_eq_log {errorString : ErrorString} {calls : List Call}
    (h : Transition.Meets Call.step Call.HasRoom errorString calls) :
    ∃ result, Transition.run Call.step errorString calls = .ok result ∧
      result.chars = calls.foldl Call.log errorString.chars := by
  refine Transition.run_refines (R := fun result log => result.chars = log) Call.log ?_ rfl h
  rintro s call - _ rfl hroom
  cases call with
  | set report => exact ⟨_, rfl, Report.writeError_chars (Text.empty _) hroom⟩
  | append report => exact ⟨_, rfl, Report.writeError_chars s hroom⟩

end Reports

end Error
end X86Energy
