import X86Energy.Library.CText

/-!
# Reading numbers and number lists from sysfs files

`readFileLong` and `readFileLongList` read a file into a 2048-byte stack buffer
and parse it there.  `read` writes only the bytes of the file, so the rest of
the buffer keeps what the stack held before: it is the parameter `stack`.

`readFileLongList` collects the numbers in an array that it grows with
`realloc`; sizes are computed in `size_t`, `*length` is an `int`.  A step that
C leaves undefined stops the model with `ParseStop.undefined`.
-/

namespace X86Energy
namespace ParseArchitecture

open CInt CText

/-- What `open` and `read` return for one file. -/
inductive FileRead
  | cannotOpen
  | cannotRead
  | bytes (content : List Char)
deriving DecidableEq, Repr

inductive ParseStop
  | undefined
  | outOfFuel
deriving DecidableEq, Repr

def bufferSize : Nat := 2048

/-- The buffer after `read`: the bytes of the file, then the old stack bytes. -/
def fillBuffer (stack content : List Char) : List Char :=
  content.take bufferSize ++ stack.drop content.length

/-- A file that fits the buffer is in it whole. -/
theorem fillBuffer_eq {stack content : List Char} (hlen : content.length < bufferSize) :
    fillBuffer stack content = content ++ stack.drop content.length := by
  rw [fillBuffer, List.take_of_length_le (Nat.le_of_lt hlen)]

def nul : Char := '\x00'

/-- `read_file_long`: the number, or `none` for return code 1. -/
def readFileLong (stack : List Char) : FileRead → Except ParseStop (Option Int)
  | .cannotOpen => .ok none
  | .cannotRead => .ok none
  | .bytes content =>
      match strtol (fillBuffer stack content) with
      | none => .error .undefined
      | some n => .ok (some n.value)

/-- Return code, `*result` (`none` is `NULL`) and `*length` of
`read_file_long_list`. -/
structure ListResult where
  ret : Int
  result : Option (List Int)
  length : Int
deriving DecidableEq, Repr

/-- What every error path returns after freeing the array. -/
def ListResult.failure : ListResult := ⟨1, none, 0⟩

/-- The array collected so far, `*length`, and the number of `realloc` calls. -/
structure ListState where
  result : Option (List Int)
  length : Int
  calls : Nat
deriving DecidableEq, Repr

section Realloc

-- whether the `n`-th call of `realloc` grants a request for so many bytes
variable (grant : Nat → Nat → Bool)

/-- `realloc(*result, bytes)`, as an array of `long`; `none` is `NULL`.
A request for no bytes frees the array, which the caller then frees again. -/
def reallocLongs (st : ListState) (bytes : Nat) : Except ParseStop (Option (List Int)) :=
  if bytes = 0 ∧ st.result.isSome then .error .undefined
  else if grant st.calls bytes then
    .ok (some ((st.result.getD []).take (bytes / 8) ++
      List.replicate (bytes / 8 - (st.result.getD []).length) 0))
  else .ok none

/-- `tmp[at] = value`. -/
def storeLong (tmp : List Int) (at' value : Int) : Except ParseStop (List Int) :=
  if 0 ≤ at' ∧ at' < tmp.length then .ok (tmp.set at'.toNat value) else .error .undefined

/-- The filling loop of the range case, for the next `n` numbers. -/
def storeRange : Nat → Int → Int → List Int → Except ParseStop (List Int)
  | 0, _, _, tmp => .ok tmp
  | n + 1, at', value, tmp =>
      match storeLong tmp at' value with
      | .ok tmp' => storeRange n (at' + 1) (value + 1) tmp'
      | .error e => .error e

/-- The case `','`: append one number.  `none` is a refused `realloc`. -/
def appendNumber (st : ListState) (readCpu : Int) : Except ParseStop (Option ListState) :=
  if st.length = intMax then .error .undefined
  else
    match reallocLongs grant st (toSize (st.length + 1) * 8 % 18446744073709551616) with
    | .error e => .error e
    | .ok none => .ok none
    | .ok (some tmp) =>
        match storeLong tmp st.length readCpu with
        | .error e => .error e
        | .ok tmp' => .ok (some ⟨some tmp', st.length + 1, st.calls + 1⟩)

/-- The case `'-'`: append `readCpu..endCpu`.  The subtraction and the additions in
`long`, and the last `i++` of the filling loop, must not overflow. -/
def appendRange (st : ListState) (readCpu endCpu : Int) :
    Except ParseStop (Option ListState) :=
  if ¬ IsLong (endCpu - readCpu) ∨ ¬ IsLong (endCpu - readCpu + 1) ∨
      ¬ IsLong (st.length + (endCpu - readCpu + 1)) then
    .error .undefined
  else
    match reallocLongs grant st
        (toSize (st.length + (endCpu - readCpu + 1)) * 8 % 18446744073709551616) with
    | .error e => .error e
    | .ok none => .ok none
    | .ok (some tmp) =>
        match storeRange (endCpu - readCpu + 1).toNat st.length readCpu tmp with
        | .error e => .error e
        | .ok tmp' =>
            if readCpu ≤ endCpu ∧ endCpu = longMax then .error .undefined
            else .ok (some ⟨some tmp', toInt32 (st.length + (endCpu - readCpu + 1)),
              st.calls + 1⟩)

/-- The `while` loop of `read_file_long_list`, one item a round. -/
def readItems : Nat → ListState → List Char → Except ParseStop ListResult
  | 0, _, _ => .error .outOfFuel
  | fuel + 1, st, currentPtr =>
      match strtol currentPtr with
      | none => .error .undefined
      | some readCpu =>
          if ¬ readCpu.converted ∨ readCpu.erange then .ok .failure
          else
            match readCpu.rest with
            | [] => .error .undefined
            | c :: next =>
                if c = ',' then
                  match appendNumber grant st readCpu.value with
                  | .error e => .error e
                  | .ok none => .ok .failure
                  | .ok (some st') => readItems fuel st' next
                -- the number read last is not appended on this exit
                else if c = '\n' ∨ c = nul then .ok ⟨0, st.result, st.length⟩
                else if c = '-' then
                  match strtol next with
                  | none => .error .undefined
                  | some endCpu =>
                      if ¬ endCpu.converted ∨ endCpu.erange then .ok .failure
                      else
                        match appendRange grant st readCpu.value endCpu.value with
                        | .error e => .error e
                        | .ok none => .ok .failure
                        | .ok (some st') =>
                            match endCpu.rest with
                            | [] => .error .undefined
                            | d :: next' =>
                                if d = '\n' ∨ d = nul then .ok ⟨0, st'.result, st'.length⟩
                                else if d = ',' then readItems fuel st' next'
                                else .ok .failure
                else .ok .failure

/-- `read_file_long_list`.  The first three exits return before `*result` and
`*length` are written. -/
def readFileLongList (stack : List Char) : FileRead → Except ParseStop ListResult
  | .cannotOpen => .ok .failure
  | .cannotRead => .ok .failure
  | .bytes content =>
      if bufferSize ≤ content.length then .ok .failure
      else
        match fillBuffer stack content with
        | [] => .error .undefined
        | c :: text =>
            if c = '\n' ∨ c = nul then .ok ⟨0, none, 0⟩
            else readItems grant (text.length + 2) ⟨none, 0, 0⟩ (c :: text)

end Realloc

end ParseArchitecture
end X86Energy
