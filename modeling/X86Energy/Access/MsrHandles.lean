import X86Energy.Access.Msr
import X86Energy.Library.Transition

/-!
# Which handles of the msr sources stay valid

A counter reads its CPU as long as the slot of the CPU holds an open descriptor of its
device.  The operations on one CPU leave the slots and descriptors of the others alone
(`Elsewhere`), but the counters of one CPU share a slot: closing one of them, or a
`setup` that fails after the device was opened, closes the descriptor under the others.
-/

namespace X86Energy
namespace Access

open Architecture ArchNode Descriptors

namespace MsrState

/-- The slot holds an open descriptor of the device of the CPU. -/
def Handled (s : MsrState) (cpu : Nat) : Prop := fileAt s.table (s.slot cpu) = some (.msr cpu)

/-- The slot holds nothing that other code opened. -/
def Owned (s : MsrState) (cpu : Nat) : Prop := s.slot cpu < 0 ∨ s.Handled cpu

/-- Everything that does not belong to a CPU is unchanged. -/
structure Elsewhere (cpu : Nat) (s s' : MsrState) : Prop where
  length : s'.fds.length = s.fds.length
  slots : ∀ x ≠ cpu, s'.slot x = s.slot x
  files : ∀ x ≠ cpu, ∀ fd, fileAt s.table fd = some (.msr x) → fileAt s'.table fd = some (.msr x)
  counters : s'.counters = s.counters
  foreignClosed : s'.foreignClosed = s.foreignClosed

theorem Elsewhere.refl (cpu : Nat) (s : MsrState) : Elsewhere cpu s s :=
  ⟨rfl, fun _ _ => rfl, fun _ _ _ h => h, rfl, rfl⟩

theorem Elsewhere.trans {cpu : Nat} {s s' s'' : MsrState} (h : Elsewhere cpu s s')
    (h' : Elsewhere cpu s' s'') : Elsewhere cpu s s'' where
  length := h'.length.trans h.length
  slots x hx := (h'.slots x hx).trans (h.slots x hx)
  files x hx fd hfd := h'.files x hx fd (h.files x hx fd hfd)
  counters := h'.counters.trans h.counters
  foreignClosed := h'.foreignClosed.trans h.foreignClosed

section Slots

theorem slot_set_self {fds : List Int} {cpu : Nat} (h : cpu < fds.length) (value : Int) :
    ((fds.set cpu value)[cpu]?).getD 0 = value := by
  rw [List.getElem?_set_self h, Option.getD_some]

theorem slot_set_ne {fds : List Int} {cpu x : Nat} (h : x ≠ cpu) (value : Int) :
    ((fds.set cpu value)[x]?).getD 0 = (fds[x]?).getD 0 := by
  rw [List.getElem?_set_ne (Ne.symm h)]

end Slots

section Operations

variable {s : MsrState} {cpu : Nat} (hcpu : cpu < s.fds.length)
include hcpu

/-- An `open` that fails. -/
theorem openDevice_fails {msr msrSafe : Bool} (h : (msr || msrSafe) = false) :
    (s.openDevice cpu msr msrSafe).2 = false ∧ (s.openDevice cpu msr msrSafe).1.slot cpu = -1 ∧
      Elsewhere cpu s (s.openDevice cpu msr msrSafe).1 := by
  have heq : s.openDevice cpu msr msrSafe = ({ s with fds := s.fds.set cpu (-1) }, false) := by
    rw [openDevice, h]
    rfl
  rw [heq]
  exact ⟨rfl, slot_set_self hcpu (-1), List.length_set, fun _ hx => slot_set_ne hx _,
    fun _ _ _ hfd => hfd, rfl, rfl⟩

/-- An `open` that succeeds takes a descriptor that was not open. -/
theorem openDevice_opens {msr msrSafe : Bool} (h : (msr || msrSafe) = true) :
    (s.openDevice cpu msr msrSafe).2 = true ∧ (s.openDevice cpu msr msrSafe).1.Handled cpu ∧
      fileAt s.table ((s.openDevice cpu msr msrSafe).1.slot cpu) = none ∧
      Elsewhere cpu s (s.openDevice cpu msr msrSafe).1 := by
  have heq : s.openDevice cpu msr msrSafe =
      ({ s with
          fds := s.fds.set cpu (lowestFree s.table)
          table := openFile s.table (.msr cpu) }, true) := by
    rw [openDevice, h]
    rfl
  have hslot : (s.openDevice cpu msr msrSafe).1.slot cpu = (lowestFree s.table : Int) := by
    rw [heq]
    exact slot_set_self hcpu _
  refine ⟨by rw [heq], ?_, ?_, ?_⟩
  · unfold Handled
    rw [hslot, heq, fileAt_openFile, if_pos rfl]
  · rw [hslot, fileAt_lowestFree]
  · rw [heq]
    refine ⟨List.length_set, fun _ hx => slot_set_ne hx _, fun x hx fd hfd => ?_, rfl, rfl⟩
    rw [fileAt_openFile, if_neg, hfd]
    rintro rfl
    rw [fileAt_lowestFree] at hfd
    cases hfd

/-- Closing a slot of one's own. -/
theorem closeSlot_owned (howned : s.Owned cpu) (value : Int) :
    (s.closeSlot cpu value).slot cpu = value ∧ Elsewhere cpu s (s.closeSlot cpu value) := by
  refine ⟨slot_set_self hcpu value, List.length_set, fun _ hx => slot_set_ne hx _,
    fun x hx fd hfd => ?_, rfl, ?_⟩
  · rw [closeSlot, fileAt_closeFile, if_neg, hfd]
    rintro rfl
    rcases howned with hneg | hhandled
    · have := nonneg_of_fileAt hfd
      omega
    · unfold Handled at hhandled
      rw [hfd] at hhandled
      exact hx (File.msr.inj (Option.some.inj hhandled))
  · have hnot : fileAt s.table (s.slot cpu) ≠ some .foreign := by
      rcases howned with hneg | hhandled
      · intro hfd
        have := nonneg_of_fileAt hfd
        omega
      · unfold Handled at hhandled
        rw [hhandled]
        simp
    simp [closeSlot, hnot]

/-- What the search for a unit may do to the slot: nothing if it is positive, and
otherwise it stays as it was or ends closed. -/
structure UnitKeeps (cpu : Nat) (s s' : MsrState) : Prop where
  elsewhere : Elsewhere cpu s s'
  owned : s'.Owned cpu
  positive : 0 < s.slot cpu → s'.Handled cpu

theorem getDefaultUnit_keeps (hhandled : s.Handled cpu) (o : SetupOutcome) :
    UnitKeeps cpu s (s.getDefaultUnit cpu o).1 := by
  have hsame : UnitKeeps cpu s s := ⟨.refl cpu s, .inr hhandled, fun _ => hhandled⟩
  unfold getDefaultUnit
  by_cases hcached : s.defaultUnit.positive = true
  · rw [if_pos hcached]
    exact hsame
  · rw [if_neg hcached]
    by_cases hslot : s.slot cpu ≤ 0
    · simp only [if_pos hslot]
      cases hopen : (o.unitOpensMsr || o.unitOpensMsrSafe) with
      | false =>
          obtain ⟨hfail, hneg, helse⟩ := openDevice_fails hcpu hopen
          rw [hfail]
          exact ⟨helse, .inl (by simp [hneg]), fun hpos => by omega⟩
      | true =>
          obtain ⟨hok, hnew, _, helse⟩ := openDevice_opens hcpu hopen
          rw [hok]
          have hclose := closeSlot_owned (s := (s.openDevice cpu o.unitOpensMsr
            o.unitOpensMsrSafe).1) (by rw [helse.length]; exact hcpu) (.inr hnew) (-1)
          have hkeeps : UnitKeeps cpu s
              ((s.openDevice cpu o.unitOpensMsr o.unitOpensMsrSafe).1.closeSlot cpu (-1)) :=
            ⟨helse.trans hclose.2, .inl (by rw [hclose.1]; decide), fun hpos => by omega⟩
          simp only [Bool.not_true, Bool.false_eq_true, if_false]
          split
          · exact hkeeps
          · exact ⟨⟨hkeeps.elsewhere.length, hkeeps.elsewhere.slots, hkeeps.elsewhere.files,
              hkeeps.elsewhere.counters, hkeeps.elsewhere.foreignClosed⟩, hkeeps.owned,
              hkeeps.positive⟩
    · simp only [if_neg hslot, Bool.not_true, Bool.false_eq_true, if_false]
      split
      · exact hsame
      · exact ⟨⟨rfl, fun _ _ => rfl, fun _ _ _ h => h, rfl, rfl⟩, .inr hhandled,
          fun _ => hhandled⟩

theorem getDramUnit_keeps (hhandled : s.Handled cpu) (host : Host) (o : SetupOutcome) :
    UnitKeeps cpu s (s.getDramUnit host cpu o).1 := by
  have hsame : UnitKeeps cpu s s := ⟨.refl cpu s, .inr hhandled, fun _ => hhandled⟩
  unfold getDramUnit
  split
  · exact hsame
  · split
    · exact hsame
    · split
      · exact ⟨⟨rfl, fun _ _ => rfl, fun _ _ _ h => h, rfl, rfl⟩, .inr hhandled,
          fun _ => hhandled⟩
      · have hkeeps := getDefaultUnit_keeps hcpu hhandled o
        exact ⟨⟨hkeeps.elsewhere.length, hkeeps.elsewhere.slots, hkeeps.elsewhere.files,
          hkeeps.elsewhere.counters, hkeeps.elsewhere.foreignClosed⟩, hkeeps.owned,
          hkeeps.positive⟩

/-- The end of `setup`: a counter with a handle, or a closed slot. -/
theorem addCounter_cases (howned : s.Owned cpu) (reg : Nat) (unit : EnergyUnit)
    (o : SetupOutcome) :
    (s.Handled cpu ∧ ∃ counter : MsrCounter, counter.cpuId = cpu ∧
        s.addCounter cpu reg unit o = { s with counters := s.counters ++ [counter] }) ∨
      ((s.addCounter cpu reg unit o).slot cpu = 0 ∧
        Elsewhere cpu s (s.addCounter cpu reg unit o) ∧
        ¬ (s.Handled cpu ∧ o.register.isSome ∧ o.allocates ∧ o.startsThread)) := by
  obtain ⟨hslot, helse⟩ := closeSlot_owned hcpu howned 0
  have hfile : s.Handled cpu ∨ s.pread cpu o.register = none := by
    rcases howned with hneg | hhandled
    · right
      unfold pread fileAt
      rw [if_pos hneg]
    · exact .inl hhandled
  unfold addCounter
  cases hread : s.pread cpu o.register with
  | none =>
      refine .inr ⟨hslot, helse, ?_⟩
      rintro ⟨hhandled, hregister, _⟩
      unfold pread at hread
      unfold Handled at hhandled
      rw [hhandled] at hread
      simp only at hread
      rw [hread] at hregister
      cases hregister
  | some reading =>
      have hhandled := hfile.resolve_right (by rw [hread]; simp)
      cases halloc : o.allocates with
      | false => exact .inr ⟨hslot, helse, fun h => by simp at h⟩
      | true =>
          cases hthread : o.startsThread with
          | false => exact .inr ⟨hslot, helse, fun h => by simp at h⟩
          | true => exact .inl ⟨hhandled, _, rfl, rfl⟩

end Operations

end MsrState

/-- Every counter that is not closed has a handle, and the source closed nothing that it
did not open. -/
def HandlesValid (s : MsrState) : Prop :=
  (∀ counter ∈ s.counters, s.Handled counter.cpuId) ∧ s.foreignClosed = false

/-- A counter of this CPU is not closed yet. -/
def InUse (s : MsrState) (cpu : Nat) : Prop := ∃ counter ∈ s.counters, counter.cpuId = cpu

/-- A positive slot holds a handle. -/
def SlotsOpen (s : MsrState) : Prop := ∀ cpu, 0 < s.slot cpu → s.Handled cpu

/-- The invariant of the calls that disturb no handle. -/
structure HandlesKept (s : MsrState) : Prop where
  slots : SlotsOpen s
  counters : ∀ counter ∈ s.counters, counter.cpuId < s.fds.length
  valid : HandlesValid s

section Setup

open MsrState

variable {s : MsrState} {cpu : Nat}

theorem MsrState.Elsewhere.handled {s' : MsrState} (helse : Elsewhere cpu s s') {x : Nat}
    (hx : x ≠ cpu) (h : s.Handled x) : s'.Handled x := by
  unfold Handled
  rw [helse.slots x hx]
  exact helse.files x hx _ h

theorem SlotsOpen.of_elsewhere {s' : MsrState} (h : SlotsOpen s) (helse : Elsewhere cpu s s')
    (hslot : 0 < s'.slot cpu → s'.Handled cpu) : SlotsOpen s' := by
  intro x hpos
  by_cases hx : x = cpu
  · subst hx
    exact hslot hpos
  · exact helse.handled hx (h x (by rwa [← helse.slots x hx]))

theorem HandlesKept.of_elsewhere {s' : MsrState} (h : HandlesKept s) (helse : Elsewhere cpu s s')
    (hslot : 0 < s'.slot cpu → s'.Handled cpu) (huse : InUse s cpu → s'.Handled cpu) :
    HandlesKept s' := by
  refine ⟨h.slots.of_elsewhere helse hslot, ?_, ?_, by rw [helse.foreignClosed, h.valid.2]⟩
  · rw [helse.counters, helse.length]
    exact h.counters
  · rw [helse.counters]
    intro counter hcounter
    by_cases hx : counter.cpuId = cpu
    · rw [hx]
      exact huse ⟨counter, hcounter, hx⟩
    · exact helse.handled hx (h.valid.1 counter hcounter)

/-- What the device operations have to deliver if a counter of the CPU is in use. -/
def Undisturbed (s : MsrState) (cpu : Nat) (reg : Option Nat) (o : SetupOutcome) : Prop :=
  (0 < s.slot cpu ∨ o.opensMsr ∨ o.opensMsrSafe) ∧
    (reg ≠ none → o.register.isSome ∧ o.allocates ∧ o.startsThread)

section Cases

variable (hcpu : cpu < s.fds.length) (hslots : 0 < s.slot cpu → s.Handled cpu)
include hcpu hslots

/-- The device is open after `ensureOpen`, or the slot is -1.  A handle that was there
before is found or replaced by a positive slot. -/
theorem ensureOpen_cases (o : SetupOutcome) :
    ((s.ensureOpen cpu o).2 = true ∧ (s.ensureOpen cpu o).1.Handled cpu ∧
        Elsewhere cpu s (s.ensureOpen cpu o).1 ∧
        (s.Handled cpu → 0 < (s.ensureOpen cpu o).1.slot cpu)) ∨
      ((s.ensureOpen cpu o).2 = false ∧ (s.ensureOpen cpu o).1.slot cpu = -1 ∧
        Elsewhere cpu s (s.ensureOpen cpu o).1 ∧
        ¬ (0 < s.slot cpu ∨ o.opensMsr ∨ o.opensMsrSafe)) := by
  unfold ensureOpen
  by_cases hslot : s.slot cpu ≤ 0
  · rw [if_pos hslot]
    cases hopen : (o.opensMsr || o.opensMsrSafe) with
    | false =>
        obtain ⟨hfail, hneg, helse⟩ := openDevice_fails hcpu hopen
        refine .inr ⟨hfail, hneg, helse, ?_⟩
        rintro (hpos | hopens)
        · omega
        · rw [← Bool.or_eq_true, hopen] at hopens
          cases hopens
    | true =>
        obtain ⟨hok, hnew, hfree, helse⟩ := openDevice_opens hcpu hopen
        refine .inl ⟨hok, hnew, helse, fun hold => ?_⟩
        unfold Handled at hold hnew
        have hold0 := nonneg_of_fileAt hold
        have hnew0 := nonneg_of_fileAt hnew
        have hzero : s.slot cpu = 0 := by omega
        by_contra hpos
        have hzero' : (s.openDevice cpu o.opensMsr o.opensMsrSafe).1.slot cpu = 0 := by omega
        rw [hzero', ← hzero, hold] at hfree
        cases hfree
  · rw [if_neg hslot]
    have hpos : 0 < s.slot cpu := Int.not_le.mp hslot
    exact .inl ⟨rfl, hslots hpos, .refl cpu s, fun _ => hpos⟩

/-- **What a `setup` does** once its CPU is known: it adds a counter with a handle, or
none; and then a handle is only lost if the `setup` was disturbed. -/
theorem setupOn_cases {reg : Option Nat} {unitOf : MsrState → MsrState × EnergyUnit}
    {o : SetupOutcome}
    (hunit : ∀ s : MsrState, cpu < s.fds.length → s.Handled cpu → UnitKeeps cpu s (unitOf s).1) :
    (∃ (s₁ : MsrState) (counter : MsrCounter), Elsewhere cpu s s₁ ∧ s₁.Handled cpu ∧
        counter.cpuId = cpu ∧
        s.setupOn cpu reg unitOf o = { s₁ with counters := s₁.counters ++ [counter] }) ∨
      (Elsewhere cpu s (s.setupOn cpu reg unitOf o) ∧
        (0 < (s.setupOn cpu reg unitOf o).slot cpu → (s.setupOn cpu reg unitOf o).Handled cpu) ∧
        (s.Handled cpu → Undisturbed s cpu reg o → (s.setupOn cpu reg unitOf o).Handled cpu)) := by
  unfold setupOn
  rcases ensureOpen_cases hcpu hslots o with ⟨hok, hhandled, helse, hpos⟩ |
    ⟨hfail, hneg, helse, hnot⟩
  · simp only [hok, Bool.not_true, Bool.false_eq_true, if_false]
    generalize (s.ensureOpen cpu o).1 = s₁ at hhandled helse hpos
    cases reg with
    | none => exact .inr ⟨helse, fun _ => hhandled, fun _ _ => hhandled⟩
    | some reg =>
        have hcpu₁ : cpu < s₁.fds.length := by rw [helse.length]; exact hcpu
        have hkeeps := hunit s₁ hcpu₁ hhandled
        simp only
        generalize (unitOf s₁).1 = s₂ at hkeeps
        have hcpu₂ : cpu < s₂.fds.length := by rw [hkeeps.elsewhere.length]; exact hcpu₁
        rcases addCounter_cases hcpu₂ hkeeps.owned reg (unitOf s₁).2 o with
          ⟨hhandled₂, counter, hid, hadd⟩ | ⟨hslot, helse₂, hnot⟩
        · exact .inl ⟨s₂, counter, helse.trans hkeeps.elsewhere, hhandled₂, hid, hadd⟩
        · refine .inr ⟨helse.trans (hkeeps.elsewhere.trans helse₂), fun hpos => by omega,
            fun hold hfine => ?_⟩
          exact absurd ⟨hkeeps.positive (hpos hold), hfine.2 (by simp)⟩ hnot
  · simp only [hfail, Bool.not_false, if_true]
    exact .inr ⟨helse, fun hpos => by omega, fun _ hfine => absurd hfine.1 hnot⟩

end Cases

/-- **A `setup` keeps the handles** if no counter of its CPU is in use or if it is not
disturbed. -/
theorem setupOn_keeps (h : HandlesKept s) (hcpu : cpu < s.fds.length) {reg : Option Nat}
    {unitOf : MsrState → MsrState × EnergyUnit} {o : SetupOutcome}
    (hunit : ∀ s : MsrState, cpu < s.fds.length → s.Handled cpu → UnitKeeps cpu s (unitOf s).1)
    (hfine : InUse s cpu → Undisturbed s cpu reg o) :
    HandlesKept (s.setupOn cpu reg unitOf o) := by
  rcases setupOn_cases hcpu (h.slots cpu) hunit with
    ⟨s₁, counter, helse, hhandled, hid, heq⟩ | ⟨helse, hslot, hkeep⟩
  · have hkept := h.of_elsewhere helse (fun _ => hhandled) fun _ => hhandled
    rw [heq]
    refine ⟨hkept.slots, fun c hc => ?_, fun c hc => ?_, hkept.valid.2⟩
    · rcases List.mem_append.mp hc with hc | hc
      · exact hkept.counters c hc
      · rw [List.mem_singleton.mp hc, hid]
        change cpu < s₁.fds.length
        rw [helse.length]
        exact hcpu
    · rcases List.mem_append.mp hc with hc | hc
      · exact hkept.valid.1 c hc
      · rw [List.mem_singleton.mp hc, hid]
        exact hhandled
  · refine h.of_elsewhere helse hslot fun huse => hkeep ?_ (hfine huse)
    obtain ⟨counter, hcounter, rfl⟩ := huse
    exact h.valid.1 counter hcounter

end Setup

section AnyRun

open MsrState

variable {host : Host} {arch : ArchNode}

/-- The level at which a source looks for a CPU, and the register, for a counter type. -/
def MsrSource.asked : MsrSource → Counter → Option (Granularity × Option Nat)
  | rapl, counterType => some (.socket, Msr.register counterType)
  | raplFam23, counterType => (MsrFam23.register counterType).map fun chosen =>
      (chosen.1, some chosen.2)

/-- The function of a source for the unit. -/
def MsrSource.unitOf (source : MsrSource) (host : Host) (counterType : Counter) (cpu : Nat)
    (o : SetupOutcome) (s : MsrState) : MsrState × EnergyUnit :=
  match source with
  | rapl => if counterType = .dram then s.getDramUnit host cpu o else s.getDefaultUnit cpu o
  | raplFam23 => s.getDefaultUnit cpu o

/-- The two `setup`s in terms of the register and the function for the unit. -/
theorem MsrSource.setup_eq (source : MsrSource) (host : Host) (arch : ArchNode) (s : MsrState)
    (counterType : Counter) (index : Nat) (o : SetupOutcome) :
    source.step host arch s (.setup counterType index o) =
      match source.asked counterType with
      | none => .ok s
      | some (granularity, reg) =>
          match getTestCpu arch granularity index with
          | none => .error .missingChild
          | some cpu =>
              if cpu < 0 then .ok s
              else if s.fds.length ≤ cpu.toNat then .error .outOfBounds
              else
                .ok (s.setupOn cpu.toNat reg (source.unitOf host counterType cpu.toNat o) o) := by
  cases source with
  | rapl => rfl
  | raplFam23 =>
      have hasked : MsrSource.raplFam23.asked counterType =
          (MsrFam23.register counterType).map fun chosen => (chosen.1, some chosen.2) := rfl
      change MsrFam23.setup arch s counterType index o = _
      rw [hasked]
      unfold MsrFam23.setup
      cases MsrFam23.register counterType <;> rfl

theorem MsrSource.unitKeeps (source : MsrSource) (counterType : Counter) (o : SetupOutcome)
    {s : MsrState} {cpu : Nat} (hlt : cpu < s.fds.length) (hhandled : s.Handled cpu) :
    UnitKeeps cpu s (source.unitOf host counterType cpu o s).1 := by
  cases source with
  | rapl =>
      unfold MsrSource.unitOf
      dsimp only
      split
      · exact getDramUnit_keeps hlt hhandled host o
      · exact getDefaultUnit_keeps hlt hhandled o
  | raplFam23 => exact getDefaultUnit_keeps hlt hhandled o

variable (host arch) in
/-- **What a call can do**: nothing, or a `setupOn` for the CPU of the index, or it replaces the
reader of a counter, or it closes the slot of one. -/
inductive MsrSource.StepCases (source : MsrSource) (s : MsrState) : MsrCall → MsrState → Prop
  | idle (call : MsrCall) : StepCases source s call s
  | setup {counterType : Counter} {index : Nat} {o : SetupOutcome} {granularity : Granularity}
      {reg : Option Nat} {cpu : Int} (hasked : source.asked counterType = some (granularity, reg))
      (hcpu : getTestCpu arch granularity index = some cpu) (hneg : ¬ cpu < 0)
      (hlt : cpu.toNat < s.fds.length) :
      StepCases source s (.setup counterType index o)
        (s.setupOn cpu.toNat reg (source.unitOf host counterType cpu.toNat o) o)
  | read {position : Nat} {delivered : Option UInt64} {counter : MsrCounter}
      (hget : s.counters[position]? = some counter) (hlt : counter.cpuId < s.fds.length)
      (reader : Reader) :
      StepCases source s (.read position delivered)
        { s with counters := s.counters.set position { counter with toReader := reader } }
  | close {position : Nat} {counter : MsrCounter} (hget : s.counters[position]? = some counter)
      (hlt : counter.cpuId < s.fds.length) :
      StepCases source s (.close position)
        { s.closeSlot counter.cpuId 0 with counters := s.counters.eraseIdx position }

theorem MsrSource.step_cases {source : MsrSource} {s s' : MsrState} {call : MsrCall}
    (h : source.step host arch s call = .ok s') : source.StepCases host arch s call s' := by
  cases call with
  | setup counterType index o =>
      rw [MsrSource.setup_eq] at h
      split at h
      · cases h
        exact .idle _
      · rename_i hasked
        split at h
        · cases h
        · rename_i hcpu
          split at h
          · cases h
            exact .idle _
          · rename_i hneg
            split at h
            · cases h
            · rename_i hlen
              cases h
              exact .setup hasked hcpu hneg (Nat.not_le.mp hlen)
  | read position delivered =>
      have hread : ∀ read, s.doRead read position delivered = .ok s' →
          source.StepCases host arch s (.read position delivered) s' := by
        intro read h
        unfold MsrState.doRead at h
        split at h
        · cases h
          exact .idle _
        · rename_i hget
          split at h
          · cases h
          · rename_i hlen
            cases h
            exact .read hget (Nat.not_le.mp hlen) _
      cases source <;> exact hread _ h
  | close position =>
      have hclose : s.doClose position = .ok s' →
          source.StepCases host arch s (.close position) s' := by
        intro h
        unfold doClose at h
        split at h
        · cases h
          exact .idle _
        · rename_i hget
          split at h
          · cases h
          · rename_i hlen
            cases h
            exact .close hget (Nat.not_le.mp hlen)
      cases source <;> exact hclose h

/-- Closing a slot leaves the other positive slots alone, whatever the slot held. -/
theorem SlotsOpen.closeSlot {s : MsrState} (h : SlotsOpen s) {cpu : Nat}
    (hcpu : cpu < s.fds.length) : SlotsOpen (s.closeSlot cpu 0) := by
  intro x hpos
  have hx : x ≠ cpu := by
    rintro rfl
    unfold slot MsrState.closeSlot at hpos
    simp only [slot_set_self hcpu, Int.lt_irrefl] at hpos
  have hslot : (s.closeSlot cpu 0).slot x = s.slot x := slot_set_ne hx 0
  rw [hslot] at hpos
  unfold Handled
  rw [hslot, MsrState.closeSlot, fileAt_closeFile, if_neg, h x hpos]
  intro hsame
  have hother := h cpu (hsame ▸ hpos)
  unfold Handled at hother
  rw [← hsame, h x hpos] at hother
  exact hx (File.msr.inj (Option.some.inj hother))

theorem init_some {s s' : MsrState} {maxEntries : Int} {allocates : Bool}
    (h : s.init maxEntries allocates = some s') :
    ∃ n, s' = { s with fds := List.replicate n 0 } := by
  unfold MsrState.init at h
  split at h
  · cases h
  · split at h
    · cases h
    · cases h
      exact ⟨_, rfl⟩

theorem init_slotsOpen {s s' : MsrState} {maxEntries : Int} {allocates : Bool}
    (h : s.init maxEntries allocates = some s') : SlotsOpen s' := by
  obtain ⟨n, rfl⟩ := init_some h
  intro cpu hpos
  exfalso
  unfold slot at hpos
  rw [List.getElem?_replicate] at hpos
  split at hpos
  · exact absurd hpos (by decide)
  · exact absurd hpos (by decide)

/-- Every call leaves handles in the positive slots. -/
theorem MsrSource.step_slotsOpen {source : MsrSource} {s s' : MsrState} {call : MsrCall}
    (h : SlotsOpen s) (hstep : source.step host arch s call = .ok s') : SlotsOpen s' := by
  cases MsrSource.step_cases hstep with
  | idle => exact h
  | setup _ _ _ hlt =>
      rcases setupOn_cases hlt (h _) (fun s hlt hhandled => source.unitKeeps _ _ hlt hhandled) with
        ⟨s₁, counter, helse, hhandled, _, heq⟩ | ⟨helse, hslot, _⟩
      · have hslots : SlotsOpen s₁ := h.of_elsewhere helse fun _ => hhandled
        rw [heq]
        exact hslots
      · exact h.of_elsewhere helse hslot
  | read => exact h
  | close _ hlt => exact h.closeSlot hlt

/-- The states of a source after `init` and some calls. -/
def Reachable (host : Host) (arch : ArchNode) (source : MsrSource) (s : MsrState) : Prop :=
  ∃ (s₀ s₁ : MsrState) (maxEntries : Int) (allocates : Bool) (calls : List MsrCall),
    s₀.init maxEntries allocates = some s₁ ∧
      Transition.run (source.step host arch) s₁ calls = .ok s

/-- **The slots in every run**: a positive slot is an open descriptor of its CPU, also
after calls that closed the handles of other counters. -/
theorem Reachable.slotsOpen {source : MsrSource} {s : MsrState}
    (h : Reachable host arch source s) : SlotsOpen s := by
  obtain ⟨s₀, s₁, maxEntries, allocates, calls, hinit, hrun⟩ := h
  exact Transition.run_invariant
    (fun _ _ _ _ hslots hstep => MsrSource.step_slotsOpen hslots hstep)
    (init_slotsOpen hinit) hrun

/-- Without a register there is no counter. -/
theorem counters_setupOn_none (s : MsrState) (cpu : Nat)
    (unitOf : MsrState → MsrState × EnergyUnit) (o : SetupOutcome) :
    (s.setupOn cpu none unitOf o).counters = s.counters := by
  have hopen : (s.ensureOpen cpu o).1.counters = s.counters := by
    unfold ensureOpen openDevice
    split
    · split <;> rfl
    · rfl
  unfold setupOn
  dsimp only
  split <;> exact hopen

/-- A `setup` that is successful opens or finds a handle for the new counter. -/
theorem MsrSource.setup_handled {source : MsrSource} {s s' : MsrState} (h : SlotsOpen s)
    {counterType : Counter} {index : Nat} {o : SetupOutcome} {counter : MsrCounter}
    (hstep : source.step host arch s (.setup counterType index o) = .ok s')
    (hcounter : s'.counters = s.counters ++ [counter]) :
    s'.Handled counter.cpuId ∧ ∃ granularity reg cpu,
      source.asked counterType = some (granularity, some reg) ∧
      getTestCpu arch granularity index = some cpu ∧ ¬ cpu < 0 ∧ counter.cpuId = cpu.toNat := by
  have hsame : ∀ s' : MsrState, s'.counters = s.counters →
      s'.counters ≠ s.counters ++ [counter] := by
    intro s' hs' hnew
    have hlen := congrArg List.length (hs'.symm.trans hnew)
    rw [List.length_append, List.length_singleton] at hlen
    omega
  cases MsrSource.step_cases hstep with
  | idle => exact absurd hcounter (hsame _ rfl)
  | @setup _ _ _ granularity reg cpu hasked hcpu hneg hlt =>
      cases reg with
      | none => exact absurd hcounter (hsame _ (counters_setupOn_none s cpu.toNat _ o))
      | some reg =>
          rcases @setupOn_cases s cpu.toNat hlt (h _) (some reg) _ o
              (fun s hlt hhandled => source.unitKeeps counterType o hlt hhandled) with
            ⟨s₁, counter', helse, hhandled, hid, heq⟩ | ⟨helse, _, _⟩
          · rw [heq] at hcounter ⊢
            change s₁.counters ++ [counter'] = _ at hcounter
            rw [helse.counters] at hcounter
            obtain rfl : counter' = counter := by simpa using hcounter
            refine ⟨?_, granularity, reg, cpu, hasked, hcpu, hneg, hid⟩
            rw [hid]
            exact hhandled
          · exact absurd hcounter (hsame _ helse.counters)

end AnyRun

section Calls

open MsrState

variable (host : Host) (arch : ArchNode)

/-- Positions in the list of counters after one was taken out. -/
theorem mem_eraseIdx {α : Type*} {l : List α} {k : Nat} {x : α} (h : x ∈ l.eraseIdx k) :
    ∃ j ≠ k, l[j]? = some x := by
  obtain ⟨j, hj⟩ := List.mem_iff_getElem?.mp h
  rw [List.getElem?_eraseIdx] at hj
  split at hj
  · exact ⟨j, by omega, hj⟩
  · exact ⟨j + 1, by omega, hj⟩

/-- **Closing a counter keeps the handles** if no other counter of the CPU is in use. -/
theorem doClose_keeps {s : MsrState} (h : HandlesKept s) {position : Nat}
    (hfine : ∀ counter, s.counters[position]? = some counter → ∀ other ≠ position,
      ∀ counter', s.counters[other]? = some counter' → counter'.cpuId ≠ counter.cpuId) :
    ∃ s', s.doClose position = .ok s' ∧ HandlesKept s' := by
  unfold doClose
  cases hget : s.counters[position]? with
  | none => exact ⟨s, rfl, h⟩
  | some counter =>
      have hmem := List.mem_of_getElem? hget
      have hcpu := h.counters counter hmem
      obtain ⟨hslot, helse⟩ := closeSlot_owned hcpu (.inr (h.valid.1 counter hmem)) 0
      simp only [if_neg (Nat.not_le.mpr hcpu)]
      have hothers : ∀ c ∈ s.counters.eraseIdx position, c ∈ s.counters ∧
          c.cpuId ≠ counter.cpuId := by
        intro c hc
        obtain ⟨j, hj, hget'⟩ := mem_eraseIdx hc
        exact ⟨List.mem_of_getElem? hget', hfine counter hget j hj c hget'⟩
      refine ⟨_, rfl, ?_, fun c hc => ?_, fun c hc => ?_, ?_⟩
      · have hslots : SlotsOpen (s.closeSlot counter.cpuId 0) :=
          h.slots.of_elsewhere helse fun hpos => by omega
        exact hslots
      · change c.cpuId < (s.closeSlot counter.cpuId 0).fds.length
        rw [helse.length]
        exact h.counters c (hothers c hc).1
      · exact helse.handled (hothers c hc).2 (h.valid.1 c (hothers c hc).1)
      · exact helse.foreignClosed.trans h.valid.2

/-- Reading a counter keeps the handles. -/
theorem doRead_keeps {s : MsrState} (h : HandlesKept s)
    (read : Option UInt64 → Reader → Float × Reader) (position : Nat)
    (delivered : Option UInt64) :
    ∃ s', s.doRead read position delivered = .ok s' ∧ HandlesKept s' := by
  unfold MsrState.doRead
  cases hget : s.counters[position]? with
  | none => exact ⟨s, rfl, h⟩
  | some counter =>
      have hmem := List.mem_of_getElem? hget
      simp only [if_neg (Nat.not_le.mpr (h.counters counter hmem))]
      have hids : ∀ reader : Reader,
          ∀ c ∈ s.counters.set position { counter with toReader := reader },
            ∃ c' ∈ s.counters, c'.cpuId = c.cpuId := by
        intro reader c hc
        rcases List.mem_or_eq_of_mem_set hc with hc | rfl
        · exact ⟨c, hc, rfl⟩
        · exact ⟨counter, hmem, rfl⟩
      refine ⟨_, rfl, h.slots, fun c hc => ?_, fun c hc => ?_, h.valid.2⟩
      · obtain ⟨c', hc', hid⟩ := hids _ c hc
        rw [← hid]
        exact h.counters c' hc'
      · obtain ⟨c', hc', hid⟩ := hids _ c hc
        rw [← hid]
        exact h.valid.1 c' hc'

/-- The CPU of a `setup` is one that `fds` has a slot for, and if a counter of the CPU is
in use, the `setup` does not fail after the device was opened. -/
def ChosenFine (s : MsrState) (granularity : Granularity) (index : Nat) (reg : Option Nat)
    (o : SetupOutcome) : Prop :=
  ∃ cpu, getTestCpu arch granularity index = some cpu ∧
    (0 ≤ cpu → cpu.toNat < s.fds.length ∧
      (InUse s cpu.toNat → Undisturbed s cpu.toNat reg o))

/-- The calls that disturb no handle. -/
def CallFine : MsrSource → MsrState → MsrCall → Prop
  | .rapl, s, .setup counterType index o =>
      ChosenFine arch s .socket index (Msr.register counterType) o
  | .raplFam23, s, .setup counterType index o =>
      ∀ granularity reg, MsrFam23.register counterType = some (granularity, reg) →
        ChosenFine arch s granularity index (some reg) o
  | _, _, .read _ _ => True
  | _, s, .close position =>
      ∀ counter, s.counters[position]? = some counter → ∀ other ≠ position,
        ∀ counter', s.counters[other]? = some counter' → counter'.cpuId ≠ counter.cpuId

theorem setup_keeps (source : MsrSource) {s : MsrState} (h : HandlesKept s)
    {counterType : Counter} {index : Nat} {o : SetupOutcome}
    (hfine : ∀ granularity reg, source.asked counterType = some (granularity, reg) →
      ChosenFine arch s granularity index reg o) :
    ∃ s', source.step host arch s (.setup counterType index o) = .ok s' ∧ HandlesKept s' := by
  rw [MsrSource.setup_eq]
  cases hasked : source.asked counterType with
  | none => exact ⟨s, rfl, h⟩
  | some chosen =>
      obtain ⟨granularity, reg⟩ := chosen
      obtain ⟨cpu, hcpu, hfine⟩ := hfine granularity reg hasked
      simp only [hcpu]
      by_cases hneg : cpu < 0
      · exact ⟨s, if_pos hneg, h⟩
      · obtain ⟨hlt, hfine⟩ := hfine (by omega)
        simp only [if_neg hneg, if_neg (Nat.not_le.mpr hlt)]
        exact ⟨_, rfl, setupOn_keeps h hlt
          (fun s hlt hhandled => source.unitKeeps counterType o hlt hhandled) hfine⟩

theorem step_keeps (source : MsrSource) {s : MsrState} (h : HandlesKept s) {call : MsrCall}
    (hfine : CallFine arch source s call) :
    ∃ s', source.step host arch s call = .ok s' ∧ HandlesKept s' := by
  cases call with
  | setup counterType index o =>
      refine setup_keeps host arch source h fun granularity reg hasked => ?_
      cases source with
      | rapl =>
          cases hasked
          exact hfine
      | raplFam23 =>
          obtain ⟨chosen, hreg, heq⟩ := Option.map_eq_some_iff.mp hasked
          cases heq
          exact hfine _ _ hreg
  | read position delivered => cases source <;> exact doRead_keeps h _ position delivered
  | close position => cases source <;> exact doClose_keeps h hfine

/-- A source before its first `init`.  The process may have any descriptors open. -/
def Fresh (s : MsrState) : Prop :=
  s.counters = [] ∧ s.foreignClosed = false

theorem init_keeps {s s' : MsrState} (hfresh : Fresh s) {maxEntries : Int} {allocates : Bool}
    (h : s.init maxEntries allocates = some s') : HandlesKept s' := by
  have hslots := init_slotsOpen h
  obtain ⟨n, rfl⟩ := init_some h
  have hnone : ∀ {P : MsrCounter → Prop}, ∀ counter ∈ s.counters, P counter := by
    intro P counter hcounter
    rw [hfresh.1] at hcounter
    cases hcounter
  exact ⟨hslots, hnone, hnone, hfresh.2⟩

/-- **Handles stay valid in every run of calls that disturb none**: after every call the
slot of every counter in use is an open descriptor of its CPU, and nothing that the
source did not open has been closed. -/
theorem handles_valid (source : MsrSource) {s₀ s : MsrState} (hfresh : Fresh s₀)
    {maxEntries : Int} {allocates : Bool} (hinit : s₀.init maxEntries allocates = some s)
    {calls : List MsrCall}
    (hcalls : Transition.Meets (source.step host arch) (CallFine arch source) s calls)
    {before : List MsrCall} (hbefore : before <+: calls) :
    ∃ s', Transition.run (source.step host arch) s before = .ok s' ∧ HandlesValid s' := by
  obtain ⟨after, rfl⟩ := hbefore
  obtain ⟨s', hrun, hkept⟩ := Transition.run_ok_of_meets
    (fun _ _ _ hkept hfine => step_keeps host arch source hkept hfine)
    (init_keeps hfresh hinit) hcalls.append_left
  exact ⟨s', hrun, hkept.valid⟩

/-- A SOCKET with one CPU. -/
def oneCpu : ArchNode :=
  .node .system 0 none
    [.node .socket 0 none [.node .die 0 none [.node .core 0 none [.node .thread 0 none []]]]]

/-- All device operations succeed. -/
def allSucceed : SetupOutcome where
  opensMsr := true
  opensMsrSafe := true
  unitOpensMsr := true
  unitOpensMsrSafe := true
  unitRegister := some 0xA0E03
  register := some 0x1234
  allocates := true
  startsThread := true

/-- A process with its three standard descriptors. -/
def freshProcess : MsrState where
  fds := []
  defaultUnit := .invalid
  dramUnit := .invalid
  counters := []
  table := [some .foreign, some .foreign, some .foreign]
  foreignClosed := false

/-- A machine that is not asked for its model. -/
def anyHost : Host := ⟨0, 0, 0, 0, none, false, false, true, true⟩

theorem handles_valid_twoCounters :
    ∃ s', Transition.run (MsrSource.rapl.step anyHost oneCpu) { freshProcess with fds := [0] }
        [.setup .pckg 0 allSucceed, .setup .dram 0 allSucceed, .read 1 (some 0x1240)] = .ok s' ∧
      HandlesValid s' := by
  have hfine : ∀ s : MsrState, s.fds.length = 1 → ∀ counterType,
      ChosenFine oneCpu s .socket 0 (Msr.register counterType) allSucceed := by
    intro s hlen counterType
    refine ⟨0, rfl, fun _ => ⟨?_, fun _ => ⟨.inr (.inl rfl), fun _ => ⟨rfl, rfl, rfl⟩⟩⟩⟩
    rw [hlen]
    decide
  refine @handles_valid anyHost oneCpu .rapl freshProcess _ ⟨rfl, rfl⟩ 1 true rfl _ ?_ _
    List.prefix_rfl
  refine ⟨hfine _ rfl _, fun t ht => ?_⟩
  cases ht
  refine ⟨hfine _ rfl _, fun t ht => ?_⟩
  exact ⟨trivial, fun _ _ => trivial⟩

/-- Two counters of one CPU are set up and the first is closed; then the second has no
handle, and closing it closes a descriptor of other code. -/
def SharesSlot (source : MsrSource) : Prop :=
  ∃ s s' s'', freshProcess.init 1 true = some s ∧
    Transition.run (source.step anyHost oneCpu) s
      [.setup .pckg 0 allSucceed, .setup .pckg 0 allSucceed, .close 0] = .ok s' ∧
    ¬ HandlesValid s' ∧
    source.step anyHost oneCpu s' (.close 0) = .ok s'' ∧ s''.foreignClosed = true

/-- **Two counters of one CPU** break each other's handle, in both sources. -/
theorem not_handlesValid_twoCounters : SharesSlot .rapl ∧ SharesSlot .raplFam23 := by
  have hbroken : ∀ s : MsrState, s.table = [some .foreign, some .foreign, some .foreign, none] →
      s.fds = [0] → (∃ counter, s.counters[0]? = some counter) → ¬ HandlesValid s := by
    rintro s htable hfds ⟨counter, hcounter⟩ hvalid
    have hhandled := hvalid.1 counter (List.mem_of_getElem? hcounter)
    have hslot : s.slot counter.cpuId = 0 := by
      unfold slot
      rw [hfds]
      rcases counter.cpuId with _ | n
      · rfl
      · rfl
    unfold Handled at hhandled
    rw [hslot, htable] at hhandled
    cases hhandled
  exact ⟨⟨_, _, _, rfl, rfl, hbroken _ rfl rfl ⟨_, rfl⟩, rfl, rfl⟩,
    ⟨_, _, _, rfl, rfl, hbroken _ rfl rfl ⟨_, rfl⟩, rfl, rfl⟩⟩

end Calls

end Access
end X86Energy
