import X86Energy.Access.Sysfs

/-!
# Which zones the scan of the sysfs source finds

A powercap directory of the kernel has zones `intel-rapl:<N>` and `intel-rapl:<N>:<M>`
among other entries.  A zone at the top is named `package-<n>`, perhaps with a die, or
after another domain such as `psys`.

The scan ends at the first entry, from the back, whose parent is not named after a
package.  So a zone in front of it is never found.
-/

namespace X86Energy
namespace Access

open CInt CText Architecture ArchNode
open ParseArchitecture (nul)
open Search (Verdict)

/-- The directories `intel-rapl:<p>` and `intel-rapl:<p>:<m>`. -/
inductive Zone
  | top (p : Nat)
  | sub (p m : Nat)
deriving DecidableEq, Repr

/-- The line in the file `name` of a zone. -/
inductive Label
  | package (n : Nat) (die : Option Nat)
  | domain (text : List Char)
deriving DecidableEq, Repr

namespace Zone

/-- The number of the parent of a zone; a zone at the top is its own parent. -/
def parent : Zone → Nat
  | top p => p
  | sub p _ => p

def dir : Zone → List Char
  | top p => Sysfs.zonePrefix ++ decimal p
  | sub p m => Sysfs.zonePrefix ++ decimal p ++ ':' :: decimal m

end Zone

/-- The text of a label, without the newline. -/
def Label.text : Label → List Char
  | package n none => Sysfs.packageText ++ '-' :: decimal n
  | package n (some die) =>
      Sysfs.packageText ++ '-' :: decimal n ++ "-die-".toList ++ decimal die
  | domain text => text

/-- The entries of a powercap directory in the order of `scandir`, with the labels and
ranges of its zones. -/
structure PowercapTree where
  entries : List (Zone ⊕ List Char)
  label : Zone → Label
  range : Zone → Int
  others : ∀ name, .inr name ∈ entries → ¬ Sysfs.zonePrefix <+: name
  parents : ∀ z, .inl z ∈ entries → .inl (.top z.parent) ∈ entries
  numbers : ∀ z, .inl z ∈ entries → (z.parent : Int) ≤ intMax
  packages : ∀ z n die, label z = .package n die → (n : Int) ≤ intMax
  domains : ∀ z text, label z = .domain text →
    ¬ Sysfs.packageText <+: text ∧ '\n' ∉ text ∧ nul ∉ text

namespace PowercapTree

def entryName : Zone ⊕ List Char → List Char
  | .inl z => z.dir
  | .inr name => name

/-- A directory with these entries, all files of which can be read. -/
structure ShownBy (T : PowercapTree) (dir : Powercap) : Prop where
  namelist : dir.namelist = T.entries.map entryName
  nameFile : ∀ z, .inl z ∈ T.entries → dir.nameFile z.dir = some ((T.label z).text ++ ['\n'])
  energyOpens : ∀ z, .inl z ∈ T.entries → dir.energyOpens z.dir = true
  maxFile : ∀ z, .inl z ∈ T.entries → dir.maxFile z.dir = .value (T.range z)

/-- A directory with these entries, of which some files may not open. -/
structure NamedBy (T : PowercapTree) (dir : Powercap) : Prop where
  namelist : dir.namelist = T.entries.map entryName
  nameFile : ∀ z, .inl z ∈ T.entries → ∀ content, dir.nameFile z.dir = some content →
    content = (T.label z).text ++ ['\n']

theorem ShownBy.named {T : PowercapTree} {dir : Powercap} (h : T.ShownBy dir) :
    T.NamedBy dir where
  namelist := h.namelist
  nameFile z hz content hcontent := by
    rw [h.nameFile z hz] at hcontent
    exact (Option.some.inj hcontent).symm

/-- The parent of a zone is named after a package. -/
def InPackage (T : PowercapTree) (n : Int) (z : Zone) : Prop :=
  ∃ (m : Nat) (die : Option Nat), T.label (.top z.parent) = .package m die ∧ (m : Int) = n

/-- The own name of a zone is that of the counter. -/
def Measures (T : PowercapTree) (counterType : Counter) (z : Zone) : Prop :=
  match T.label z with
  | .package _ _ => Sysfs.sysfsNames counterType = Sysfs.packageText
  | .domain text => Sysfs.sysfsNames counterType = text

/-- A zone of the package for the counter. -/
def Wanted (T : PowercapTree) (counterType : Counter) (id : Int) (z : Zone) : Prop :=
  T.InPackage id z ∧ T.Measures counterType z

instance (T : PowercapTree) (counterType : Counter) (z : Zone) :
    Decidable (T.Measures counterType z) := by
  unfold Measures
  cases T.label z <;> exact inferInstance

/-- What a round of the scan makes of an entry. -/
def verdict (T : PowercapTree) (counterType : Counter) (id : Int) :
    Zone ⊕ List Char → Verdict Int
  | .inr _ => .next
  | .inl z =>
      match T.label (.top z.parent) with
      | .domain _ => .stop
      | .package n _ =>
          if (n : Int) ≠ id then .next
          else if T.Measures counterType z then .found (T.range z) else .next

end PowercapTree

section Texts

theorem decimal_natCast (n : Nat) : decimal (n : Int) = Nat.toDigits 10 n := by
  have hnonneg : ¬ (n : Int) < 0 := by omega
  rw [decimal, if_neg hnonneg, Int.natAbs_natCast]

/-- A printed number has neither newlines nor NULs. -/
theorem mem_decimal {n : Nat} {c : Char} (h : c ∈ decimal (n : Int)) : c ≠ '\n' ∧ c ≠ nul := by
  rw [decimal_natCast] at h
  have hdigit : c.isDigit = true := Nat.isDigit_of_mem_toDigits (by decide) (by decide) h
  constructor
  · rintro rfl
    exact absurd hdigit (by decide)
  · rintro rfl
    exact absurd hdigit (by decide)

/-- A number that fits into an `int` is read back. -/
theorem strtol_number {n : Nat} (hn : (n : Int) ≤ intMax) {c : Char} (hc : c.isDigit = false)
    (rest : List Char) :
    strtol (decimal (n : Int) ++ c :: rest) = some ⟨n, c :: rest, true, false⟩ := by
  have hlong : IsLong (n : Int) := by
    unfold intMax at hn
    constructor
    · unfold longMin
      omega
    · unfold longMax
      omega
  rw [strtol_decimal _ hc, clip_of_isLong hlong]

theorem toInt32_natCast {n : Nat} (hn : (n : Int) ≤ intMax) : toInt32 (n : Int) = n :=
  toInt32_of_isInt32 ⟨by unfold intMin; omega, hn⟩

/-- `sscanf` reads the number of the parent. -/
theorem scanZone_dir {z : Zone} (h : (z.parent : Int) ≤ intMax) :
    Sysfs.scanZone z.dir = some (z.parent : Int) := by
  have hscan : ∀ (c : Char) (rest : List Char) (text : List Char), c.isDigit = false →
      text ++ [nul] = c :: rest →
      Sysfs.scanZone (Sysfs.zonePrefix ++ (decimal (z.parent : Int) ++ text)) =
        some (z.parent : Int) := by
    intro c rest text hc htext
    unfold Sysfs.scanZone
    rw [if_pos (List.prefix_append _ _), List.drop_left, List.append_assoc, htext,
      strtol_number h hc]
    simp only [if_true, toInt32_natCast h]
  cases z with
  | top p =>
      have hdir := hscan nul [] [] (by decide) rfl
      rwa [List.append_nil] at hdir
  | sub p m =>
      have hdir := hscan ':' (decimal (m : Int) ++ [nul]) (':' :: decimal (m : Int)) (by decide) rfl
      rwa [← List.append_assoc] at hdir

/-- `strtol` reads the package of a label. -/
theorem scanPackage_text {n : Nat} (hn : (n : Int) ≤ intMax) (die : Option Nat) :
    ∃ rest, Sysfs.scanPackage (Label.package n die).text = some ⟨n, rest, true, false⟩ := by
  have hdrop : ∀ text : List Char, (Sysfs.packageText ++ '-' :: text).drop 8 = text :=
    fun _ => rfl
  cases die with
  | none =>
      refine ⟨[nul, nul], ?_⟩
      unfold Sysfs.scanPackage Label.text
      rw [List.append_assoc, List.cons_append, hdrop]
      exact strtol_number hn (by decide) [nul]
  | some die =>
      refine ⟨"-die-".toList ++ decimal (die : Int) ++ [nul, nul], ?_⟩
      unfold Sysfs.scanPackage Label.text
      simp only [List.append_assoc, List.cons_append]
      rw [hdrop]
      exact strtol_number hn (by decide) _

theorem starts_with_packageText (n : Nat) (die : Option Nat) :
    Sysfs.packageText <+: (Label.package n die).text := by
  cases die with
  | none => exact List.prefix_append _ _
  | some die =>
      change Sysfs.packageText <+:
        Sysfs.packageText ++ '-' :: decimal n ++ "-die-".toList ++ decimal die
      rw [List.append_assoc, List.append_assoc]
      exact List.prefix_append _ _

theorem mem_text_package {n : Nat} {die : Option Nat} {c : Char}
    (h : c ∈ (Label.package n die).text) : c ≠ '\n' ∧ c ≠ nul := by
  have hall : (Sysfs.packageText ++ '-' :: "-die-".toList).all
      (fun c => c != '\n' && c != nul) = true := by decide
  have hplain : ∀ c ∈ Sysfs.packageText ++ '-' :: "-die-".toList, c ≠ '\n' ∧ c ≠ nul := by
    intro c hc
    simpa using List.all_eq_true.mp hall c hc
  cases die with
  | none =>
      unfold Label.text at h
      simp only [List.mem_append, List.mem_cons] at h
      rcases h with h | rfl | h
      · exact hplain c (List.mem_append_left _ h)
      · decide
      · exact mem_decimal h
  | some die =>
      unfold Label.text at h
      simp only [List.mem_append, List.mem_cons] at h
      rcases h with ((h | rfl | h) | h) | h
      · exact hplain c (List.mem_append_left _ h)
      · decide
      · exact mem_decimal h
      · exact hplain c (List.mem_append_right _ (List.mem_cons_of_mem _ h))
      · exact mem_decimal h

/-- A line is read without its newline. -/
theorem readName_line {text : List Char} (h : ∀ c ∈ text, c ≠ '\n' ∧ c ≠ nul) :
    Sysfs.readName (some (text ++ ['\n'])) = .ok (some text) := by
  have hline : Sysfs.getline (text ++ ['\n']) = text ++ ['\n'] := by
    unfold Sysfs.getline
    rw [List.takeWhile_append_of_pos fun c hc => by simp [(h c hc).1]]
    simp
  have hbuffer : (text ++ ['\n']).takeWhile (· ≠ nul) = text ++ ['\n'] := by
    rw [List.takeWhile_append_of_pos fun c hc => by simp [(h c hc).2]]
    rfl
  have hne : text ++ ['\n'] ≠ [] := by simp
  simp only [Sysfs.readName, if_neg hne, hline, hbuffer, List.dropLast_concat]

end Texts

namespace PowercapTree

variable {T : PowercapTree} {dir : Powercap}

theorem readName_label (z : Zone) :
    Sysfs.readName (some ((T.label z).text ++ ['\n'])) = .ok (some (T.label z).text) := by
  apply readName_line
  intro c hc
  cases hlabel : T.label z with
  | package n die =>
      rw [hlabel] at hc
      exact mem_text_package hc
  | domain text =>
      rw [hlabel] at hc
      obtain ⟨_, hnewline, hnul⟩ := T.domains z text hlabel
      constructor
      · rintro rfl
        exact hnewline hc
      · rintro rfl
        exact hnul hc

theorem readName_zone (h : T.ShownBy dir) {z : Zone} (hz : .inl z ∈ T.entries) :
    Sysfs.readName (dir.nameFile z.dir) = .ok (some (T.label z).text) := by
  rw [h.nameFile z hz]
  exact readName_label z

/-- The end of a round compares the own name of the zone with that of the counter. -/
theorem judgeZone_eq (h : T.ShownBy dir) (counterType : Counter) {z : Zone}
    (hz : .inl z ∈ T.entries) :
    Sysfs.judgeZone dir (Sysfs.sysfsNames counterType) z.dir (T.label z).text =
      .ok (if T.Measures counterType z then .found (T.range z) else .next) := by
  have hbuffer : (if Sysfs.packageText <+: (T.label z).text then Sysfs.packageText
      else (T.label z).text) =
        match T.label z with
        | .package _ _ => Sysfs.packageText
        | .domain text => text := by
    cases hlabel : T.label z with
    | package n die => exact if_pos (starts_with_packageText n die)
    | domain text => exact if_neg (T.domains z text hlabel).1
  have hmeasures : T.Measures counterType z ↔ Sysfs.sysfsNames counterType =
      match T.label z with
      | .package _ _ => Sysfs.packageText
      | .domain text => text := by
    unfold Measures
    cases T.label z <;> exact Iff.rfl
  unfold Sysfs.judgeZone
  rw [hbuffer, h.energyOpens z hz, h.maxFile z hz]
  by_cases hm : T.Measures counterType z
  · rw [if_pos hm]
    simp only [if_neg (not_not.mpr (hmeasures.mp hm))]
    rfl
  · rw [if_neg hm]
    simp only [if_pos (mt hmeasures.mpr hm)]

/-- **What one round of the scan does**, in terms of the zones. -/
theorem judgeEntry_eq (h : T.ShownBy dir) (counterType : Counter) {id : Int}
    {e : Zone ⊕ List Char} (he : e ∈ T.entries) :
    Sysfs.judgeEntry dir (Sysfs.sysfsNames counterType) id (entryName e) =
      .ok (T.verdict counterType id e) := by
  cases e with
  | inr name =>
      have hnone : Sysfs.scanZone name = none := if_neg (T.others name he)
      unfold Sysfs.judgeEntry
      rw [entryName, hnone]
      rfl
  | inl z =>
      have hparent := T.parents z he
      unfold Sysfs.judgeEntry
      rw [entryName, scanZone_dir (T.numbers z he)]
      have hname := readName_zone h hparent
      rw [Zone.dir] at hname
      simp only [hname]
      unfold verdict
      simp only
      cases hlabel : T.label (.top z.parent) with
      | domain text => exact if_pos (T.domains _ text hlabel).1
      | package n die =>
          have hn := T.packages _ n die hlabel
          obtain ⟨rest, hscan⟩ := scanPackage_text hn die
          have hbefore : ¬ ¬ Sysfs.packageText <+: (Label.package n die).text :=
            not_not.mpr (starts_with_packageText n die)
          simp only [if_neg hbefore, hscan, Bool.false_eq_true, and_false, if_false,
            toInt32_natCast hn]
          by_cases hid : (n : Int) = id
          · simp only [if_neg (not_not.mpr hid), readName_zone h he]
            exact judgeZone_eq h counterType he
          · simp only [if_pos hid]

/-- A round that ends the scan with a result saw the name of the package, also if other
files do not open. -/
theorem inPackage_of_judgeEntry (h : T.NamedBy dir) {name : List Char} {id max : Int}
    {e : Zone ⊕ List Char} (he : e ∈ T.entries)
    (hfound : Sysfs.judgeEntry dir name id (entryName e) = .ok (.found max)) :
    ∃ z, e = .inl z ∧ T.InPackage id z := by
  cases e with
  | inr other =>
      have hnone : Sysfs.scanZone other = none := if_neg (T.others other he)
      unfold Sysfs.judgeEntry at hfound
      rw [entryName, hnone] at hfound
      cases hfound
  | inl z =>
      refine ⟨z, rfl, ?_⟩
      unfold Sysfs.judgeEntry at hfound
      rw [entryName, scanZone_dir (T.numbers z he)] at hfound
      have hdir : Sysfs.zonePrefix ++ decimal (z.parent : Int) = (Zone.top z.parent).dir := rfl
      simp only [hdir] at hfound
      cases hfile : dir.nameFile (Zone.top z.parent).dir with
      | none =>
          rw [hfile] at hfound
          cases hfound
      | some content =>
          rw [hfile, h.nameFile _ (T.parents z he) content hfile, readName_label] at hfound
          simp only at hfound
          cases hlabel : T.label (.top z.parent) with
          | domain text =>
              have hbefore : ¬ Sysfs.packageText <+: (Label.domain text).text :=
                (T.domains _ text hlabel).1
              rw [hlabel, if_pos hbefore] at hfound
              cases hfound
          | package n die =>
              have hn := T.packages _ n die hlabel
              obtain ⟨rest, hscan⟩ := scanPackage_text hn die
              have hbefore : ¬ ¬ Sysfs.packageText <+: (Label.package n die).text :=
                not_not.mpr (starts_with_packageText n die)
              simp only [hlabel, if_neg hbefore, hscan, Bool.false_eq_true, and_false, if_false,
                toInt32_natCast hn] at hfound
              refine ⟨n, die, hlabel, ?_⟩
              by_contra hid
              simp only [ne_eq, hid, not_false_eq_true, if_true] at hfound
              cases hfound

/-- The zone that a scan ends with is one of the package. -/
theorem inPackage_of_scan (h : T.NamedBy dir) {counterType : Counter} {index : Nat}
    {dName : List Char} {max : Int}
    (hscan : Sysfs.scan dir counterType index = .ok (some (dName, max))) :
    ∃ z, .inl z ∈ T.entries ∧ dName = z.dir ∧ T.InPackage (toInt32 index) z := by
  obtain ⟨hmem, hfound⟩ := Search.judge_of_search hscan
  rw [h.namelist] at hmem
  obtain ⟨e, he, rfl⟩ := List.mem_map.mp (List.mem_reverse.mp hmem)
  obtain ⟨z, rfl, hpackage⟩ := inPackage_of_judgeEntry h he hfound
  exact ⟨z, he, rfl, hpackage⟩

/-- A directory has one package at most. -/
theorem InPackage.eq_of_dir {z z' : Zone} (hz : .inl z ∈ T.entries) (hz' : .inl z' ∈ T.entries)
    (hdir : z.dir = z'.dir) {n n' : Int} (h : T.InPackage n z) (h' : T.InPackage n' z') :
    n = n' := by
  have hparent : z.parent = z'.parent := by
    have hscan := scanZone_dir (T.numbers z hz)
    rw [hdir, scanZone_dir (T.numbers z' hz')] at hscan
    exact (Int.ofNat.inj (Option.some.inj hscan)).symm
  obtain ⟨m, die, hlabel, rfl⟩ := h
  obtain ⟨m', die', hlabel', rfl⟩ := h'
  rw [hparent, hlabel'] at hlabel
  cases hlabel
  rfl

/-- The entries that end the scan with a result are the wanted zones. -/
theorem verdict_found_iff {counterType : Counter} {id max : Int} {e : Zone ⊕ List Char} :
    T.verdict counterType id e = .found max ↔
      ∃ z, e = .inl z ∧ T.Wanted counterType id z ∧ max = T.range z := by
  cases e with
  | inr name => simp [verdict]
  | inl z =>
      cases hlabel : T.label (.top z.parent) with
      | domain text => simp [verdict, hlabel, Wanted, InPackage]
      | package n die =>
          by_cases hn : (n : Int) = id
          · by_cases hm : T.Measures counterType z
            · simp [verdict, hlabel, Wanted, InPackage, hn, hm, eq_comm]
            · simp [verdict, hlabel, Wanted, hm]
          · simp [verdict, hlabel, Wanted, InPackage, hn]

/-- The entries that end the scan without a result are the zones below another domain. -/
theorem verdict_stop_iff {counterType : Counter} {id : Int} {e : Zone ⊕ List Char} :
    T.verdict counterType id e = .stop ↔ ∃ z, e = .inl z ∧ ¬ ∃ n, T.InPackage n z := by
  cases e with
  | inr name => simp [verdict]
  | inl z =>
      cases hlabel : T.label (.top z.parent) with
      | domain text => simp [verdict, hlabel, InPackage]
      | package n die =>
          by_cases hn : (n : Int) = id
          · by_cases hm : T.Measures counterType z
            · simp [verdict, hlabel, InPackage, hn, hm]
            · simp [verdict, hlabel, InPackage, hn, hm]
          · simp [verdict, hlabel, InPackage, hn]

/-- The scan ends with a zone of the package for the counter, and it ends with one
whenever there is one. -/
def ScanRight (T : PowercapTree) (dir : Powercap) (counterType : Counter) (id : Int) : Prop :=
  ∃ found, Sysfs.scan dir counterType (toSize id) = .ok found ∧
    (∀ dName max, found = some (dName, max) →
      ∃ z, .inl z ∈ T.entries ∧ T.Wanted counterType id z ∧ dName = z.dir ∧ max = T.range z) ∧
    ((∃ z, .inl z ∈ T.entries ∧ T.Wanted counterType id z) → found ≠ none)

/-- The scan, entry by entry of the tree. -/
theorem scan_eq (h : T.ShownBy dir) (counterType : Counter) {id : Int} (hid : IsInt32 id) :
    Sysfs.scan dir counterType (toSize id) =
      (Search.search (fun e => Sysfs.judgeEntry dir (Sysfs.sysfsNames counterType) id (entryName e))
        T.entries.reverse).map (Option.map fun found => (entryName found.1, found.2)) := by
  unfold Sysfs.scan
  rw [toInt32_toSize hid, h.namelist, ← List.map_reverse, Search.search_map]

section Scan

variable (h : T.ShownBy dir) (counterType : Counter) {id : Int} (hid : IsInt32 id)
include h hid

theorem scan_ok : ∃ found, Sysfs.scan dir counterType (toSize id) = .ok found := by
  obtain ⟨found, hfound⟩ := Search.search_ok
    (fun e he => @judgeEntry_eq T dir h counterType id e (List.mem_reverse.mp he))
  rw [scan_eq h counterType hid, hfound]
  exact ⟨_, rfl⟩

/-- Whatever is found is wanted. -/
theorem scan_sound {dName : List Char} {max : Int}
    (hscan : Sysfs.scan dir counterType (toSize id) = .ok (some (dName, max))) :
    ∃ z, .inl z ∈ T.entries ∧ T.Wanted counterType id z ∧ dName = z.dir ∧ max = T.range z := by
  rw [scan_eq h counterType hid] at hscan
  obtain ⟨found, hfound⟩ := Search.search_ok
    (fun e he => @judgeEntry_eq T dir h counterType id e (List.mem_reverse.mp he))
  rw [hfound] at hscan
  obtain ⟨⟨e, max'⟩, rfl, hpair⟩ := Option.map_eq_some_iff.mp (Except.ok.inj hscan)
  cases hpair
  obtain ⟨he, hresult⟩ := Search.judge_of_search hfound
  have he := List.mem_reverse.mp he
  rw [judgeEntry_eq h counterType he] at hresult
  obtain ⟨z, rfl, hwanted, hmax⟩ := verdict_found_iff.mp (Except.ok.inj hresult)
  exact ⟨z, he, hwanted, rfl, hmax⟩

/-- Something is found exactly if behind a wanted zone there is no zone below another
domain. -/
theorem scan_finds_iff :
    (∃ found, Sysfs.scan dir counterType (toSize id) = .ok (some found)) ↔
      ∃ before z after, T.entries = before ++ .inl z :: after ∧ T.Wanted counterType id z ∧
        ∀ w, .inl w ∈ after → ∃ n, T.InPackage n w := by
  have hfinds := Search.search_finds_iff
    (fun e he => @judgeEntry_eq T dir h counterType id e (List.mem_reverse.mp he))
  have hmap : (∃ found, Sysfs.scan dir counterType (toSize id) = .ok (some found)) ↔
      ∃ found, Search.search (fun e =>
        Sysfs.judgeEntry dir (Sysfs.sysfsNames counterType) id (entryName e))
          T.entries.reverse = .ok (some found) := by
    rw [scan_eq h counterType hid]
    constructor
    · rintro ⟨found, hfound⟩
      cases hsearch : Search.search (fun e =>
          Sysfs.judgeEntry dir (Sysfs.sysfsNames counterType) id (entryName e))
            T.entries.reverse with
      | error e =>
          rw [hsearch] at hfound
          cases hfound
      | ok result =>
          rw [hsearch] at hfound
          obtain ⟨f, rfl, _⟩ := Option.map_eq_some_iff.mp (Except.ok.inj hfound)
          exact ⟨f, rfl⟩
    · rintro ⟨found, hfound⟩
      rw [hfound]
      exact ⟨_, rfl⟩
  rw [hmap, hfinds]
  constructor
  · rintro ⟨before, e, after, hrev, ⟨max, hmax⟩, hstop⟩
    obtain ⟨z, rfl, hwanted, _⟩ := verdict_found_iff.mp hmax
    refine ⟨after.reverse, z, before.reverse, ?_, hwanted, fun w hw => ?_⟩
    · rw [← List.reverse_reverse T.entries, hrev]
      simp
    · by_contra hnone
      exact hstop _ (List.mem_reverse.mp hw) (verdict_stop_iff.mpr ⟨w, rfl, hnone⟩)
  · rintro ⟨before, z, after, heq, hwanted, hall⟩
    refine ⟨after.reverse, .inl z, before.reverse, ?_,
      ⟨T.range z, verdict_found_iff.mpr ⟨z, rfl, hwanted, rfl⟩⟩, fun e he hstop => ?_⟩
    · rw [heq]
      simp
    · obtain ⟨w, rfl, hnone⟩ := verdict_stop_iff.mp hstop
      exact hnone (hall w (List.mem_reverse.mp he))

/-- **When the scan finds the zones it should**: there is no wanted zone, or behind one of
them there is no zone below another domain. -/
theorem scanRight_iff :
    ScanRight T dir counterType id ↔
      (∀ z, .inl z ∈ T.entries → ¬ T.Wanted counterType id z) ∨
        ∃ before z after, T.entries = before ++ .inl z :: after ∧ T.Wanted counterType id z ∧
          ∀ w, .inl w ∈ after → ∃ n, T.InPackage n w := by
  obtain ⟨found, hscan⟩ := scan_ok h counterType hid
  have hfinds := scan_finds_iff h counterType hid
  constructor
  · rintro ⟨found', hscan', _, hcomplete⟩
    by_cases hwanted : ∃ z, .inl z ∈ T.entries ∧ T.Wanted counterType id z
    · obtain ⟨f, rfl⟩ := Option.ne_none_iff_exists'.mp (hcomplete hwanted)
      exact .inr (hfinds.mp ⟨f, hscan'⟩)
    · exact .inl fun z hz hw => hwanted ⟨z, hz, hw⟩
  · intro hcond
    refine ⟨found, hscan, ?_, ?_⟩
    · rintro dName max rfl
      exact scan_sound h counterType hid hscan
    · rintro ⟨z, hz, hwanted⟩
      rcases hcond with hnone | hcond
      · exact absurd hwanted (hnone z hz)
      · obtain ⟨f, hf⟩ := hfinds.mpr hcond
        rw [hscan] at hf
        cases hf
        simp

end Scan

section Machines

/-- Package 0 with a core zone, the zone of the platform, and the control type. -/
def psysLabel : Zone → Label
  | .top 0 => .package 0 none
  | .sub 0 0 => .domain "core".toList
  | _ => .domain "psys".toList

theorem psysLabel_cases (z : Zone) :
    (z = .top 0 ∧ psysLabel z = .package 0 none) ∨ psysLabel z = .domain "core".toList ∨
      psysLabel z = .domain "psys".toList := by
  unfold psysLabel
  split <;> simp

/-- A directory with these zones, in the given order. -/
def psysTree (zones : List Zone) (h : ∀ z ∈ zones, z.parent ≤ 1)
    (hparents : ∀ z ∈ zones, Zone.top z.parent ∈ zones) : PowercapTree where
  entries := .inr "..".toList :: .inr "intel-rapl".toList :: zones.map .inl
  label := psysLabel
  range _ := 262143328850
  others name hname := by
    simp only [List.mem_cons, List.mem_map, reduceCtorEq, and_false, exists_false, or_false,
      Sum.inr.injEq] at hname
    rcases hname with rfl | rfl
    · decide
    · decide
  parents z hz := by
    simp only [List.mem_cons, reduceCtorEq, false_or, List.mem_map, Sum.inl.injEq,
      exists_eq_right] at hz ⊢
    exact hparents z hz
  numbers z hz := by
    simp only [List.mem_cons, reduceCtorEq, false_or, List.mem_map, Sum.inl.injEq,
      exists_eq_right] at hz
    have := h z hz
    unfold intMax
    omega
  packages z n die hlabel := by
    rcases psysLabel_cases z with ⟨_, heq⟩ | heq | heq
    · rw [heq] at hlabel
      cases hlabel
      decide
    · rw [heq] at hlabel
      cases hlabel
    · rw [heq] at hlabel
      cases hlabel
  domains z text hlabel := by
    rcases psysLabel_cases z with ⟨_, heq⟩ | heq | heq
    · rw [heq] at hlabel
      cases hlabel
    · rw [heq] at hlabel
      cases hlabel
      decide
    · rw [heq] at hlabel
      cases hlabel
      decide

/-- The files of such a directory. -/
def psysDir (names : List String) : Powercap where
  namelist := names.map String.toList
  nameFile name :=
    if name = "intel-rapl:0".toList then some "package-0\n".toList
    else if name = "intel-rapl:0:0".toList then some "core\n".toList
    else if name = "intel-rapl:1".toList then some "psys\n".toList
    else none
  energyOpens _ := true
  maxFile _ := .value 262143328850

/-- No platform zone: the zone of the cores is found. -/
def plainTree : PowercapTree := psysTree [.top 0, .sub 0 0] (by decide) (by decide)

def plainDir : Powercap := psysDir ["..", "intel-rapl", "intel-rapl:0", "intel-rapl:0:0"]

theorem scanRight_plain : ScanRight plainTree plainDir .cores 0 := by
  have hshown : plainTree.ShownBy plainDir := by
    refine ⟨rfl, ?_, fun _ _ => rfl, fun _ _ => rfl⟩
    intro z hz
    have hz : z = .top 0 ∨ z = .sub 0 0 := by simpa [plainTree, psysTree] using hz
    rcases hz with rfl | rfl
    · decide
    · decide
  refine (scanRight_iff hshown .cores (by decide)).mpr (.inr ?_)
  exact ⟨[.inr "..".toList, .inr "intel-rapl".toList, .inl (.top 0)], .sub 0 0, [], rfl,
    ⟨⟨0, none, rfl, rfl⟩, rfl⟩, by simp⟩

/-- With a platform zone behind the package. -/
def platformTree : PowercapTree := psysTree [.top 0, .sub 0 0, .top 1] (by decide) (by decide)

def platformDir : Powercap :=
  psysDir ["..", "intel-rapl", "intel-rapl:0", "intel-rapl:0:0", "intel-rapl:1"]

/-- **A machine with a platform zone**: the scan ends there and misses the package. -/
theorem not_scanRight_platform :
    platformTree.ShownBy platformDir ∧ platformTree.Wanted .pckg 0 (.top 0) ∧
      Sysfs.scan platformDir .pckg 0 = .ok none ∧ ¬ ScanRight platformTree platformDir .pckg 0 := by
  have hscan : Sysfs.scan platformDir .pckg 0 = .ok none := by rfl
  have hwanted : platformTree.Wanted .pckg 0 (.top 0) := ⟨⟨0, none, rfl, rfl⟩, rfl⟩
  refine ⟨⟨rfl, ?_, fun _ _ => rfl, fun _ _ => rfl⟩, hwanted, hscan, ?_⟩
  · intro z hz
    have hz : z = .top 0 ∨ z = .sub 0 0 ∨ z = .top 1 := by
      simpa [platformTree, psysTree] using hz
    rcases hz with rfl | rfl | rfl
    · decide
    · decide
    · decide
  · rintro ⟨found, hfound, _, hcomplete⟩
    change Sysfs.scan platformDir .pckg 0 = _ at hfound
    rw [hscan] at hfound
    cases hfound
    exact hcomplete ⟨.top 0, by simp [platformTree, psysTree], hwanted⟩ rfl

end Machines

end PowercapTree

end Access
end X86Energy
