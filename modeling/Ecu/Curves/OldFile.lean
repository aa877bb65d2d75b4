import Ecu.Curves.Cleanup
import Ecu.Lib.Smallest

/-!
# The file that makes room (`file.c`)

When the flash is nearly full, `optimizeFileSystem` removes the oldest file of each of four directories. `checkOldFile`
takes the first eight characters of each name for a number, with `atoi`, and keeps the smallest: but 0 is also the
number with which it starts, so that a name without a number makes it forget what it has found (`reclaims_iff`).
-/

namespace Ecu.Curves

open Socket

/-! ## The functions -/

/-- `atoi(tempDate)` -/
def tempDate (name : List Byte) : Int :=
  atoi (name.take 8)

/-- One round of the loop of `checkOldFile`, on `fileDate` and `path`. -/
def checkName (s : Int × List Byte) (name : List Byte) : Int × List Byte :=
  if tempDate name < s.1 ∨ s.1 = 0 then (tempDate name, name) else s

/-- `checkOldFile`: the file it finds, by its name in the directory. -/
def checkOldFile (names : List (List Byte)) : Option (List Byte) :=
  let s := names.foldl checkName (0, [])
  if s.1 ≠ 0 then some s.2 else none

/-- The directories that `optimizeFileSystem` looks at. -/
structure RecordDirs where
  procRes : List (List Byte)
  iprocres : List (List Byte)
  inversta : List (List Byte)
  data : List (List Byte)

/-- `unlink(oldFile)`, if there is one. -/
def unlinkOldFile (names : List (List Byte)) : List (List Byte) :=
  match checkOldFile names with
  | some oldFile => names.erase oldFile
  | none => names

/-- `optimizeFileSystem`; `cap` is the free space. -/
def optimizeFileSystem (cap capsize : Int) (dirs : RecordDirs) : RecordDirs :=
  if cap < capsize then
    ⟨unlinkOldFile dirs.procRes, unlinkOldFile dirs.iprocres, unlinkOldFile dirs.inversta, unlinkOldFile dirs.data⟩
  else dirs

/-! ## What they are for -/

/-- A name with a date. -/
def DateNamed (name : List Byte) : Prop :=
  ∃ d : Day, name.take 8 = d.text

/-- The file found is the one with the smallest date; none is found if no file has a date. -/
structure FindsOldest (names : List (List Byte)) (found : Option (List Byte)) : Prop where
  oldest : ∀ name ∈ found, (name ∈ names ∧ DateNamed name) ∧
    ∀ other ∈ names, DateNamed other → tempDate name ≤ tempDate other
  none : found = none → ∀ name ∈ names, ¬ DateNamed name

/-- The oldest file is the one that is found, and nothing else is removed to make room. -/
structure Reclaims (names : List (List Byte)) : Prop where
  finds : FindsOldest names (checkOldFile names)
  unlinked : ∀ gone ∈ names, gone ∉ unlinkOldFile names →
    DateNamed gone ∧ ∀ other ∈ names, DateNamed other → tempDate gone ≤ tempDate other

/-- No number is negative. Behind the last name with the number 0, the file with the smallest date of all has larger
numbers in front of it and no smaller ones after it; without a file with a date nothing is behind that name. -/
structure Undisturbed (names : List (List Byte)) : Prop where
  notNegative : ∀ name ∈ names, 0 ≤ tempDate name
  oldest : (∃ name ∈ names, DateNamed name) → ∃ front oldest rest,
    Smallest.behindZero tempDate names = front ++ oldest :: rest ∧ DateNamed oldest ∧
      (∀ other ∈ names, DateNamed other → tempDate oldest ≤ tempDate other) ∧
        (∀ other ∈ front, tempDate oldest < tempDate other) ∧ ∀ other ∈ rest, tempDate oldest ≤ tempDate other
  none : (∀ name ∈ names, ¬ DateNamed name) → Smallest.behindZero tempDate names = []

/-! ## The loop -/

theorem DateNamed.positive {name : List Byte} (dated : DateNamed name) : 0 < tempDate name := by
  obtain ⟨d, text⟩ := dated
  have some : d.text ≠ [] := List.ne_nil_of_length_eq_add_one d.text_length
  have day := d.isDay.1
  have number : tempDate name = d.number := by
    rw [tempDate, text, Protection.atoi_of_digits some d.text_digits, d.value_text]
  rw [number, Day.number]
  omega

theorem checkName_eq : checkName = Smallest.keep tempDate :=
  rfl

theorem checkOldFile_eq {names : List (List Byte)} (notNegative : ∀ name ∈ names, 0 ≤ tempDate name) :
    checkOldFile names = (Smallest.behindZero tempDate names).argmin tempDate := by
  obtain ⟨found, missing⟩ := Smallest.foldl_keep [] notNegative
  rw [checkOldFile, checkName_eq]
  cases here : (Smallest.behindZero tempDate names).argmin tempDate with
  | none => exact if_neg (not_not.2 (missing here))
  | some oldest =>
    rw [found oldest here]
    exact if_pos (Smallest.behindZero_mem (List.argmin_mem here)).2

theorem checkOldFile_negative {names : List (List Byte)} {name : List Byte} (mem : name ∈ names)
    (negative : tempDate name < 0) : ∃ found ∈ checkOldFile names, tempDate found < 0 := by
  have less := Smallest.foldl_negative [] mem negative
  have number := (Smallest.foldl_mem [] names less.ne).2
  rw [checkOldFile, checkName_eq]
  refine ⟨_, if_pos less.ne, ?_⟩
  rw [number]
  exact less

/-! ## The choice -/

theorem findsOldest_iff (names : List (List Byte)) : FindsOldest names (checkOldFile names) ↔ Undisturbed names := by
  constructor
  · intro finds
    have notNegative : ∀ name ∈ names, 0 ≤ tempDate name := by
      intro name mem
      by_contra negative
      obtain ⟨found, isFound, less⟩ := checkOldFile_negative mem (Int.not_le.1 negative)
      have positive := (finds.oldest found isFound).1.2.positive
      omega
    rw [checkOldFile_eq notNegative] at finds
    refine ⟨notNegative, ?_, ?_⟩
    · rintro ⟨name, mem, dated⟩
      cases here : (Smallest.behindZero tempDate names).argmin tempDate with
      | none => exact absurd dated (finds.none here name mem)
      | some oldest =>
        obtain ⟨front, rest, split, larger, others⟩ := Smallest.argmin_split_iff.1 here
        obtain ⟨⟨-, isDated⟩, smallest⟩ := finds.oldest oldest here
        exact ⟨front, oldest, rest, split, isDated, smallest, larger, others⟩
    · intro undated
      rw [← List.argmin_eq_none (f := tempDate), Option.eq_none_iff_forall_not_mem]
      intro oldest here
      obtain ⟨⟨inside, isDated⟩, -⟩ := finds.oldest oldest here
      exact undated oldest inside isDated
  · intro undisturbed
    rw [checkOldFile_eq undisturbed.notNegative]
    by_cases dates : ∃ name ∈ names, DateNamed name
    · obtain ⟨front, oldest, rest, split, isDated, smallest, larger, others⟩ := undisturbed.oldest dates
      have here := Smallest.argmin_split_iff.2 ⟨front, rest, split, larger, others⟩
      have inside := (Smallest.behindZero_mem (List.argmin_mem here)).1
      rw [here]
      refine ⟨?_, fun none => by cases none⟩
      rintro name isName
      obtain rfl := Option.mem_some_iff.1 isName
      exact ⟨⟨inside, isDated⟩, smallest⟩
    · have undated : ∀ name ∈ names, ¬ DateNamed name := fun name mem dated => dates ⟨name, mem, dated⟩
      rw [undisturbed.none undated, List.argmin_nil]
      exact ⟨fun name none => (Option.not_mem_none name none).elim, fun _ => undated⟩

/-- What is removed is no newer than any other file with a date. -/
theorem FindsOldest.unlinked {names : List (List Byte)} (finds : FindsOldest names (checkOldFile names))
    {gone : List Byte} (mem : gone ∈ names) (unlinked : gone ∉ unlinkOldFile names) :
    DateNamed gone ∧ ∀ other ∈ names, DateNamed other → tempDate gone ≤ tempDate other := by
  rw [unlinkOldFile] at unlinked
  cases here : checkOldFile names with
  | none =>
    rw [here] at unlinked
    exact absurd mem unlinked
  | some oldFile =>
    rw [here] at unlinked
    obtain rfl : gone = oldFile := by
      by_contra other
      exact unlinked ((List.mem_erase_of_ne other).2 mem)
    obtain ⟨⟨-, isDated⟩, smallest⟩ := finds.oldest gone here
    exact ⟨isDated, smallest⟩

/-- **The oldest file** is found and removed exactly when no name has a negative number and nothing that is not a date
stands in the way of the smallest one behind the last 0. -/
theorem reclaims_iff (names : List (List Byte)) : Reclaims names ↔ Undisturbed names :=
  ⟨fun reclaims => (findsOldest_iff names).1 reclaims.finds, fun undisturbed =>
    ⟨(findsOldest_iff names).2 undisturbed, fun _ mem => ((findsOldest_iff names).2 undisturbed).unlinked mem⟩⟩

/-- No run of `optimizeFileSystem` removes a file while there is an older one in its directory. -/
theorem optimizeFileSystem_unlinked {cap capsize : Int} {dirs : RecordDirs} {dir : RecordDirs → List (List Byte)}
    (one : dir = RecordDirs.procRes ∨ dir = RecordDirs.iprocres ∨ dir = RecordDirs.inversta ∨ dir = RecordDirs.data)
    (finds : FindsOldest (dir dirs) (checkOldFile (dir dirs))) {gone : List Byte} (mem : gone ∈ dir dirs)
    (unlinked : gone ∉ dir (optimizeFileSystem cap capsize dirs)) :
    DateNamed gone ∧ ∀ other ∈ dir dirs, DateNamed other → tempDate gone ≤ tempDate other := by
  unfold optimizeFileSystem at unlinked
  split_ifs at unlinked with full
  · have removed : gone ∉ unlinkOldFile (dir dirs) := by
      rcases one with rfl | rfl | rfl | rfl <;> exact unlinked
    exact finds.unlinked mem removed
  · exact absurd mem unlinked

theorem newYear_isDay : 1 ≤ 1 ∧ 1 ≤ Calendar.monthDays january.year january.month := by
  decide

/-- The first of January 2018. -/
def newYear : Day :=
  ⟨january, 1, newYear_isDay⟩

/-- Behind a name without a number a newer file is taken for the oldest. -/
theorem newer_removed : ¬ ∀ names : List (List Byte), Reclaims names := by
  intro all
  have finds := (all [str "20180101.dat", str "readme.txt", str "20180301.dat"]).finds
  have newer : checkOldFile [str "20180101.dat", str "readme.txt", str "20180301.dat"] = some (str "20180301.dat") := by
    rw [str_ofList, str_ofList, str_ofList]
    decide +kernel
  have dated : DateNamed (str "20180101.dat") := ⟨newYear, by rw [str_ofList]; decide +kernel⟩
  have smaller := (finds.oldest _ newer).2 _ List.mem_cons_self dated
  rw [str_ofList, str_ofList] at smaller
  exact absurd smaller (by decide +kernel)

end Ecu.Curves
