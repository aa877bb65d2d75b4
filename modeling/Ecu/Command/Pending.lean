import Ecu.Command.Handlers
import Ecu.Protection.Setpropa

/-!
# Rows that wait when another command comes

The commands A110, A111, A112 and A132 for single inverters open their table with `O_TRUNC` and write the rows of the
inverters they name. Rows of other inverters that still wait are gone; A127 takes out the rows of its own inverters
only.
-/

namespace Ecu.Command

open Socket Protection

/-! ## The commands -/

/-- The commands that name inverters and write their table anew. -/
inductive Save where
  | maxpower | onoff | gfdi | protection
deriving DecidableEq

namespace Save

/-- The table after the handler. -/
def handle (recvbuffer data idFile file : List Byte) : Save → List Byte
  | maxpower => setInverterMaxpower recvbuffer data idFile file
  | onoff => setInverterOnoff recvbuffer data idFile file
  | gfdi => clearInverterGfdi recvbuffer data idFile file
  | protection => (setInverterAcProtection17 recvbuffer ⟨[], file⟩).setpropi

/-- The number of inverters that the message says it names. -/
def num (recvbuffer : List Byte) : Save → Int
  | maxpower | onoff | gfdi => msgGetInt (recvbuffer.drop 31) 4
  | protection => msgGetInt (recvbuffer.drop 44) 3

/-- The characters of an item, and where the first one stands. -/
def item : Save → Nat × Nat
  | maxpower => (18, 52)
  | onoff | gfdi => (16, 52)
  | protection => (12, 123)

/-- The inverters that the message names. -/
def named (save : Save) (recvbuffer : List Byte) : List (List Byte) :=
  (List.range (save.num recvbuffer).toNat).map (inverterId (recvbuffer.drop save.item.2) save.item.1)

/-- The message has the form of a command for single inverters. -/
def Single (recvbuffer : List Byte) : Save → Prop
  | maxpower | gfdi => msgGetInt (recvbuffer.drop 30) 1 = 1
  | onoff => msgGetInt (recvbuffer.drop 30) 1 = 2
  | protection => msgGetInt (recvbuffer.drop 44) 3 ≠ 0

/-- The items fill the message. -/
def Counted (recvbuffer : List Byte) (save : Save) : Prop :=
  match save with
  | maxpower => msgNumCheckEnd (recvbuffer.drop 52) (save.num recvbuffer) 15
  | onoff | gfdi => msgNumCheckEnd (recvbuffer.drop 52) (save.num recvbuffer) 13
  | protection => msgNumCheck (recvbuffer.drop 123) (save.num recvbuffer) 12

structure WellFormed (recvbuffer : List Byte) (save : Save) : Prop where
  single : save.Single recvbuffer
  counted : save.Counted recvbuffer
  ids : ∀ id ∈ save.named recvbuffer, id.length = 12 ∧ Plain id

/-! ## Rows -/

/-- The row waits for the main thread. -/
def Waits (data : List Byte) : Save → Prop
  | maxpower => flagSet 5 data
  | onoff => flagSet 1 data ∨ atoi ((splitString data).getD 1 []) = 2
  | gfdi => flagSet 1 data
  | protection => flagSet 3 data

/-- What is asked for. -/
def value (data : List Byte) : Save → List (List Byte)
  | maxpower | onoff => [(splitString data).getD 1 []]
  | gfdi => []
  | protection => [(splitString data).getD 1 [], (splitString data).getD 2 []]

/-- A row of the inverter waits in the table. -/
structure PendingIn (save : Save) (file id data : List Byte) : Prop where
  line : data ∈ Lines.readLines newline 200 file
  own : (splitString data).getD 0 [] = id
  waits : save.Waits data

/-- What waited for the inverter still waits. -/
def Kept (save : Save) (before after id : List Byte) : Prop :=
  ∀ data, save.PendingIn before id data → ∃ data', save.PendingIn after id data' ∧ save.value data' = save.value data

/-! ## What the handlers write -/

/-- A line of one of these inverters. -/
structure OfNamed (ids : List (List Byte)) (line : List Byte) : Prop where
  isLine : Lines.IsLine newline 200 line
  id : (splitString line).getD 0 [] ∈ ids

theorem ofNamed_row {ids : List (List Byte)} {id last : List Byte} (fields : List (List Byte)) (mem : id ∈ ids)
    (plain : ∀ field ∈ id :: fields ++ [last], Plain field) (short : (csvRow (id :: fields ++ [last])).length < 200) :
    OfNamed ids (csvRow (id :: fields ++ [last])) := by
  refine ⟨csvRow_isLine plain short, ?_⟩
  rw [splitString_csvRow (id :: fields) last plain]
  exact mem

end Save

theorem plain_wd (w : Nat) (v : Int) : Plain (wd w v) := by
  intro b mem
  rcases List.mem_append.1 mem with blank | digits
  · rw [List.eq_of_mem_replicate blank]
    decide
  · exact plain_intText v b digits

theorem wd_length {w : Nat} {v : Int} (positive : 0 < w) (small : v.natAbs < 10 ^ w) : (wd w v).length ≤ w + 1 := by
  have digits := intText_length positive small
  rw [wd, List.length_append, List.length_replicate]
  omega

theorem msgGetInt_natAbs (s : List Byte) {len : Nat} (some : 0 < len) : (msgGetInt s len).natAbs < 10 ^ len := by
  have high := msgGetInt_lt s len
  have low := neg_lt_msgGetInt s some
  have both : |msgGetInt s len| < 10 ^ len := abs_lt.2 ⟨low, high⟩
  rw [Int.abs_eq_natAbs] at both
  exact_mod_cast both

theorem plain_one : Plain (str "1") :=
  plain_flag.2

namespace Save

section Rows

variable {ids : List (List Byte)} {id : List Byte} (mem : id ∈ ids) (good : id.length = 12 ∧ Plain id)

include mem good

theorem ofNamed_maxpower {maxpower : Int} (small : maxpower.natAbs < 10 ^ 3) :
    OfNamed ids (csvRow [id, wd 3 maxpower, [], [], [], str "1"]) := by
  apply ofNamed_row [wd 3 maxpower, [], [], []] mem
  · intro field inRow
    simp only [List.cons_append, List.nil_append, List.mem_cons, List.not_mem_nil, or_false] at inRow
    rcases inRow with rfl | rfl | rfl | rfl | rfl | rfl
    · exact good.2
    · exact plain_wd 3 maxpower
    · exact plain_nil
    · exact plain_nil
    · exact plain_nil
    · exact plain_one
  · have number := wd_length (w := 3) (by decide) small
    have flag := flag_length.2
    rw [csvRow_length (by simp)]
    simp only [List.cons_append, List.nil_append, List.map_cons, List.map_nil, List.sum_cons, List.sum_nil,
      List.length_nil, good.1, flag]
    omega

theorem ofNamed_onoff {flag : Int} (small : flag.natAbs < 10 ^ 2) :
    OfNamed ids (csvRow [id, Decimal.intText flag]) := by
  apply ofNamed_row [] mem
  · intro field inRow
    simp only [List.cons_append, List.nil_append, List.mem_cons, List.not_mem_nil, or_false] at inRow
    rcases inRow with rfl | rfl
    · exact good.2
    · exact plain_intText flag
  · have number := intText_length (w := 2) (by decide) small
    rw [csvRow_length (by simp)]
    simp only [List.cons_append, List.nil_append, List.map_cons, List.map_nil, List.sum_cons, List.sum_nil, good.1]
    omega

theorem ofNamed_gfdi : OfNamed ids (csvRow [id, str "1"]) := by
  have one : str "1" = Decimal.intText 1 := by
    rw [str_ofList]
    decide
  rw [one]
  exact ofNamed_onoff mem good (by decide)

theorem ofNamed_protection (p : Param) {v : ℚ} (bounds : 0 ≤ v ∧ v ≤ (999999 : Nat)) :
    OfNamed ids (csvRow [id, p.text, lf v, str "1"]) := by
  apply ofNamed_row [p.text, lf v] mem
  · intro field inRow
    simp only [List.cons_append, List.nil_append, List.mem_cons, List.not_mem_nil, or_false] at inRow
    rcases inRow with rfl | rfl | rfl | rfl
    · exact good.2
    · exact p.text_plain
    · exact plain_lf v
    · exact plain_one
  · have name := p.text_length
    have number : (lf v).length ≤ 13 := print_value_length 6 bounds
    have flag := flag_length.2
    rw [csvRow_length (by simp)]
    simp only [List.cons_append, List.nil_append, List.map_cons, List.map_nil, List.sum_cons, List.sum_nil,
      good.1, flag]
    omega

end Rows

/-- A table that is written item by item. -/
theorem made_items {ids : List (List Byte)} (num : Nat) {row : Nat → List Byte}
    (each : ∀ i < num, Lines.MadeOf (OfNamed ids) (row i)) :
      Lines.MadeOf (OfNamed ids) ((List.range num).flatMap row) := by
  rw [List.flatMap_def]
  apply Lines.MadeOf.flatten
  intro text mem
  obtain ⟨i, inRange, rfl⟩ := List.mem_map.1 mem
  exact each i (List.mem_range.1 inRange)

theorem inverterId_mem (save : Save) {recvbuffer : List Byte} {i : Nat} (less : i < (save.num recvbuffer).toNat) :
    inverterId (recvbuffer.drop save.item.2) save.item.1 i ∈ save.named recvbuffer :=
  List.mem_map_of_mem (List.mem_range.2 less)

/-- After the command the table has lines of the named inverters only. -/
theorem handle_made {save : Save} {recvbuffer : List Byte} (formed : save.WellFormed recvbuffer)
    (data idFile file : List Byte) :
    Lines.MadeOf (OfNamed (save.named recvbuffer)) (save.handle recvbuffer data idFile file) := by
  have single := formed.single
  have counted := formed.counted
  cases save with
  | maxpower =>
    change msgGetInt (recvbuffer.drop 30) 1 = 1 at single
    change msgNumCheckEnd (recvbuffer.drop 52) (msgGetInt (recvbuffer.drop 31) 4) 15 = true at counted
    rw [handle, setInverterMaxpower]
    dsimp only
    rw [if_neg (by omega), if_pos single, if_pos counted]
    apply made_items
    intro i less
    have mem := inverterId_mem .maxpower less
    dsimp only
    split_ifs
    · exact Lines.MadeOf.nil
    · exact Lines.MadeOf.single (ofNamed_maxpower mem (formed.ids _ mem) (msgGetInt_natAbs _ (by decide)))
  | onoff =>
    change msgGetInt (recvbuffer.drop 30) 1 = 2 at single
    change msgNumCheckEnd (recvbuffer.drop 52) (msgGetInt (recvbuffer.drop 31) 4) 13 = true at counted
    rw [handle, setInverterOnoff]
    rw [if_neg (by omega), if_neg (by omega), if_pos single, if_pos counted]
    apply made_items
    intro i less
    have mem := inverterId_mem .onoff less
    have small := msgGetInt_natAbs ((recvbuffer.drop 52).drop (i * 16 + 12)) Nat.one_pos
    exact Lines.MadeOf.single (ofNamed_onoff mem (formed.ids _ mem) (by omega))
  | gfdi =>
    change msgGetInt (recvbuffer.drop 30) 1 = 1 at single
    change msgNumCheckEnd (recvbuffer.drop 52) (msgGetInt (recvbuffer.drop 31) 4) 13 = true at counted
    rw [handle, clearInverterGfdi]
    rw [if_neg (by omega), if_pos single, if_pos counted]
    apply made_items
    intro i less
    have mem := inverterId_mem .gfdi less
    split_ifs
    · exact Lines.MadeOf.single (ofNamed_gfdi mem (formed.ids _ mem))
    · exact Lines.MadeOf.nil
  | protection =>
    change msgGetInt (recvbuffer.drop 44) 3 ≠ 0 at single
    change msgNumCheck (recvbuffer.drop 123) (msgGetInt (recvbuffer.drop 44) 3) 12 = true at counted
    rw [handle, setInverterAcProtection17]
    dsimp only
    rw [if_neg single, if_pos counted]
    apply made_items
    intro i less
    have mem := inverterId_mem .protection less
    apply Lines.MadeOf.flatten
    intro text inRows
    obtain ⟨p, -, row_of⟩ := List.mem_filterMap.1 inRows
    obtain ⟨v, set, rfl⟩ := Option.map_eq_some_iff.1 row_of
    exact Lines.MadeOf.single (ofNamed_protection mem (formed.ids _ mem) p (settings132_bounds set))

/-- **Later commands**: what waits for the inverters that a command does not name is kept exactly when nothing waits
for them. -/
theorem kept_iff {save : Save} {recvbuffer : List Byte} (formed : save.WellFormed recvbuffer)
    (data idFile file : List Byte) :
    (∀ id ∉ save.named recvbuffer, save.Kept file (save.handle recvbuffer data idFile file) id) ↔
      ∀ id ∉ save.named recvbuffer, ∀ row, ¬ save.PendingIn file id row := by
  obtain ⟨lines, made, ofNamed⟩ := handle_made formed data idFile file
  constructor
  · intro kept id other row pending
    obtain ⟨row', there, -⟩ := kept id other row pending
    have line := there.line
    rw [made, Lines.readLines_flatten fun line mem => (ofNamed line mem).isLine] at line
    exact other (there.own ▸ (ofNamed row' line).id)
  · intro none id other row pending
    exact absurd pending (none id other row)

end Save

/-! ## Samples -/

/-- A110 for one inverter: 200 W. -/
def sampleMaxpower : List Byte :=
  str "APS1300070A110AAA0216000000001" ++ str "1" ++ str "000120170101120000END" ++ str "801000000002200END"

theorem sampleMaxpower_named : Save.maxpower.named sampleMaxpower = [str "801000000002"] := by
  rw [sampleMaxpower]
  iterate 5 rw [str_ofList]
  decide +kernel

theorem sampleMaxpower_wellFormed : Save.maxpower.WellFormed sampleMaxpower := by
  refine ⟨?_, ?_, ?_⟩
  · change msgGetInt (sampleMaxpower.drop 30) 1 = 1
    rw [sampleMaxpower]
    iterate 4 rw [str_ofList]
    decide +kernel
  · change msgNumCheckEnd (sampleMaxpower.drop 52) (msgGetInt (sampleMaxpower.drop 31) 4) 15 = true
    rw [sampleMaxpower]
    iterate 4 rw [str_ofList]
    decide +kernel
  · intro id mem
    rw [sampleMaxpower_named, List.mem_singleton, str_ofList] at mem
    rw [mem]
    exact ⟨rfl, Param.plain_chars rfl⟩

/-- The request of another inverter, not yet carried out. -/
def sampleWaiting : List Byte :=
  csvRow [str "801000000001", wd 3 100, [], [], [], str "1"]

theorem kept_sample :
    (∀ id ∉ Save.maxpower.named sampleMaxpower,
      Save.maxpower.Kept sampleWaiting (Save.maxpower.handle sampleMaxpower [] [] sampleWaiting) id) ↔
      ∀ id ∉ Save.maxpower.named sampleMaxpower, ∀ row, ¬ Save.maxpower.PendingIn sampleWaiting id row :=
  Save.kept_iff sampleMaxpower_wellFormed [] [] sampleWaiting

/-- A request for 801000000001 is lost when A110 comes for 801000000002. -/
theorem request_dropped :
    ¬ ∀ (save : Save) (recvbuffer data idFile file : List Byte), save.WellFormed recvbuffer →
      ∀ id ∉ save.named recvbuffer, save.Kept file (save.handle recvbuffer data idFile file) id := by
  intro kept
  have other : str "801000000001" ∉ Save.maxpower.named sampleMaxpower := by
    rw [sampleMaxpower_named, str_ofList, str_ofList]
    decide
  have waiting : Save.maxpower.PendingIn sampleWaiting (str "801000000001") sampleWaiting := by
    refine ⟨?_, ?_, ?_⟩
    · rw [sampleWaiting, str_ofList, str_ofList]
      decide +kernel
    · rw [sampleWaiting, str_ofList, str_ofList]
      decide +kernel
    · change flagSet 5 sampleWaiting
      rw [sampleWaiting, str_ofList, str_ofList]
      decide +kernel
  obtain ⟨row, still, -⟩ := kept .maxpower sampleMaxpower [] [] sampleWaiting sampleMaxpower_wellFormed _
    other _ waiting
  obtain ⟨lines, made, ofNamed⟩ := Save.handle_made sampleMaxpower_wellFormed [] [] sampleWaiting
  have line := still.line
  rw [made, Lines.readLines_flatten fun line mem => (ofNamed line mem).isLine] at line
  exact other (still.own ▸ (ofNamed row line).id)

end Ecu.Command
