import Ecu.Forward.Control
import Ecu.Poll.Forget

/-!
# The status message of a round (`protocol_status`)

A block for each inverter whose frame was taken in the round and shows one of the bits that its model reports. The
decoders set the flag and the block, `getalldata` clears the flag once, and `protocol_status` joins the blocks under a
head with their count and the length of the text (`status_message`).
-/

namespace Ecu

namespace Decoder

/-! ## Blocks -/

/-- The bits of `status_web` in a frame. -/
def web : Decoder → Frame → List Byte
  | yc600, data => statusWeb600 data (List.replicate 4 (digit 0))
  | yc600New, data => statusWeb600 data [data.bit 24 2, data.bit 24 1, data.bit 24 0, data.bit 26 1]
  | yc1000, data => statusWeb1000 data

/-- The bits that are reported. -/
def reportable : Decoder → List Nat
  | yc1000 => [0, 1, 2, 3, 4, 5, 6, 7, 16, 17, 18, 19, 21, 22]
  | _ => [0, 1, 16, 17, 18, 19, 21, 22, 23, 24, 25, 26, 27, 28]

/-- One of them is set. -/
def Reports (d : Decoder) (data : Frame) : Prop :=
  anySet (d.web data) d.reportable = digit 1

instance (d : Decoder) (data : Frame) : Decidable (d.Reports data) :=
  inferInstanceAs (Decidable (_ = _))

/-- The type of a block. -/
def code : Decoder → List Byte
  | yc1000 => str "04"
  | _ => str "07"

/-- The width of a block. -/
def width : Decoder → Nat
  | yc1000 => 39
  | _ => 44

/-- The bits behind each of the four characters after the type: grid, temperature, ground fault, control. -/
def groups : Decoder → List (Nat × List Nat)
  | yc1000 => [(14, [0, 1, 2, 3, 4, 5, 6, 7, 19, 21, 22]), (15, [16]), (16, [17]), (17, [18])]
  | _ => [(14, [0, 1, 19, 21, 22, 23, 24]), (15, [16]), (16, [17, 28]), (17, [18])]

/-- Where a block shows which bit of `status_web`. -/
def places : Decoder → List (Nat × Nat)
  | yc1000 => [(18, 0), (19, 1), (20, 19), (21, 22), (22, 21), (23, 16), (24, 17), (25, 18), (28, 2), (29, 3), (31, 4),
      (32, 5), (34, 6), (35, 7)]
  | _ => [(18, 0), (19, 1), (20, 19), (21, 22), (22, 21), (23, 16), (24, 17), (25, 18), (27, 23), (28, 24), (29, 25),
      (30, 26), (31, 27), (32, 28)]

/-- A block of a frame: the id, the type, the groups, the bits, to the width of its type. -/
structure IsBlock (d : Decoder) (id : List Byte) (data : Frame) (block : List Byte) : Prop where
  id : block.take 12 = id
  code : (block.drop 12).take 2 = d.code
  width : block.length = d.width
  groups : ∀ g ∈ d.groups, block.getD g.1 nul = anySet (d.web data) g.2
  bits : ∀ p ∈ d.places, block.getD p.1 nul = (d.web data).getD p.2 nul
  ends : block.drop (d.width - 3) = str "END"

end Decoder

/-- What a decoder leaves for the status message. -/
structure Statused (d : Decoder) (data : Frame) (id : List Byte) (inverter : Inverter) : Prop where
  flag : inverter.statusSendFlag = 1 ↔ d.Reports data
  block : d.Reports data → d.IsBlock id data (cstr inverter.statusEma)

theorem digit_ne_nul (b : Nat) : digit (b % 2) ≠ nul := by
  rcases Nat.mod_two_eq_zero_or_one b with even | odd
  · rw [even]
    decide
  · rw [odd]
    decide

theorem anySet_ne_nul (web : List Byte) (is : List Nat) : anySet web is ≠ nul := by
  unfold anySet
  split <;> decide

/-- What stands behind the web bits does not matter. -/
theorem anySet_append {web : List Byte} (rest : List Byte) {is : List Nat} (inside : ∀ i ∈ is, i < web.length) :
    anySet (web ++ rest) is = anySet web is := by
  have same : (is.any fun i => (web ++ rest).getD i nul == digit 1) = is.any fun i => web.getD i nul == digit 1 := by
    rw [Bool.eq_iff_iff, List.any_eq_true, List.any_eq_true]
    constructor
    · rintro ⟨i, mem, set⟩
      exact ⟨i, mem, by rwa [List.getD_append _ _ _ _ (inside i mem)] at set⟩
    · rintro ⟨i, mem, set⟩
      exact ⟨i, mem, by rwa [List.getD_append _ _ _ _ (inside i mem)]⟩
  unfold anySet
  rw [same]

namespace Decoder

theorem web_length (d : Decoder) (data : Frame) : (d.web data).length = 37 := by
  cases d with
  | yc600 => rfl
  | yc600New => rfl
  | yc1000 => rfl

theorem web_clean (d : Decoder) (data : Frame) : ∀ b ∈ d.web data, b ≠ nul := by
  have zeros (n : Nat) : (∀ b ∈ List.replicate n (digit 0), ¬ b = nul) ↔ True := by
    refine iff_true_intro fun b mem => ?_
    rw [List.eq_of_mem_replicate mem]
    decide
  have zero : digit 0 ≠ nul := by decide
  have bit (i k : Nat) : data.bit i k ≠ nul := digit_ne_nul _
  have append {a b : List Byte} : (∀ x ∈ a ++ b, x ≠ nul) ↔ (∀ x ∈ a, x ≠ nul) ∧ ∀ x ∈ b, x ≠ nul :=
    List.forall_mem_append
  cases d <;>
    simp only [web, statusWeb600, statusWeb1000, append, List.forall_mem_cons, List.not_mem_nil, false_implies,
      implies_true, and_self, zero, bit, ne_eq, not_false_eq_true, zeros]

theorem web_getD_clean (d : Decoder) (data : Frame) {i : Nat} (inside : i < 37) : (d.web data).getD i nul ≠ nul := by
  have bound : i < (d.web data).length := d.web_length data ▸ inside
  rw [List.getD_eq_getElem _ _ bound]
  exact d.web_clean data _ (List.getElem_mem bound)

end Decoder

/-- A block of the YC600 behind the id. -/
def tail600 (web : List Byte) : List Byte :=
  str "07" ++
    [anySet web [0, 1, 19, 21, 22, 23, 24], anySet web [16], anySet web [17, 28], anySet web [18]] ++
    [web.getD 0 nul, web.getD 1 nul, web.getD 19 nul, web.getD 22 nul, web.getD 21 nul, web.getD 16 nul,
      web.getD 17 nul, web.getD 18 nul, digit 0, web.getD 23 nul, web.getD 24 nul, web.getD 25 nul, web.getD 26 nul,
      web.getD 27 nul, web.getD 28 nul] ++ List.replicate 8 (digit 0) ++ str "END"

/-- A block of the YC1000 behind the id. -/
def tail1000 (web : List Byte) : List Byte :=
  str "04" ++
    [anySet web [0, 1, 2, 3, 4, 5, 6, 7, 19, 21, 22], anySet web [16], anySet web [17], anySet web [18]] ++
    [web.getD 0 nul, web.getD 1 nul, web.getD 19 nul, web.getD 22 nul, web.getD 21 nul, web.getD 16 nul,
      web.getD 17 nul, web.getD 18 nul, digit 0] ++
    str "A" ++ [web.getD 2 nul, web.getD 3 nul] ++ str "B" ++ [web.getD 4 nul, web.getD 5 nul] ++
    str "C" ++ [web.getD 6 nul, web.getD 7 nul] ++ str "END"

/-- The characters of the two blocks one by one. -/
theorem tail_cells (web : List Byte) :
    tail600 web = 0x30 :: 0x37 :: anySet web [0, 1, 19, 21, 22, 23, 24] :: anySet web [16] :: anySet web [17, 28] ::
      anySet web [18] :: web.getD 0 nul :: web.getD 1 nul :: web.getD 19 nul :: web.getD 22 nul :: web.getD 21 nul ::
      web.getD 16 nul :: web.getD 17 nul :: web.getD 18 nul :: digit 0 :: web.getD 23 nul :: web.getD 24 nul ::
      web.getD 25 nul :: web.getD 26 nul :: web.getD 27 nul :: web.getD 28 nul ::
      (List.replicate 8 (digit 0) ++ [0x45, 0x4E, 0x44]) ∧
    tail1000 web = 0x30 :: 0x34 :: anySet web [0, 1, 2, 3, 4, 5, 6, 7, 19, 21, 22] :: anySet web [16] ::
      anySet web [17] :: anySet web [18] :: web.getD 0 nul :: web.getD 1 nul :: web.getD 19 nul :: web.getD 22 nul ::
      web.getD 21 nul :: web.getD 16 nul :: web.getD 17 nul :: web.getD 18 nul :: digit 0 :: 0x41 :: web.getD 2 nul ::
      web.getD 3 nul :: 0x42 :: web.getD 4 nul :: web.getD 5 nul :: 0x43 :: web.getD 6 nul :: web.getD 7 nul ::
      [0x45, 0x4E, 0x44] := by
  rw [tail600, tail1000]
  iterate 6 rw [str_ofList]
  exact ⟨rfl, rfl⟩

theorem yc600Status_set {inverter : Inverter}
    (set : anySet inverter.statusWeb (Decoder.reportable .yc600) = digit 1) :
    (yc600Status inverter).statusSendFlag = 1 ∧
      (yc600Status inverter).statusEma = cstr inverter.id ++ tail600 inverter.statusWeb := by
  unfold yc600Status
  dsimp only
  split
  · exact ⟨rfl, by simp only [tail600, List.append_assoc]⟩
  · rename_i quiet
    exact absurd set quiet

theorem yc600Status_quiet {inverter : Inverter}
    (quiet : anySet inverter.statusWeb (Decoder.reportable .yc600) ≠ digit 1) :
    (yc600Status inverter).statusSendFlag = 0 := by
  unfold yc600Status
  dsimp only
  split
  · rename_i set
    exact absurd set quiet
  · rfl

theorem yc1000Status_set {inverter : Inverter}
    (set : anySet inverter.statusWeb (Decoder.reportable .yc1000) = digit 1) :
    (yc1000Status inverter).statusSendFlag = 1 ∧
      (yc1000Status inverter).statusEma = cstr inverter.id ++ tail1000 inverter.statusWeb := by
  unfold yc1000Status
  dsimp only
  split
  · exact ⟨rfl, by simp only [tail1000, List.append_assoc]⟩
  · rename_i quiet
    exact absurd set quiet

theorem yc1000Status_quiet {inverter : Inverter}
    (quiet : anySet inverter.statusWeb (Decoder.reportable .yc1000) ≠ digit 1) :
    (yc1000Status inverter).statusSendFlag = 0 := by
  unfold yc1000Status
  dsimp only
  split
  · rename_i set
    exact absurd set quiet
  · rfl

/-- The part of a block that a decoder writes behind the id. -/
def Decoder.tail : Decoder → List Byte → List Byte
  | yc1000 => tail1000
  | _ => tail600

section Blocks

variable {d : Decoder} {data : Frame} {id tail : List Byte}

/-- A block is checked behind its id. -/
theorem isBlock_of_tail (twelve : id.length = 12) (code : tail.take 2 = d.code) (width : tail.length + 12 = d.width)
    (groups : ∀ g ∈ d.groups, tail.getD (g.1 - 12) nul = anySet (d.web data) g.2)
    (bits : ∀ p ∈ d.places, tail.getD (p.1 - 12) nul = (d.web data).getD p.2 nul)
    (ends : tail.drop (d.width - 15) = str "END") : d.IsBlock id data (id ++ tail) := by
  have behind (i : Nat) (far : 12 ≤ i) : (id ++ tail).getD i nul = tail.getD (i - 12) nul := by
    rw [List.getD_append_right _ _ _ _ (twelve ▸ far), twelve]
  have wide : 15 ≤ d.width := by cases d <;> decide
  constructor
  · rw [← twelve, List.take_left]
  · rw [← twelve, List.drop_left, code]
  · rw [List.length_append, twelve, Nat.add_comm, width]
  · intro g mem
    have far : 12 ≤ g.1 := by revert g; cases d <;> decide
    rw [behind _ far, groups g mem]
  · intro p mem
    have far : 12 ≤ p.1 := by revert p; cases d <;> decide
    rw [behind _ far, bits p mem]
  · have split : d.width - 3 = id.length + (d.width - 15) := by omega
    rw [split, List.drop_length_add_append, ends]

theorem tail_width (d : Decoder) (web : List Byte) : (d.tail web).length + 12 = d.width := by
  cases d <;> rfl

theorem tail_groups (d : Decoder) (web : List Byte) :
    ∀ g ∈ d.groups, (d.tail web).getD (g.1 - 12) nul = anySet web g.2 := by
  cases d
  all_goals
    simp only [Decoder.tail, tail_cells, Decoder.groups, List.forall_mem_cons, List.not_mem_nil, false_implies,
      implies_true, and_true]
    exact ⟨rfl, rfl, rfl, rfl⟩

theorem tail_places (d : Decoder) (web : List Byte) :
    ∀ p ∈ d.places, (d.tail web).getD (p.1 - 12) nul = web.getD p.2 nul := by
  cases d
  all_goals
    simp only [Decoder.tail, tail_cells, Decoder.places, List.forall_mem_cons, List.not_mem_nil, false_implies,
      implies_true, and_true]
    exact ⟨rfl, rfl, rfl, rfl, rfl, rfl, rfl, rfl, rfl, rfl, rfl, rfl, rfl, rfl⟩

theorem tail_code (d : Decoder) (web : List Byte) : (d.tail web).take 2 = d.code := by
  cases d <;> rfl

theorem tail_ends (d : Decoder) (web : List Byte) : (d.tail web).drop (d.width - 15) = str "END" := by
  cases d <;> rfl

theorem tail_isBlock (d : Decoder) (data : Frame) (twelve : id.length = 12) :
    d.IsBlock id data (id ++ d.tail (d.web data)) :=
  isBlock_of_tail twelve (tail_code d _) (tail_width d _) (tail_groups d _) (tail_places d _) (tail_ends d _)

/-- Only the first 37 characters of `status_web` are read. -/
theorem tail_append (d : Decoder) (data : Frame) (rest : List Byte) :
    d.tail (d.web data ++ rest) = d.tail (d.web data) := by
  have inside (i : Nat) (small : i < 37) : i < (d.web data).length := d.web_length data ▸ small
  have read (i : Nat) (small : i < 37) : (d.web data ++ rest).getD i nul = (d.web data).getD i nul :=
    List.getD_append _ _ _ _ (inside i small)
  have set (is : List Nat) (small : ∀ i ∈ is, i < 37) : anySet (d.web data ++ rest) is = anySet (d.web data) is :=
    anySet_append rest fun i mem => inside i (small i mem)
  cases d <;> simp (disch := decide) only [Decoder.tail, tail600, tail1000, read, set]

theorem tail_clean (d : Decoder) (data : Frame) : ∀ b ∈ d.tail (d.web data), b ≠ nul := by
  have bit (d : Decoder) (i : Nat) (small : i < 37) : ¬ (d.web data).getD i nul = nul := d.web_getD_clean data small
  have set (web : List Byte) (is : List Nat) : ¬ anySet web is = nul := anySet_ne_nul web is
  have append {a b : List Byte} : (∀ x ∈ a ++ b, x ≠ nul) ↔ (∀ x ∈ a, x ≠ nul) ∧ ∀ x ∈ b, x ≠ nul :=
    List.forall_mem_append
  have text : IsText (str "07") ∧ IsText (str "04") ∧ IsText (str "END") := by decide
  have panel : IsText (str "A") ∧ IsText (str "B") ∧ IsText (str "C") := by decide
  have clean {s : List Byte} (isText : IsText s) : (∀ b ∈ s, ¬ b = nul) ↔ True :=
    iff_true_intro fun b mem => (isText b mem).1
  have zero : ¬ digit 0 = nul := by decide
  have zeros : (∀ b ∈ List.replicate 8 (digit 0), ¬ b = nul) ↔ True :=
    iff_true_intro fun b mem => List.eq_of_mem_replicate mem ▸ zero
  cases d <;>
    simp (disch := decide) only [Decoder.tail, tail600, tail1000, append, List.forall_mem_cons, List.not_mem_nil,
      false_implies, implies_true, and_self, ne_eq, not_false_eq_true, bit, set, zero, zeros, clean text.1,
      clean text.2.1, clean text.2.2, clean panel.1, clean panel.2.1, clean panel.2.2]

/-- A status function whose inverter shows the bits of the frame. -/
theorem statused_of {d : Decoder} {data : Frame} {before after : Inverter} (hasId : Record.HasId before)
    (flag : d.Reports data → after.statusSendFlag = 1 ∧ after.statusEma = cstr before.id ++ d.tail (d.web data))
    (quiet : ¬ d.Reports data → after.statusSendFlag = 0) : Statused d data (cstr before.id) after := by
  constructor
  · by_cases reports : d.Reports data
    · exact iff_of_true (flag reports).1 reports
    · exact iff_of_false (by rw [quiet reports]; decide) reports
  · intro reports
    have clean : ∀ b ∈ cstr before.id ++ d.tail (d.web data), b ≠ nul := by
      intro b mem
      rcases List.mem_append.1 mem with inId | inTail
      · have := List.mem_takeWhile_imp inId
        simpa using this
      · exact tail_clean d data b inTail
    rw [(flag reports).2, cstr_of_clean clean]
    exact tail_isBlock d data hasId

end Blocks

/-! ## What a decoder leaves -/

section Resolve

variable {T : Target} {ecu : EcuInfo} {data : Frame} {before : Inverter}

theorem reports_append (d : Decoder) (data : Frame) (rest : List Byte) :
    anySet (d.web data ++ rest) d.reportable = digit 1 ↔ d.Reports data := by
  have inside : ∀ i ∈ d.reportable, i < (d.web data).length := by
    rw [d.web_length]
    cases d <;> decide
  rw [anySet_append rest inside]
  rfl

theorem yc600Status_statused {d : Decoder} (yc600 : d ≠ .yc1000) {shown : Inverter} {rest : List Byte}
    (hasId : Record.HasId before) (id : shown.id = before.id) (web : shown.statusWeb = d.web data ++ rest) :
    Statused d data (cstr before.id) (yc600Status shown) := by
  have reportable : d.reportable = Decoder.reportable .yc600 := by
    cases d with
    | yc1000 => exact absurd rfl yc600
    | yc600 => rfl
    | yc600New => rfl
  have tail : d.tail = tail600 := by
    cases d with
    | yc1000 => exact absurd rfl yc600
    | yc600 => rfl
    | yc600New => rfl
  have iff := reports_append d data rest
  rw [← web, reportable] at iff
  apply statused_of hasId
  · intro reports
    have set := yc600Status_set (iff.2 reports)
    rw [id, web, ← tail, tail_append] at set
    exact set
  · intro quiet
    exact yc600Status_quiet fun set => quiet (iff.1 set)

theorem yc1000Status_statused {shown : Inverter} {rest : List Byte} (hasId : Record.HasId before)
    (id : shown.id = before.id) (web : shown.statusWeb = Decoder.web .yc1000 data ++ rest) :
    Statused .yc1000 data (cstr before.id) (yc1000Status shown) := by
  have iff := reports_append .yc1000 data rest
  have tail : Decoder.tail .yc1000 = tail1000 := rfl
  rw [← web] at iff
  apply statused_of hasId
  · intro reports
    have set := yc1000Status_set (iff.2 reports)
    rw [id, web, ← tail, tail_append] at set
    exact set
  · intro quiet
    exact yc1000Status_quiet fun set => quiet (iff.1 set)

theorem Statused.reportTime {d : Decoder} {id : List Byte} {inverter : Inverter} (status : Statused d data id inverter)
    (time : List Byte) : Statused d data id { inverter with lastReportTime := time } :=
  ⟨status.flag, status.block⟩

/-- The later stages keep the id and add to the front of `status_web`. -/
theorem report600_frame (T : Target) (ecuType : Int) (web : List Byte) (high low : Nat) (it : Int) (gv : ℚ)
    (data : Frame) (before : Inverter) :
    (checkYc500 ecuType (report600 T ecuType web high low (decode600 T it gv data before))).id = before.id ∧
      (checkYc500 ecuType (report600 T ecuType web high low (decode600 T it gv data before))).statusWeb =
        web ++ before.statusWeb.drop 37 := by
  dsimp only [checkYc500, report600, updateChanges, status600, power600, curgeneration600, outputEnergy600, decode600]
  exact ⟨rfl, rfl⟩

theorem report1000_frame (T : Target) (ecuType : Int) (data : Frame) (before : Inverter) :
    (checkYc1000 ecuType (report1000 T ecuType data (decode1000 T data before))).id = before.id ∧
      (checkYc1000 ecuType (report1000 T ecuType data (decode1000 T data before))).statusWeb =
        statusWeb1000 data ++ before.statusWeb.drop 37 := by
  dsimp only [checkYc1000, report1000, updateChanges, status1000, power1000, curgeneration1000, outputEnergy1000,
    decode1000]
  exact ⟨rfl, rfl⟩

theorem resolve600_statused {d : Decoder} (yc600 : d ≠ .yc1000) {it : Int} {gv : ℚ} {high low : Nat}
    (hasId : Record.HasId before) :
    Statused d data (cstr before.id) (resolve600 T ecu it gv (d.web data) high low data before).2 := by
  obtain ⟨id, web⟩ := report600_frame T ecu.ecuType (d.web data) high low it gv data before
  exact (yc600Status_statused yc600 hasId id web).reportTime ecu.broadcastTime

theorem resolve1000_statused (kept : ¬ Jumped (decode1000 T data before)) (hasId : Record.HasId before) :
    Statused .yc1000 data (cstr before.id) (resolvedata1000 T ecu data before).2 := by
  obtain ⟨id, web⟩ := report1000_frame T ecu.ecuType data before
  have resolved : (resolvedata1000 T ecu data before).2 =
      { yc1000Status (checkYc1000 ecu.ecuType (report1000 T ecu.ecuType data (decode1000 T data before))) with
        lastReportTime := ecu.broadcastTime } := congrArg Prod.snd (if_neg kept)
  rw [resolved]
  exact (yc1000Status_statused hasId id web).reportTime ecu.broadcastTime

theorem Decoder.statused {d : Decoder} (takes : d.Takes T data before) (hasId : Record.HasId before) :
    Statused d data (cstr before.id) (d.resolve T ecu data before).2 := by
  cases d with
  | yc600 => exact resolve600_statused (d := .yc600) nofun hasId
  | yc600New => exact resolve600_statused (d := .yc600New) nofun hasId
  | yc1000 => exact resolve1000_statused takes hasId

end Resolve

namespace Poll

/-! ## The flag over a round -/

/-- The frame of a log that was taken, and its decoder. -/
def answerIn (T : Target) (log : List Heard) : Option (Decoder × Frame) :=
  log.findSome? fun h => (h.decoder.filter fun d => d.Takes T h.frame h.before).map fun d => (d, h.frame)

section Flags

variable {T : Target} {ecu : EcuInfo}

theorem answerIn_refused {log : List Heard} (refused : ∀ h ∈ log, h.Refused T) (more : List Heard) :
    answerIn T (log ++ more) = answerIn T more := by
  have none : answerIn T log = none := by
    rw [answerIn, List.findSome?_eq_none_iff]
    intro h mem
    obtain ⟨d, known, takes⟩ := refused h mem
    rw [known, Option.filter_some, if_neg (by simpa using takes), Option.map_none]
  rw [answerIn, List.findSome?_append]
  change (answerIn T log).or (answerIn T more) = _
  rw [none, Option.none_or]

theorem prepared_flag (a : Answers) (x : InverterInfo) : (prepared a x).statusSendFlag = x.statusSendFlag := by
  have bound : (bindStep a x).1.statusSendFlag = x.statusSendFlag := by
    unfold bindStep
    split_ifs <;> rfl
  have modelled (y : InverterInfo) : (modelStep a y).1.statusSendFlag = y.statusSendFlag := by
    unfold modelStep
    split_ifs
    · unfold zbQueryInverterInfo
      cases zbGetReply y a.info with
      | none => rfl
      | some recv =>
        dsimp only
        split_ifs <;> rfl
    · rfl
  rw [prepared, modelled, bound]

theorem visit_silent_flag {a : Answers} {x : InverterInfo} (silent : hears a x = none) :
    (visit T ecu false a x).1.statusSendFlag = x.statusSendFlag := by
  unfold hears at silent
  rw [visit, if_neg Bool.false_ne_true]
  dsimp only
  by_cases asks : x.dataflag = 0 ∧ x.shortaddr ≠ 0
  · rw [if_pos asks]
    change (dataStep T ecu a (prepared a x)).1.statusSendFlag = _
    rw [dataStep]
    by_cases known : (prepared a x).model ≠ 0
    · rw [if_pos ⟨asks, known⟩, Option.map_eq_none_iff] at silent
      rw [if_pos known, zbQueryData_accepted, silent]
      exact prepared_flag a x
    · rw [if_neg known]
      exact prepared_flag a x
  · rw [if_neg asks]

/-- A frame from which nothing is taken leaves the flag alone. -/
theorem resolveData_flag {h : Heard} (nothing : h.decoder = none ∨ h.Refused T) :
    (resolveData T ecu h.asked h.data).statusSendFlag = h.asked.statusSendFlag := by
  rcases nothing with unknown | ⟨d, known, takes⟩
  · rw [resolveData_unknown T ecu unknown]
  · obtain ⟨deputy, resolved⟩ := resolveData_decoded T ecu known
    rw [resolved]
    exact rejected_sendFlag takes

theorem visits_flag {answers : Nat → Answers} {n j : Nat} {x : InverterInfo}
    (nothing : ∀ h ∈ heardIn T ecu answers n j x, h.decoder = none ∨ h.Refused T) :
    (visits T ecu answers n j x).statusSendFlag = x.statusSendFlag := by
  induction n generalizing j x with
  | zero => rfl
  | succ n ih =>
    rw [heardIn, List.forall_mem_append] at nothing
    rw [visits, ih nothing.2]
    cases heard : hears (answers j) x with
    | none => exact visit_silent_flag heard
    | some h =>
      obtain ⟨after, asked, -, -⟩ := visit_heard T ecu heard
      rw [after, resolveData_flag (nothing.1 h (by rw [heard]; exact List.mem_singleton_self h)), asked]
      exact prepared_flag (answers j) x

end Flags

/-- An entry of the table after a round, as the status message sees it. -/
structure Entry (T : Target) (log : List Heard) (id : List Byte) (y : InverterInfo) : Prop where
  silent : answerIn T log = none → y.statusSendFlag = 0
  status : ∀ d data, answerIn T log = some (d, data) → Statused d data id y.toInverter

theorem Entry.countMissing {T : Target} {log : List Heard} {id : List Byte} {y : InverterInfo}
    (entry : Entry T log id y) : Entry T log id (countMissing y) := by
  obtain ⟨n, frame⟩ := countMissing_frame y
  rw [frame]
  exact ⟨entry.silent, entry.status⟩

theorem pollRound_entry (T : Target) (round : Round) {table : List InverterInfo} {i : Nat} {x y : InverterInfo}
    (hasId : Record.HasId x.toInverter) (before : table[i]? = some x)
    (after : (pollRound T round.ecu round.answers table)[i]? = some y) :
    Entry T (heardBy T round table i) (cstr x.id) y := by
  rw [pollRound_getElem?, before, Option.map_some, Option.some_inj] at after
  rw [← after]
  apply Entry.countMissing
  have log : heardBy T round table i = heardIn T round.ecu (fun j => round.answers j i)
      (passCount T round.ecu round.answers 5 0 table) 0 (clearRound x) := by
    rw [heardBy, before]
    rfl
  rw [log]
  have flag := @visits_flag T round.ecu (fun j => round.answers j i) (passCount T round.ecu round.answers 5 0 table) 0
    (clearRound x)
  have outcome := @visits_outcome T round.ecu (fun j => round.answers j i)
    (passCount T round.ecu round.answers 5 0 table) 0 (clearRound x) rfl
  have id {z : InverterInfo} (kept : Kept (clearRound x) z) : z.id = x.id := congrArg Memory.id kept.memory
  generalize heardIn T round.ecu (fun j => round.answers j i) _ 0 (clearRound x) = frames at outcome flag ⊢
  generalize visits T round.ecu (fun j => round.answers j i) _ 0 (clearRound x) = z at outcome flag ⊢
  cases outcome with
  | missed refused kept dataflag =>
    have none : answerIn T frames = none := by
      rw [← List.append_nil frames, answerIn_refused refused]
      rfl
    refine ⟨fun _ => flag fun h mem => .inr (refused h mem), fun d data some => ?_⟩
    exact absurd (some.symm.trans none) (Option.some_ne_none _)
  | @unknown log h refused kept unknown =>
    have none : answerIn T (log ++ [h]) = none := by
      rw [answerIn_refused refused, answerIn, List.findSome?_singleton, unknown]
      rfl
    refine ⟨fun _ => flag fun g mem => ?_, fun d data some => absurd (some.symm.trans none)
      (Option.some_ne_none _)⟩
    rcases List.mem_append.1 mem with inLog | last
    · exact .inr (refused g inLog)
    · exact .inl (List.mem_singleton.1 last ▸ unknown)
  | @decoded log h d deputy refused kept known takes =>
    have taken : answerIn T (log ++ [h]) = some (d, h.frame) := by
      rw [answerIn_refused refused, answerIn, List.findSome?_singleton, known, Option.filter_some,
        if_pos (by simpa using takes), Option.map_some]
    refine ⟨fun none => absurd (taken.symm.trans none) (Option.some_ne_none _), fun d' data same => ?_⟩
    obtain ⟨rfl, rfl⟩ : d = d' ∧ h.frame = data := by simpa using taken.symm.trans same
    have asked : Record.HasId h.before := by
      change strlen h.asked.id = 12
      rw [id kept]
      exact hasId
    have status : Statused d h.frame (cstr h.before.id) (d.resolve T round.ecu h.frame h.before).2 :=
      Decoder.statused takes asked
    rw [← id kept]
    exact status

/-! ## The message -/

/-- What `save_status` appends to the message. -/
def statusSuffix (datetime : List Byte) : List Byte :=
  comma :: cstr datetime ++ [comma, digit 1, newline]

/-- The buffer of `protocol_status`. -/
def statusBuffer : Nat := maxInverterCount * 64 + recordTail

/-- The message with these blocks. -/
structure IsMessage (ecu : EcuInfo) (blocks : List (List Byte)) (text : List Byte) : Prop where
  fields : ∃ length count, text = str "APS15" ++ length ++ str "A123AAA1" ++ cstr ecu.id ++ count ++
      cstr ecu.broadcastTime ++ str "END" ++ blocks.flatten ∧
    length.length = 5 ∧ Decimal.read? length = some (text.length : Int) ∧
    count.length = 4 ∧ Decimal.read? count = some (blocks.length : Int)
  fits : text.length + (statusSuffix ecu.broadcastTime).length < statusBuffer

section Message

variable (T : Target) (round : Round) (table : List InverterInfo)

/-- The frame of the `i`-th inverter that was taken in the round shows a reported bit. -/
def reports (i : Nat) : Bool :=
  (answerIn T (heardBy T round table i)).any fun answer => answer.1.Reports answer.2

/-- The inverters that report, in the order of the table. -/
def reporting : List Nat :=
  (List.range table.length).filter (reports T round table)

/-- The block of the `i`-th inverter. -/
def BlockOf (i : Nat) (block : List Byte) : Prop :=
  ∃ x d data, table[i]? = some x ∧ answerIn T (heardBy T round table i) = some (d, data) ∧
    d.IsBlock (cstr x.id) data block

end Message

/-- The entries that pass a test, beside the places where it passes. -/
theorem forall₂_filter {α : Type} {ys : List α} {p : α → Bool} {q : Nat → Bool}
    (same : ∀ i y, ys[i]? = some y → q i = p y) :
    List.Forall₂ (fun i y => ys[i]? = some y ∧ q i = true) ((List.range ys.length).filter q) (ys.filter p) := by
  induction ys using List.reverseRecOn with
  | nil => exact .nil
  | append_singleton ys y ih =>
    have last : (ys ++ [y])[ys.length]? = some y := List.getElem?_concat_length
    have before {i : Nat} {z : α} (found : ys[i]? = some z) : (ys ++ [y])[i]? = some z := by
      rw [List.getElem?_append_left (List.getElem?_eq_some_iff.1 found).1, found]
    have passes := same _ _ last
    rw [List.length_append, List.length_singleton, List.range_succ, List.filter_append, List.filter_append]
    refine List.rel_append ?_ ?_
    · exact (ih fun i z found => same i z (before found)).imp fun i z found => ⟨before found.1, found.2⟩
    · rw [List.filter_singleton, List.filter_singleton, ← passes]
      cases holds : q ys.length with
      | true => exact .cons ⟨last, holds⟩ .nil
      | false => exact .nil

theorem Entry.reports {T : Target} {round : Round} {table : List InverterInfo} {i : Nat} {id : List Byte}
    {y : InverterInfo} (entry : Entry T (heardBy T round table i) id y) :
    reports T round table i = decide (y.statusSendFlag = 1) := by
  unfold Poll.reports
  cases answer : answerIn T (heardBy T round table i) with
  | none =>
    rw [entry.silent answer]
    rfl
  | some answer' =>
    obtain ⟨d, data⟩ := answer'
    have flag := (entry.status d data answer).flag
    exact decide_eq_decide.2 flag.symm

theorem header_length (ecu : EcuInfo) (blocks : List (List Byte)) {length count : List Byte} (five : length.length = 5)
    (four : count.length = 4) :
    (str "APS15" ++ length ++ str "A123AAA1" ++ cstr ecu.id ++ count ++ cstr ecu.broadcastTime ++ str "END" ++
      blocks.flatten).length = 25 + strlen ecu.id + strlen ecu.broadcastTime + blocks.flatten.length := by
  have texts : (str "APS15").length = 5 ∧ (str "A123AAA1").length = 8 ∧ (str "END").length = 3 := by decide
  simp only [List.length_append, texts, five, four, strlen]
  omega

/-- The message of blocks that are not too wide: it shows its length and their number and fits the buffer. -/
theorem isMessage_of {ecu : EcuInfo} {blocks : List (List Byte)} (ecuId : strlen ecu.id < 13)
    (time : strlen ecu.broadcastTime < 16) (few : blocks.length ≤ maxInverterCount)
    (narrow : ∀ block ∈ blocks, block.length ≤ 44) :
    IsMessage ecu blocks (str "APS15" ++
      Decimal.fixed 5 (25 + strlen ecu.id + strlen ecu.broadcastTime + blocks.flatten.length : Nat) ++
      str "A123AAA1" ++ cstr ecu.id ++ Decimal.fixed 4 blocks.length ++ cstr ecu.broadcastTime ++ str "END" ++
      blocks.flatten) := by
  have width : blocks.flatten.length ≤ 44 * maxInverterCount := by
    rw [List.length_flatten]
    calc (blocks.map List.length).sum ≤ (blocks.map List.length).length • 44 := by
          apply List.sum_le_card_nsmul
          intro n mem
          obtain ⟨block, inBlocks, rfl⟩ := List.mem_map.1 mem
          exact narrow block inBlocks
      _ ≤ 44 * maxInverterCount := by
          rw [List.length_map, smul_eq_mul, Nat.mul_comm]
          exact Nat.mul_le_mul_left 44 few
  have length := header_length ecu blocks (Decimal.fixed_length 5
    (25 + strlen ecu.id + strlen ecu.broadcastTime + blocks.flatten.length : Nat))
    (Decimal.fixed_length 4 blocks.length)
  unfold maxInverterCount at width few
  constructor
  · refine ⟨_, _, rfl, Decimal.fixed_length 5 _, ?_, Decimal.fixed_length 4 _, ?_⟩
    · rw [length, Decimal.read_fixed_iff (by decide)]
      omega
    · rw [Decimal.read_fixed_iff (by decide)]
      omega
  · have suffix : (statusSuffix ecu.broadcastTime).length = strlen ecu.broadcastTime + 4 := by
      simp [statusSuffix, strlen]
    have buffer : statusBuffer = 7780 := rfl
    omega

theorem protocolStatus_eq (ecuId datetime : List Byte) (after : List InverterInfo) :
    protocolStatus ecuId datetime after =
      let blocks := (after.filter (·.statusSendFlag = 1)).map fun y => cstr y.statusEma
      if blocks = [] then none
      else some (str "APS15" ++
        Decimal.fixed 5 (25 + strlen ecuId + strlen datetime + blocks.flatten.length : Nat) ++
        str "A123AAA1" ++ cstr ecuId ++ Decimal.fixed 4 blocks.length ++ cstr datetime ++ str "END" ++
        blocks.flatten) := by
  let sending := after.filter (·.statusSendFlag = 1)
  let blocks := sending.map fun y => cstr y.statusEma
  let head := str "APS1500000A123AAA1"
  let rest := cstr ecuId ++ Decimal.fixed 4 sending.length ++ cstr datetime ++ str "END" ++ blocks.flatten
  have long : head.length = 18 := by decide
  have front : (head ++ rest).take 5 = str "APS15" := List.take_append_of_le_length (by omega)
  have back : (head ++ rest).drop 10 = str "A123AAA1" ++ rest := List.drop_append_of_le_length (by omega)
  have size : (head ++ rest).length = 25 + strlen ecuId + strlen datetime + blocks.flatten.length := by
    have ending : (str "END").length = 3 := by decide
    simp only [rest, List.length_append, Decimal.fixed_length, ending, long, strlen]
    omega
  have buff : head ++ cstr ecuId ++ Decimal.fixed 4 sending.length ++ cstr datetime ++ str "END" ++
      sending.flatMap (fun y => cstr y.statusEma) = head ++ rest := by
    simp only [rest, blocks, List.append_assoc, List.flatMap_def]
  have filled : blocks = [] ↔ ¬ sending.length > 0 := by
    rw [List.map_eq_nil_iff, ← List.length_eq_zero_iff]
    omega
  unfold protocolStatus
  change (if sending.length > 0 then _ else none) = if blocks = [] then none else _
  by_cases some : sending.length > 0
  · rw [if_pos some, if_neg fun empty => filled.1 empty some, buff, front, back, size]
    simp only [rest, blocks, sending, List.append_assoc, List.length_map]
  · rw [if_neg some, if_pos (filled.2 some)]

theorem blocks_narrow {T : Target} {round : Round} {table : List InverterInfo} {is : List Nat}
    {blocks : List (List Byte)} (shown : List.Forall₂ (BlockOf T round table) is blocks) :
    ∀ block ∈ blocks, block.length ≤ 44 := by
  induction shown with
  | nil => exact fun block mem => absurd mem List.not_mem_nil
  | cons blockOf _ ih =>
    obtain ⟨x, d, data, -, -, isBlock⟩ := blockOf
    refine List.forall_mem_cons.2 ⟨?_, ih⟩
    rw [isBlock.width]
    cases d <;> decide

/-- The status message of a round: none when no frame shows a reported bit, otherwise one block for each inverter
whose frame does, under a head with their count and the length, within the buffer. -/
theorem status_message (T : Target) (round : Round) (slots : List InverterInfo) (ecuId : strlen round.ecu.id < 13)
    (time : strlen round.ecu.broadcastTime < 16) :
    let table := (listed slots).take maxInverterCount
    let message := protocolStatus round.ecu.id round.ecu.broadcastTime (pollRound T round.ecu round.answers table)
    (message = none ↔ reporting T round table = []) ∧
      ∀ text, message = some text → ∃ blocks,
        List.Forall₂ (BlockOf T round table) (reporting T round table) blocks ∧ IsMessage round.ecu blocks text := by
  intro table message
  have ids : ∀ x ∈ table, Record.HasId x.toInverter := fun x mem => listed_hasId x (List.mem_of_mem_take mem)
  have few : table.length ≤ maxInverterCount := (List.length_take ..).trans_le (Nat.min_le_left _ _)
  let after := pollRound T round.ecu round.answers table
  have size : after.length = table.length := pollRound_length T round table
  have entry {i : Nat} {x y : InverterInfo} (before : table[i]? = some x) (found : after[i]? = some y) :
      Entry T (heardBy T round table i) (cstr x.id) y :=
    pollRound_entry T round (ids x (List.mem_of_getElem? before)) before found
  have met {i : Nat} {y : InverterInfo} (found : after[i]? = some y) : ∃ x, table[i]? = some x := by
    have inside : i < table.length := size ▸ (List.getElem?_eq_some_iff.1 found).1
    exact ⟨_, List.getElem?_eq_getElem inside⟩
  have flagged (i : Nat) (y : InverterInfo) (found : after[i]? = some y) :
      reports T round table i = decide (y.statusSendFlag = 1) := by
    obtain ⟨x, before⟩ := met found
    exact (entry before found).reports
  have paired := forall₂_filter flagged
  rw [size] at paired
  change List.Forall₂ _ (reporting T round table) _ at paired
  have shown : List.Forall₂ (BlockOf T round table) (reporting T round table)
      ((after.filter (·.statusSendFlag = 1)).map fun y => cstr y.statusEma) := by
    rw [List.forall₂_map_right_iff]
    refine paired.imp fun i y found => ?_
    obtain ⟨x, before⟩ := met found.1
    obtain ⟨⟨d, data⟩, answer, reported⟩ := (Option.any_eq_true _ _).1 found.2
    exact ⟨x, d, data, before, answer, ((entry before found.1).status d data answer).block (by simpa using reported)⟩
  have sent : ((after.filter (·.statusSendFlag = 1)).map fun y => cstr y.statusEma).length ≤ maxInverterCount := by
    rw [List.length_map]
    exact (List.length_filter_le _ _).trans (size.trans_le few)
  generalize blocks : ((after.filter (·.statusSendFlag = 1)).map fun y => cstr y.statusEma) = texts at shown sent
  have made : message = _ := protocolStatus_eq round.ecu.id round.ecu.broadcastTime after
  rw [blocks] at made
  dsimp only at made
  constructor
  · rw [made]
    constructor
    · intro none
      split_ifs at none with empty
      rw [empty] at shown
      exact List.forall₂_nil_right_iff.1 shown
    · intro empty
      rw [empty] at shown
      rw [if_pos (List.forall₂_nil_left_iff.1 shown)]
  · intro text some
    rw [made] at some
    split_ifs at some with empty
    rw [← Option.some_inj.1 some]
    exact ⟨texts, shown, isMessage_of ecuId time sent (blocks_narrow shown)⟩

theorem status_message_sample :
    let table := (listed [sampleInverter]).take maxInverterCount
    let message := protocolStatus [] [] (pollRound sampleTarget (sampleRound 0xBB).ecu (sampleRound 0xBB).answers table)
    (message = none ↔ reporting sampleTarget (sampleRound 0xBB) table = []) ∧
      ∀ text, message = some text → ∃ blocks,
        List.Forall₂ (BlockOf sampleTarget (sampleRound 0xBB) table)
            (reporting sampleTarget (sampleRound 0xBB) table) blocks ∧
          IsMessage (sampleRound 0xBB).ecu blocks text :=
  status_message sampleTarget (sampleRound 0xBB) [sampleInverter] (by decide) (by decide)

/-- What `save_status` writes behind the message is the suffix that the buffer has to hold. -/
theorem saveStatus_suffix (d : Forward.Dir) (pos : Nat) (text : List Byte) {datetime : List Byte}
    (clean : ∀ b ∈ datetime, b ≠ nul) :
    Forward.saveStatus d pos text datetime =
      Forward.appendFile d pos (Forward.dayFile datetime) (newline :: (text ++ statusSuffix datetime)) := by
  rw [Forward.saveStatus, statusSuffix, cstr_of_clean clean, List.cons_append, List.append_assoc, List.cons_append]

end Poll

end Ecu
