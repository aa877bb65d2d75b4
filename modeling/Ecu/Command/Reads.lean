import Ecu.Command.InverterId
import Ecu.Config.Comm
import Ecu.Forward.Bounds
import Ecu.Socket.Dispatch

/-!
# Where the functions of the EMA read

`msg_format_check` does not want a message to be longer than its head, or to end in `END`. The functions read their
fields at fixed places, their items by the number in the message, and A107 goes from one `END` to the next.
`functionUse` is what a function does with a message, and `FunctionReaches` the messages for which it stays in it.
-/

namespace Ecu.Command

open Socket Forward Config Protection

/-! ## Reading -/

/-- What a function does with a message. -/
structure Use where
  /-- The places that it reads. -/
  reads : List Nat
  /-- The lengths of the sections that it copies. -/
  sections : List Nat := []
  /-- The turns of its loop. -/
  iterations : Nat := 0
  /-- The items or sections that the message has for it. -/
  records : Nat := 0

/-- `buffer` of A107, `command` of A108 -/
def sectionSize : Nat := 256

/-- The function reads no further than the NUL behind the message, the sections and their NUL fit, and there is an item
for each turn. -/
structure Use.Inside (use : Use) (recvbuffer : List Byte) : Prop where
  reads : ∀ i ∈ use.reads, i ≤ strlen recvbuffer
  sections : ∀ n ∈ use.sections, n < sectionSize
  iterations : use.iterations ≤ use.records

section Reads

variable (recvbuffer : List Byte)

/-- Fields, each by its place and its length. -/
def fieldReads (fields : List (Nat × Nat)) : List Nat :=
  fields.flatMap fun field => strncpyReads recvbuffer field.1 field.2

/-- `strlen`, `sscanf` -/
def textReads (start : Nat) : List Nat :=
  List.range' start (strlen (recvbuffer.drop start) + 1)

/-- The text from a place on. -/
def textFrom (start : Nat) : List Byte :=
  cstr (recvbuffer.drop start)

/-- `msg_get_one_section` -/
def sectionReads (start : Nat) : List Nat :=
  match beforeEnd (textFrom recvbuffer start) with
  | none => textReads recvbuffer start
  | some buffer => List.range' start (buffer.length + 3)

/-- Items of `step` characters with these fields, if their number passes. -/
def itemsUse (head : List Nat) (start step : Nat) (fields : List (Nat × Nat)) (passes : Bool) (num : Int) : Use where
  reads := head ++ textReads recvbuffer start ++
    if passes then
      (List.range num.toNat).flatMap fun i =>
        fieldReads recvbuffer (fields.map fun field => (start + i * step + field.1, field.2))
    else []
  iterations := if passes then num.toNat else 0
  records := strlen (recvbuffer.drop start) / step

/-- The functions with a type, of which one is for the inverters in the message. -/
structure Listed where
  /-- The length of the value for all, which type 0 has. -/
  value : Option Nat
  kind : Int
  step : Nat
  fields : List (Nat × Nat)
  passes : List Byte → Int → Bool

def listedUse (params : Listed) : Use :=
  let head := fieldReads recvbuffer [(30, 1), (31, 4), (35, 14)]
  let type := msgGetInt (recvbuffer.drop 30) 1
  let num := msgGetInt (recvbuffer.drop 31) 4
  if type = 0 ∧ params.value.isSome then ⟨head ++ strncpyReads recvbuffer 52 (params.value.getD 0), [], 0, 0⟩
  else if type = params.kind then
    itemsUse recvbuffer head 52 params.step params.fields (params.passes (recvbuffer.drop 52) num) num
  else ⟨head, [], 0, 0⟩

/-- The loop of `set_comm_config`: what it reads, and the lengths of its sections. -/
def sectionsUse : Nat → Nat → List Nat × List Nat
  | 0, _ => ([], [])
  | num + 1, cfgBegin =>
    match beforeEnd (textFrom recvbuffer cfgBegin) with
    | none =>
      let later := sectionsUse num (cfgBegin + 2)
      (sectionReads recvbuffer cfgBegin ++ later.1, later.2)
    | some buffer =>
      let later := sectionsUse num (cfgBegin + buffer.length + 3)
      (sectionReads recvbuffer cfgBegin ++ later.1, buffer.length :: later.2)

end Reads

/-- The sections of a text, as far as the fuel goes. -/
def sectionsIn : Nat → List Byte → List (List Byte)
  | 0, _ => []
  | fuel + 1, text =>
    match beforeEnd text with
    | none => []
    | some buffer => buffer :: sectionsIn fuel (text.drop (buffer.length + 3))

/-- Each of them takes three characters. -/
def allSections (text : List Byte) : List (List Byte) :=
  sectionsIn text.length text

/-! ## The functions -/

def maxpowerListed : Listed := ⟨some 3, 1, 18, [(0, 12), (12, 3)], fun msg num => msgNumCheckEnd msg num 15⟩
def onoffListed : Listed := ⟨none, 2, 16, [(0, 12), (12, 1)], fun msg num => msgNumCheckEnd msg num 13⟩
def gfdiListed : Listed := ⟨none, 1, 16, [(0, 12), (12, 1)], fun msg num => msgNumCheckEnd msg num 13⟩
def irdListed : Listed := ⟨some 1, 1, 16, [(0, 12), (12, 1)], fun msg num => msgNumCheckEnd msg num 13⟩
def updateListed : Listed := ⟨none, 1, 12, [(0, 12)], fun msg num => msgNumCheck msg num 12⟩

/-- What a function does with the message. `stack` is what `flag` of A103 held. -/
def functionUse (stack : Int) (recvbuffer : List Byte) : Function → Use
  | .responseInverterId | .responseCommConfig | .responseInverterMaxpower | .readInverterIrd |
    .responseEcuAcProtection17
  | .readInverterAcProtection17 | .responseInverterPowerFactor => ⟨fieldReads recvbuffer [(34, 14)], [], 0, 0⟩
  | .setInverterId =>
    let num := num103 recvbuffer
    let flag := operation103 stack recvbuffer
    itemsUse recvbuffer (textReads recvbuffer 30 ++ fieldReads recvbuffer [(31, 3), (34, 14)]) 51 15 [(0, 12)]
      (msgNumCheckEnd (recvbuffer.drop 51) num 12 && (flag = 1 || flag = 2)) num
  | .setCommConfig =>
    let num := unsigned (msgGetInt (recvbuffer.drop 30) 1)
    let loop := sectionsUse recvbuffer num 48
    ⟨fieldReads recvbuffer [(30, 1), (31, 14)] ++ loop.1, loop.2, num, (allSections (textFrom recvbuffer 48)).length⟩
  | .customCommand =>
    ⟨fieldReads recvbuffer [(30, 14)] ++ sectionReads recvbuffer 47,
      (beforeEnd (textFrom recvbuffer 47)).toList.map List.length, 0, 0⟩
  | .setInverterMaxpower => listedUse recvbuffer maxpowerListed
  | .setInverterOnoff => listedUse recvbuffer onoffListed
  | .clearInverterGfdi => listedUse recvbuffer gfdiListed
  | .setEcuFlag => ⟨fieldReads recvbuffer [(30, 14), (44, 1)], [], 0, 0⟩
  | .setInverterIrd => listedUse recvbuffer irdListed
  | .setInverterAcProtection17 =>
    let num := msgGetInt (recvbuffer.drop 44) 3
    let head := fieldReads recvbuffer ([(30, 14), (44, 3)] ++ fields132.map fun field => (field.place, field.len))
    if num = 0 then ⟨head, [], 0, 0⟩
    else itemsUse recvbuffer head 123 12 [(0, 12)] (msgNumCheck (recvbuffer.drop 123) num 12) num
  | .setInverterUpdate => listedUse recvbuffer updateListed
  | .setAllInverterPowerFactor =>
    ⟨30 :: (if recvbuffer.getD 30 nul = letterA then fieldReads recvbuffer [(31, 3)] else []) ++
      fieldReads recvbuffer [(34, 14)], [], 0, 0⟩

/-! ## Messages that are long enough -/

/-- The message reaches to its items, where the type is one with a value or with items. -/
def Listed.Reaches (params : Listed) (recvbuffer : List Byte) : Prop :=
  35 ≤ strlen recvbuffer ∧
    let type := msgGetInt (recvbuffer.drop 30) 1
    (type = 0 ∧ params.value.isSome ∨ type = params.kind → 52 ≤ strlen recvbuffer)

/-- The message reaches to the last place that the function reads, whatever follows there, and has the sections that it
announces. -/
def FunctionReaches (recvbuffer : List Byte) : Function → Prop
  | .responseInverterId | .responseCommConfig | .responseInverterMaxpower | .readInverterIrd |
    .responseEcuAcProtection17
  | .readInverterAcProtection17 | .responseInverterPowerFactor | .setAllInverterPowerFactor => 34 ≤ strlen recvbuffer
  | .setInverterId => 51 ≤ strlen recvbuffer
  | .setCommConfig =>
    let num := unsigned (msgGetInt (recvbuffer.drop 30) 1)
    let sections := allSections (textFrom recvbuffer 48)
    31 ≤ strlen recvbuffer ∧ (0 < num → 48 ≤ strlen recvbuffer) ∧ num ≤ sections.length ∧
      ∀ buffer ∈ sections.take num, buffer.length < sectionSize
  | .customCommand =>
    47 ≤ strlen recvbuffer ∧ ∀ buffer ∈ beforeEnd (textFrom recvbuffer 47), buffer.length < sectionSize
  | .setInverterMaxpower => maxpowerListed.Reaches recvbuffer
  | .setInverterOnoff => onoffListed.Reaches recvbuffer
  | .clearInverterGfdi => gfdiListed.Reaches recvbuffer
  | .setEcuFlag => 44 ≤ strlen recvbuffer
  | .setInverterIrd => irdListed.Reaches recvbuffer
  | .setInverterAcProtection17 =>
    115 ≤ strlen recvbuffer ∧ (msgGetInt (recvbuffer.drop 44) 3 ≠ 0 → 123 ≤ strlen recvbuffer)
  | .setInverterUpdate => updateListed.Reaches recvbuffer

/-! ## Fields -/

section Inside

variable {recvbuffer : List Byte}

theorem fieldReads_inside_iff {fields : List (Nat × Nat)} (some : ∀ field ∈ fields, 0 < field.2) :
    (∀ i ∈ fieldReads recvbuffer fields, i ≤ strlen recvbuffer) ↔ ∀ field ∈ fields, field.1 ≤ strlen recvbuffer := by
  constructor
  · exact fun inside field mem => (strncpyReads_inside (some field mem)).1 fun i read =>
      inside i (List.mem_flatMap.2 ⟨field, mem, read⟩)
  · intro starts i mem
    obtain ⟨field, inFields, read⟩ := List.mem_flatMap.1 mem
    exact (strncpyReads_inside (some field inFields)).2 (starts field inFields) i read

theorem textReads_inside_iff {start : Nat} :
    (∀ i ∈ textReads recvbuffer start, i ≤ strlen recvbuffer) ↔ start ≤ strlen recvbuffer := by
  constructor
  · exact fun inside => inside start (List.mem_range'_1.2 ⟨Nat.le_refl _, by omega⟩)
  · intro begins i mem
    have left : strlen (recvbuffer.drop start) = strlen recvbuffer - start := by
      rw [strlen, cstr_drop begins, List.length_drop, strlen]
    have bounds := List.mem_range'_1.1 mem
    omega

theorem beforeEnd_length {text buffer : List Byte} (found : beforeEnd text = some buffer) :
    buffer.length + 3 ≤ text.length := by
  induction text generalizing buffer with
  | nil => cases found
  | cons b text ih =>
    rw [beforeEnd] at found
    split_ifs at found with here
    · obtain rfl := Option.some.inj found
      have three : (str "END").length = 3 := by
        rw [str_ofList]
        rfl
      have long := here.length_le
      rw [three] at long
      exact long
    · obtain ⟨rest, later, rfl⟩ := Option.map_eq_some_iff.1 found
      have long := ih later
      rw [List.length_cons, List.length_cons]
      omega

theorem textFrom_length {start : Nat} (inside : start ≤ strlen recvbuffer) :
    (textFrom recvbuffer start).length = strlen recvbuffer - start := by
  rw [textFrom, cstr_drop inside, List.length_drop, strlen]

theorem sectionReads_inside_iff {start : Nat} :
    (∀ i ∈ sectionReads recvbuffer start, i ≤ strlen recvbuffer) ↔ start ≤ strlen recvbuffer := by
  rw [sectionReads]
  cases found : beforeEnd (textFrom recvbuffer start) with
  | none => exact textReads_inside_iff
  | some buffer =>
    dsimp only
    constructor
    · exact fun inside => inside start (List.mem_range'_1.2 ⟨Nat.le_refl _, by omega⟩)
    · intro begins i mem
      have bounds := List.mem_range'_1.1 mem
      have long := beforeEnd_length found
      rw [textFrom_length begins] at long
      omega

/-! ## Items -/

/-- Where the number passes there are as many items, and their fields are in them. -/
theorem itemsUse_inside_iff {head : List Nat} {start step : Nat} {fields : List (Nat × Nat)} {passes : Bool} {num : Int}
    (some : ∀ field ∈ fields, 0 < field.2) (within : ∀ field ∈ fields, field.1 ≤ step) (positive : 0 < step)
    (fits : passes = true → num.toNat * step ≤ strlen (recvbuffer.drop start)) :
    (itemsUse recvbuffer head start step fields passes num).Inside recvbuffer ↔
      (∀ i ∈ head, i ≤ strlen recvbuffer) ∧ start ≤ strlen recvbuffer := by
  constructor
  · intro inside
    have reads := inside.reads
    rw [itemsUse] at reads
    dsimp only at reads
    rw [List.forall_mem_append, List.forall_mem_append, textReads_inside_iff] at reads
    exact reads.1
  · rintro ⟨heads, begins⟩
    have left : strlen (recvbuffer.drop start) = strlen recvbuffer - start := by
      rw [strlen, cstr_drop begins, List.length_drop, strlen]
    rw [left] at fits
    refine ⟨?_, fun n mem => absurd mem List.not_mem_nil, ?_⟩
    · rw [itemsUse]
      dsimp only
      rw [List.forall_mem_append, List.forall_mem_append, textReads_inside_iff]
      refine ⟨⟨heads, begins⟩, ?_⟩
      split_ifs with passed
      · intro i mem
        obtain ⟨k, small, read⟩ := List.mem_flatMap.1 mem
        refine (fieldReads_inside_iff ?_).2 ?_ i read
        · intro field inItem
          obtain ⟨own, inFields, rfl⟩ := List.mem_map.1 inItem
          exact some own inFields
        · intro field inItem
          obtain ⟨own, inFields, rfl⟩ := List.mem_map.1 inItem
          have next : (k + 1) * step ≤ num.toNat * step := Nat.mul_le_mul_right step (List.mem_range.1 small)
          have room := fits passed
          have offset := within own inFields
          rw [Nat.succ_mul] at next
          dsimp only
          omega
      · exact fun i mem => absurd mem List.not_mem_nil
    · rw [itemsUse]
      dsimp only
      rw [left]
      split_ifs with passed
      · exact (Nat.le_div_iff_mul_le positive).2 (fits passed)
      · exact Nat.zero_le _

/-- A number that passes is the number of the items. -/
theorem fits_of_number {num : Int} {width more n : Nat} (below : num < 10000) (narrow : width ≤ 100) (few : more ≤ 100)
    (same : n = unsigned (num * width + more)) : num.toNat * width ≤ n := by
  rcases lt_or_ge num 0 with negative | nonneg
  · rw [Int.toNat_of_nonpos negative.le, Nat.zero_mul]
    exact Nat.zero_le n
  · obtain ⟨k, rfl⟩ := Int.eq_ofNat_of_zero_le nonneg
    have small : k * width ≤ 10000 * 100 := Nat.mul_le_mul (by omega) narrow
    have number : (k : Int) * width + more = ((k * width + more : Nat) : Int) := by push_cast; ring
    rw [number, unsigned_of_nat (by omega)] at same
    rw [Int.toNat_natCast]
    omega

theorem fits_end {msg : List Byte} {num : Int} {len : Nat} (below : num < 10000) (narrow : len ≤ 97)
    (passed : msgNumCheckEnd msg num len = true) : num.toNat * (len + 3) ≤ strlen msg := by
  have same : strlen msg = unsigned (num * (len + 3 : Nat) + (0 : Nat)) := by
    rw [of_decide_eq_true passed]
    push_cast
    rw [add_zero]
  exact fits_of_number below (by omega) (by omega) same

theorem fits_plain {msg : List Byte} {num : Int} {len : Nat} (below : num < 10000) (narrow : len ≤ 100)
    (passed : msgNumCheck msg num len = true) : num.toNat * len ≤ strlen msg :=
  fits_of_number below narrow (by decide : 3 ≤ 100) (of_decide_eq_true passed)

/-! ## The functions with a type -/

/-- The fields have places in an item, and the number that passes is that of the items. -/
structure Listed.Sound (params : Listed) : Prop where
  value : ∀ width ∈ params.value, 0 < width
  some : ∀ field ∈ params.fields, 0 < field.2
  within : ∀ field ∈ params.fields, field.1 ≤ params.step
  positive : 0 < params.step
  fits : ∀ {msg : List Byte} {num : Int}, num < 10000 → params.passes msg num = true →
    num.toNat * params.step ≤ strlen msg

theorem listedHead_inside_iff : (∀ i ∈ fieldReads recvbuffer [(30, 1), (31, 4), (35, 14)], i ≤ strlen recvbuffer) ↔
    35 ≤ strlen recvbuffer := by
  rw [fieldReads_inside_iff (by decide)]
  simp only [List.forall_mem_cons, List.not_mem_nil, false_imp_iff, implies_true, and_true]
  omega

theorem plain_inside_iff {reads : List Nat} :
    (⟨reads, [], 0, 0⟩ : Use).Inside recvbuffer ↔ ∀ i ∈ reads, i ≤ strlen recvbuffer :=
  ⟨fun inside => inside.reads, fun inside => ⟨inside, fun _ mem => absurd mem List.not_mem_nil, Nat.le_refl 0⟩⟩

theorem listedUse_inside_iff {params : Listed} (sound : params.Sound) :
    (listedUse recvbuffer params).Inside recvbuffer ↔ params.Reaches recvbuffer := by
  have below : msgGetInt (recvbuffer.drop 31) 4 < 10000 := msgGetInt_lt _ 4
  rw [listedUse, Listed.Reaches]
  dsimp only
  split_ifs with all single
  · have positive : 0 < params.value.getD 0 := by
      obtain ⟨width, there⟩ := Option.isSome_iff_exists.1 all.2
      rw [there]
      exact sound.value width there
    rw [plain_inside_iff, List.forall_mem_append, listedHead_inside_iff, strncpyReads_inside positive]
    exact and_congr_right fun _ => ⟨fun room _ => room, fun room => room (.inl all)⟩
  · rw [itemsUse_inside_iff sound.some sound.within sound.positive (sound.fits below), listedHead_inside_iff]
    exact and_congr_right fun _ => ⟨fun room _ => room, fun room => room (.inr single)⟩
  · rw [plain_inside_iff, listedHead_inside_iff]
    exact ⟨fun room => ⟨room, fun either => absurd either (not_or.2 ⟨all, single⟩)⟩, And.left⟩

/-! ## Sections -/

theorem sectionsIn_enough {first second : Nat} {text : List Byte} (enough : text.length ≤ first)
    (also : text.length ≤ second) :
    sectionsIn first text = sectionsIn second text := by
  induction first generalizing second text with
  | zero =>
    obtain rfl := List.eq_nil_of_length_eq_zero (Nat.le_zero.1 enough)
    cases second <;> rfl
  | succ first ih =>
    cases second with
    | zero =>
      obtain rfl := List.eq_nil_of_length_eq_zero (Nat.le_zero.1 also)
      rfl
    | succ second =>
      rw [sectionsIn, sectionsIn]
      cases found : beforeEnd text with
      | none => rfl
      | some buffer =>
        dsimp only
        have long := beforeEnd_length found
        have rest : (text.drop (buffer.length + 3)).length ≤ text.length - 3 := by
          rw [List.length_drop]
          omega
        have inFirst : text.length - 3 ≤ first := by omega
        have inSecond : text.length - 3 ≤ second := by omega
        rw [ih (rest.trans inFirst) (rest.trans inSecond)]

theorem allSections_cons {text buffer : List Byte} (found : beforeEnd text = some buffer) :
    allSections text = buffer :: allSections (text.drop (buffer.length + 3)) := by
  have long := beforeEnd_length found
  obtain ⟨fuel, length⟩ : ∃ fuel, text.length = fuel + 1 := ⟨text.length - 1, by omega⟩
  rw [allSections, length, sectionsIn, found]
  dsimp only
  have rest : (text.drop (buffer.length + 3)).length ≤ fuel := by
    rw [List.length_drop]
    omega
  rw [allSections, sectionsIn_enough rest (Nat.le_refl _)]

theorem allSections_nil {text : List Byte} (none : beforeEnd text = none) : allSections text = [] := by
  cases text with
  | nil => rfl
  | cons b text => rw [allSections, List.length_cons, sectionsIn, none]

/-- As far as there are sections, the loop takes them one after the other. -/
theorem sectionsUse_eq {num cfgBegin : Nat} (begins : cfgBegin ≤ strlen recvbuffer)
    (enough : num ≤ (allSections (textFrom recvbuffer cfgBegin)).length) :
    (∀ i ∈ (sectionsUse recvbuffer num cfgBegin).1, i ≤ strlen recvbuffer) ∧
      (sectionsUse recvbuffer num cfgBegin).2 = ((allSections (textFrom recvbuffer cfgBegin)).take num).map
        List.length := by
  induction num generalizing cfgBegin with
  | zero => exact ⟨fun i mem => absurd mem List.not_mem_nil, rfl⟩
  | succ num ih =>
    cases found : beforeEnd (textFrom recvbuffer cfgBegin) with
    | none =>
      rw [allSections_nil found] at enough
      exact absurd enough (Nat.not_succ_le_zero num)
    | some buffer =>
      have long := beforeEnd_length found
      rw [textFrom_length begins] at long
      have next : (textFrom recvbuffer cfgBegin).drop (buffer.length + 3) =
          textFrom recvbuffer (cfgBegin + buffer.length + 3) := by
        rw [textFrom, textFrom, cstr_drop begins, cstr_drop (by omega), List.drop_drop, Nat.add_assoc]
      rw [allSections_cons found, next, List.length_cons] at enough
      obtain ⟨reads, lengths⟩ := ih (by omega) (Nat.le_of_succ_le_succ enough)
      rw [sectionsUse, found]
      dsimp only
      rw [List.forall_mem_append, sectionReads_inside_iff, allSections_cons found, next, lengths]
      exact ⟨⟨begins, reads⟩, rfl⟩

theorem sectionsUse_begins {num cfgBegin : Nat} (some : 0 < num)
    (inside : ∀ i ∈ (sectionsUse recvbuffer num cfgBegin).1, i ≤ strlen recvbuffer) : cfgBegin ≤ strlen recvbuffer := by
  obtain ⟨num, rfl⟩ := Nat.exists_eq_succ_of_ne_zero (Nat.ne_of_gt some)
  refine sectionReads_inside_iff.1 fun i mem => inside i ?_
  rw [sectionsUse]
  cases beforeEnd (textFrom recvbuffer cfgBegin) with
  | none => exact List.mem_append_left _ mem
  | some buffer => exact List.mem_append_left _ mem

theorem setCommConfig_inside_iff (stack : Int) : (functionUse stack recvbuffer .setCommConfig).Inside recvbuffer ↔
    FunctionReaches recvbuffer .setCommConfig := by
  have fields : (∀ i ∈ fieldReads recvbuffer [(30, 1), (31, 14)], i ≤ strlen recvbuffer) ↔ 31 ≤ strlen recvbuffer := by
    rw [fieldReads_inside_iff (by decide)]
    simp only [List.forall_mem_cons, List.not_mem_nil, false_imp_iff, implies_true, and_true]
    omega
  rw [functionUse, FunctionReaches]
  constructor
  · rintro ⟨reads, sections, iterations⟩
    dsimp only at reads sections iterations
    rw [List.forall_mem_append, fields] at reads
    refine ⟨reads.1, fun some => sectionsUse_begins some reads.2, iterations, fun buffer mem => ?_⟩
    have some : 0 < unsigned (msgGetInt (recvbuffer.drop 30) 1) := by
      refine Nat.pos_of_ne_zero fun zero => ?_
      rw [zero] at mem
      exact absurd mem List.not_mem_nil
    rw [(sectionsUse_eq (sectionsUse_begins some reads.2) iterations).2] at sections
    exact sections buffer.length (List.mem_map_of_mem mem)
  · rintro ⟨head, begins, enough, short⟩
    rcases Nat.eq_zero_or_pos (unsigned (msgGetInt (recvbuffer.drop 30) 1)) with zero | some
    · rw [zero]
      refine ⟨?_, fun n mem => absurd mem List.not_mem_nil, Nat.zero_le _⟩
      dsimp only
      rw [List.forall_mem_append, fields]
      exact ⟨head, fun i mem => absurd mem List.not_mem_nil⟩
    · obtain ⟨reads, lengths⟩ := sectionsUse_eq (begins some) enough
      refine ⟨?_, ?_, enough⟩
      · dsimp only
        rw [List.forall_mem_append, fields]
        exact ⟨head, reads⟩
      · dsimp only
        rw [lengths]
        intro n mem
        obtain ⟨buffer, inSections, rfl⟩ := List.mem_map.1 mem
        exact short buffer inSections

/-! ## The others -/

theorem maxpowerListed_sound : maxpowerListed.Sound where
  value := by decide
  some := by decide
  within := by decide
  positive := by decide
  fits := fun below passed => fits_end below (by decide) passed

theorem onoffListed_sound : onoffListed.Sound where
  value := by decide
  some := by decide
  within := by decide
  positive := by decide
  fits := fun below passed => fits_end below (by decide) passed

theorem gfdiListed_sound : gfdiListed.Sound where
  value := by decide
  some := by decide
  within := by decide
  positive := by decide
  fits := fun below passed => fits_end below (by decide) passed

theorem irdListed_sound : irdListed.Sound where
  value := by decide
  some := by decide
  within := by decide
  positive := by decide
  fits := fun below passed => fits_end below (by decide) passed

theorem updateListed_sound : updateListed.Sound where
  value := by decide
  some := by decide
  within := by decide
  positive := by decide
  fits := fun below passed => fits_plain below (by decide) passed

theorem report_inside_iff : (⟨fieldReads recvbuffer [(34, 14)], [], 0, 0⟩ : Use).Inside recvbuffer ↔
    34 ≤ strlen recvbuffer := by
  rw [plain_inside_iff, fieldReads_inside_iff (by decide)]
  exact List.forall_mem_singleton

theorem setInverterId_inside_iff (stack : Int) : (functionUse stack recvbuffer .setInverterId).Inside recvbuffer ↔
    FunctionReaches recvbuffer .setInverterId := by
  have below : num103 recvbuffer < 10000 := (msgGetInt_lt (recvbuffer.drop 31) 3).trans (by decide)
  have fields : (∀ i ∈ fieldReads recvbuffer [(31, 3), (34, 14)], i ≤ strlen recvbuffer) ↔ 34 ≤ strlen recvbuffer := by
    rw [fieldReads_inside_iff (by decide)]
    simp only [List.forall_mem_cons, List.not_mem_nil, false_imp_iff, implies_true, and_true]
    omega
  rw [functionUse, FunctionReaches]
  rw [itemsUse_inside_iff (by decide) (by decide) (by decide) fun passed =>
    fits_end below (by decide) (Bool.and_eq_true_iff.1 passed).1]
  rw [List.forall_mem_append, textReads_inside_iff, fields]
  omega

theorem customCommand_inside_iff (stack : Int) : (functionUse stack recvbuffer .customCommand).Inside recvbuffer ↔
    FunctionReaches recvbuffer .customCommand := by
  have field : (∀ i ∈ fieldReads recvbuffer [(30, 14)], i ≤ strlen recvbuffer) ↔ 30 ≤ strlen recvbuffer := by
    rw [fieldReads_inside_iff (by decide)]
    exact List.forall_mem_singleton
  have reads : (∀ i ∈ fieldReads recvbuffer [(30, 14)] ++ sectionReads recvbuffer 47, i ≤ strlen recvbuffer) ↔
      47 ≤ strlen recvbuffer := by
    rw [List.forall_mem_append, field, sectionReads_inside_iff]
    omega
  rw [functionUse, FunctionReaches]
  constructor
  · intro inside
    exact ⟨reads.1 inside.reads, fun buffer found => inside.sections buffer.length
      (List.mem_map_of_mem (Option.mem_toList.2 found))⟩
  · rintro ⟨begins, short⟩
    refine ⟨reads.2 begins, fun n mem => ?_, Nat.le_refl 0⟩
    obtain ⟨buffer, found, rfl⟩ := List.mem_map.1 mem
    exact short buffer (Option.mem_toList.1 found)

theorem fields132_inside_iff :
    (∀ i ∈ fieldReads recvbuffer ([(30, 14), (44, 3)] ++ fields132.map fun field => (field.place, field.len)),
      i ≤ strlen recvbuffer) ↔ 115 ≤ strlen recvbuffer := by
  have places : ([(30, 14), (44, 3)] ++ fields132.map fun field => (field.place, field.len)) =
      [(30, 14), (44, 3), (50, 3), (53, 3), (56, 3), (59, 3), (62, 5), (67, 3), (70, 3), (73, 3), (76, 3),
        (79, 6), (85, 6),
        (91, 6), (97, 6), (103, 3), (106, 3), (109, 6), (115, 5)] := rfl
  rw [places, fieldReads_inside_iff (by decide)]
  simp only [List.forall_mem_cons, List.not_mem_nil, false_imp_iff, implies_true, and_true]
  omega

theorem setInverterAcProtection17_inside_iff (stack : Int) :
    (functionUse stack recvbuffer .setInverterAcProtection17).Inside recvbuffer ↔
      FunctionReaches recvbuffer .setInverterAcProtection17 := by
  have below : msgGetInt (recvbuffer.drop 44) 3 < 10000 := (msgGetInt_lt _ 3).trans (by decide)
  rw [functionUse, FunctionReaches]
  split_ifs with all
  · rw [plain_inside_iff, fields132_inside_iff]
    exact ⟨fun long => ⟨long, fun some => absurd all some⟩, And.left⟩
  · rw [itemsUse_inside_iff (by decide) (by decide) (by decide) (fits_plain below (by decide)), fields132_inside_iff]
    exact and_congr_right fun _ => ⟨fun room _ => room, fun room => room all⟩

theorem setAllInverterPowerFactor_inside_iff (stack : Int) :
    (functionUse stack recvbuffer .setAllInverterPowerFactor).Inside recvbuffer ↔
      FunctionReaches recvbuffer .setAllInverterPowerFactor := by
  have stamp : (∀ i ∈ fieldReads recvbuffer [(34, 14)], i ≤ strlen recvbuffer) ↔ 34 ≤ strlen recvbuffer := by
    rw [fieldReads_inside_iff (by decide)]
    exact List.forall_mem_singleton
  have degree : 34 ≤ strlen recvbuffer → ∀ i ∈ fieldReads recvbuffer [(31, 3)], i ≤ strlen recvbuffer := by
    intro long
    refine (fieldReads_inside_iff (by decide)).2 (List.forall_mem_singleton.2 ?_)
    dsimp only
    omega
  rw [functionUse, FunctionReaches, plain_inside_iff, List.forall_mem_append, stamp]
  refine ⟨And.right, fun long => ⟨List.forall_mem_cons.2 ⟨by omega, ?_⟩, long⟩⟩
  split_ifs
  · exact degree long
  · exact fun i mem => absurd mem List.not_mem_nil

theorem setEcuFlag_inside_iff (stack : Int) : (functionUse stack recvbuffer .setEcuFlag).Inside recvbuffer ↔
    FunctionReaches recvbuffer .setEcuFlag := by
  rw [functionUse, FunctionReaches, plain_inside_iff, fieldReads_inside_iff (by decide)]
  simp only [List.forall_mem_cons, List.not_mem_nil, false_imp_iff, implies_true, and_true]
  omega

/-- A function stays in the message exactly where that is long enough, and for A107 and A108 if the
sections are there and short. -/
theorem function_inside_iff (stack : Int) (recvbuffer : List Byte) (f : Function) :
    (functionUse stack recvbuffer f).Inside recvbuffer ↔ FunctionReaches recvbuffer f := by
  cases f with
  | responseInverterId | responseCommConfig | responseInverterMaxpower | readInverterIrd | responseEcuAcProtection17
  | readInverterAcProtection17 | responseInverterPowerFactor => exact report_inside_iff
  | setInverterId => exact setInverterId_inside_iff stack
  | setCommConfig => exact setCommConfig_inside_iff stack
  | customCommand => exact customCommand_inside_iff stack
  | setInverterMaxpower => exact listedUse_inside_iff maxpowerListed_sound
  | setInverterOnoff => exact listedUse_inside_iff onoffListed_sound
  | clearInverterGfdi => exact listedUse_inside_iff gfdiListed_sound
  | setEcuFlag => exact setEcuFlag_inside_iff stack
  | setInverterIrd => exact listedUse_inside_iff irdListed_sound
  | setInverterAcProtection17 => exact setInverterAcProtection17_inside_iff stack
  | setInverterUpdate => exact listedUse_inside_iff updateListed_sound
  | setAllInverterPowerFactor => exact setAllInverterPowerFactor_inside_iff stack

end Inside

/-! ## A count that is not a number -/

/-- A107 with a letter for its number. -/
def letterCount : List Byte :=
  str "APS13AAA48A107AAA0203000000001A20170601080000END"

theorem letterCount_accepted : msgFormatCheck (str "203000000001") letterCount = 0 ∧ msgCmdId letterCount = 107 := by
  rw [letterCount, msgFormatCheck]
  iterate 3 rw [str_ofList]
  decide

theorem letterCount_turns : unsigned (msgGetInt (letterCount.drop 30) 1) = 4294967295 := by
  rw [letterCount, str_ofList]
  decide

theorem letterCount_sections : allSections (textFrom letterCount 48) = [] := by
  rw [letterCount, str_ofList]
  rfl

/-- There is no section behind the head, and `while(comm_cfg_num--)` begins with minus one. -/
theorem count_not_checked : ¬ ∀ (stack : Int) (ecuId recvbuffer : List Byte) (f : Function),
    msgFormatCheck ecuId recvbuffer = 0 → f.RegisteredFor (msgCmdId recvbuffer) →
      (functionUse stack recvbuffer f).Inside recvbuffer := by
  intro always
  have registered : Function.RegisteredFor .setCommConfig (msgCmdId letterCount) := by
    rw [letterCount_accepted.2]
    decide
  have inside := always 0 _ letterCount .setCommConfig letterCount_accepted.1 registered
  have enough := ((setCommConfig_inside_iff 0).1 inside).2.2.1
  rw [letterCount_turns, letterCount_sections] at enough
  exact absurd enough (by decide)

end Ecu.Command
