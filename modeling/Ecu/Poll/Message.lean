import Ecu.Forward.Control
import Ecu.Poll.Report
import Ecu.Poll.Slots

/-!
# The text of a report (`ema_control.c`, `file.c`)

A report has the number of its entries in four digits and its length in five, each written over its placeholder, then an
entry for each inverter that has changed. `save_process_result` prints the number of the command behind it, in the same
buffer, which has one byte less than 120 entries need. A116 is as it should be up to 119 inverters; A115 has between its
entries what `malloc` has left there, so it is as it should be only when there is none (`reports_encoded_iff`).
-/

namespace Ecu.Poll

open Socket

/-! ## The buffer -/

/-- What `save_process_result` prints into the buffer of the message. -/
def resultText (item : Nat) (result : List Byte) : List Byte :=
  let result := if result.getLast? = some newline then result.dropLast else result
  result ++ comma :: Forward.format3d item ++ [comma, digit 1, newline]

/-- It is what goes to the file, behind a line end. -/
theorem saveProcessResult_text (d : Forward.Dir) (pos : Nat) (time : List Byte) (item : Nat) (result : List Byte) :
    Forward.saveProcessResult d pos time item result =
      Forward.appendFile d pos (Forward.dayFile time) (newline :: resultText item result) :=
  rfl

/-- The number of the command. -/
def Event.item : Event → Nat
  | gfdi => 115
  | turnOnOff => 116

/-- The inverters that a report names. -/
def changed (e : Event) (table : List InverterInfo) : List InverterInfo :=
  table.filter fun inverter => e.flag inverter.changes = 1

/-- The entry of an inverter: its id, its state, `END`. -/
def entryOf (e : Event) (inverter : InverterInfo) : List Byte :=
  entry inverter.id (if e.last inverter.changes = 0 then digit 0 else digit 1)

/-- A message as the other side reads it: the length, the number of entries, the entries. -/
structure Encoded (e : Event) (table : List InverterInfo) (message : List Byte) : Prop where
  length : msgLength message = message.length
  count : msgGetInt (message.drop 30) 4 = (changed e table).length
  entries : message.drop 51 = ((changed e table).map (entryOf e)).flatten
  fits : (resultText e.item message).length + 1 ≤ resultBuffer

/-- A report function on every block that `malloc` can return: one message, as it should be. -/
def Reported (e : Event) (table : List InverterInfo) (saved : List Byte → Option (List Byte)) : Prop :=
  (∀ mem mem' : List Byte, mem.length = resultBuffer → mem'.length = resultBuffer → saved mem = saved mem') ∧
    ∀ mem : List Byte, mem.length = resultBuffer → ∀ message, saved mem = some message → Encoded e table message

/-! ## The fields -/

/-- A character that is perhaps written before the part that is read. -/
theorem drop_ite_set {c : Prop} [Decidable c] {text : List Byte} {i p : Nat} {b : Byte} (before : i < p) :
    (if c then text.set i b else text).drop p = text.drop p := by
  split_ifs
  · exact List.drop_set_of_lt before
  · rfl

theorem writeCounts_drop (count : Nat) (text : List Byte) {p : Nat} (behind : 9 < p) : (writeCounts count text).drop p =
    ((((text.set 30 (digit (count / 1000))).set 31 (digit (count / 100 % 10))).set 32 (digit (count / 10 % 10))).set 33
      (digit (count % 10))).drop p := by
  unfold writeCounts
  dsimp only
  rw [drop_ite_set behind, drop_ite_set (by omega), drop_ite_set (by omega), drop_ite_set (by omega),
    drop_ite_set (by omega)]

theorem writeCounts_behind (count : Nat) (text : List Byte) : (writeCounts count text).drop 51 = text.drop 51 := by
  rw [writeCounts_drop count text (by decide), List.drop_set_of_lt (by decide), List.drop_set_of_lt (by decide),
    List.drop_set_of_lt (by decide), List.drop_set_of_lt (by decide)]

theorem writeCounts_count (count : Nat) {text : List Byte} (long : 34 ≤ text.length) :
    ((writeCounts count text).drop 30).take 4 =
      [digit (count / 1000), digit (count / 100 % 10), digit (count / 10 % 10), digit (count % 10)] := by
  have four : ((text.drop 30).take 4).length = 4 := by
    rw [List.length_take, List.length_drop]
    omega
  obtain ⟨a, b, c, d, shape⟩ := List.length_eq_four.1 four
  rw [writeCounts_drop count text (by decide)]
  simp [List.drop_set, List.take_set, shape]

/-- The digits of the length, over the five letters. -/
def lengthField (n : Nat) : List Byte :=
  let text := str "AAAAA"
  let text := if n > 10000 then text.set 0 (digit (n / 10000)) else text
  let text := if n > 1000 then text.set 1 (digit (n / 1000 % 10)) else text
  let text := if n > 100 then text.set 2 (digit (n / 100 % 10)) else text
  let text := if n > 10 then text.set 3 (digit (n / 10 % 10)) else text
  if n > 0 then text.set 4 (digit (n % 10)) else text

/-- The five characters of the length. -/
def lengthPart (text : List Byte) : List Byte :=
  (text.drop 5).take 5

theorem lengthPart_set {text : List Byte} {i : Nat} {b : Byte} (behind : 10 ≤ i) :
    lengthPart (text.set i b) = lengthPart text := by
  rw [lengthPart, List.drop_set, if_neg (by omega), List.take_set_of_le (by omega)]
  rfl

theorem lengthPart_ite_set {c : Prop} [Decidable c] {text : List Byte} (i : Nat) {b : Byte} :
    lengthPart (if c then text.set (5 + i) b else text) =
      if c then (lengthPart text).set i b else lengthPart text := by
  split_ifs
  · rw [lengthPart, List.drop_set, if_neg (by omega), List.take_set, Nat.add_sub_cancel_left]
    rfl
  · rfl

theorem writeCounts_length (count : Nat) {text : List Byte} (letters : lengthPart text = str "AAAAA") :
    lengthPart (writeCounts count text) = lengthField text.length := by
  unfold writeCounts
  dsimp only
  rw [lengthPart_ite_set 4, lengthPart_ite_set 3, lengthPart_ite_set 2, lengthPart_ite_set 1, lengthPart_ite_set 0,
    lengthPart_set (by decide), lengthPart_set (by decide), lengthPart_set (by decide), lengthPart_set (by decide),
    letters]
  rfl

/-- `msg_get_int` reads no further than its field. -/
theorem msgGetInt_take (s : List Byte) (len : Nat) : msgGetInt (s.take len) len = msgGetInt s len := by
  have same : (cstr (s.take len)).take len = (cstr s).take len := by
    rw [cstr, cstr, List.take_takeWhile, List.take_takeWhile, List.take_take, Nat.min_self]
  rw [msgGetInt, msgGetInt, same]

theorem msgGetInt_length : ∀ n < maxInverterCount, msgGetInt (lengthField (51 + 16 * n)) 5 = (51 + 16 * n : Nat) := by
  decide +kernel

theorem msgGetInt_count : ∀ n < maxInverterCount,
    msgGetInt [digit (n / 1000), digit (n / 100 % 10), digit (n / 10 % 10), digit (n % 10)] 4 = (n : Nat) := by
  decide +kernel

/-! ## The message -/

theorem changed_entries (e : Event) (table : List InverterInfo) :
    (flagged e table).reduceOption = (changed e table).map (entryOf e) := by
  rw [flagged_reduceOption, List.map_map]
  rfl

section Message

variable (e : Event) (ecuId : List Byte) {mem : List Byte} {table : List InverterInfo}
  (ids : ∀ x ∈ table, strlen x.id = 12)

include ids

theorem entries_length : ((changed e table).map (entryOf e)).flatten.length = 16 * (changed e table).length := by
  have long : ∀ row ∈ (changed e table).map (entryOf e), row.length = 16 := by
    intro row mem
    obtain ⟨x, inChanged, rfl⟩ := List.mem_map.1 mem
    exact entry_length (ids x (List.mem_of_mem_filter inChanged)) _
  rw [length_flatten_entries long, List.length_map]

/-- The report function saves nothing, or the text with its count and its length. -/
theorem changedResult_cases (e : Event) (ecuId mem : List Byte) (clear : ∀ k < (changed e table).length,
      mem.getD (39 + strlen ecuId + 13 + 16 * k) nul = nul) :
    changedResult e ecuId mem table = if changed e table = [] then none else
      some (writeCounts (changed e table).length
        (reportHead e ecuId ++ ((changed e table).map (entryOf e)).flatten)) := by
  obtain ⟨text, built, -, -, texts⟩ := changedResult_built e ecuId mem ids
  rw [changed_entries, List.length_map] at built texts
  rw [built, texts clear]
  by_cases none : changed e table = []
  · rw [if_pos none, none]
    rfl
  · rw [if_neg none, if_pos (List.length_pos_iff.2 none)]

end Message

theorem resultText_length (e : Event) (message : List Byte) :
    message.length + 6 ≤ (resultText e.item message).length ∧
      (resultText e.item message).length ≤ message.length + 7 := by
  have item : (Forward.format3d e.item).length = 3 := by
    cases e <;> decide
  unfold resultText
  dsimp only
  rw [List.length_append, List.length_append, List.length_cons, item]
  split_ifs
  · rw [List.length_dropLast]
    change _ ≤ _ - 1 + 4 + 3 ∧ _ - 1 + 4 + 3 ≤ _
    omega
  · change _ ≤ _ + 4 + 3 ∧ _ + 4 + 3 ≤ _
    omega

/-- How much of the buffer a message takes. -/
theorem resultText_least (e : Event) (ecuId : List Byte) {table : List InverterInfo}
    (ids : ∀ x ∈ table, strlen x.id = 12) :
    39 + strlen ecuId + 16 * (changed e table).length + 6 ≤
      (resultText e.item (writeCounts (changed e table).length
        (reportHead e ecuId ++ ((changed e table).map (entryOf e)).flatten))).length := by
  have least := (resultText_length e (writeCounts (changed e table).length
    (reportHead e ecuId ++ ((changed e table).map (entryOf e)).flatten))).1
  rw [length_writeCounts, List.length_append, length_reportHead, entries_length e ids] at least
  exact least

/-- With room for the entries, the message of clear memory is read as it should be. -/
theorem message_encoded (e : Event) {ecuId : List Byte} (hasId : strlen ecuId = 12) {table : List InverterInfo}
    (ids : ∀ x ∈ table, strlen x.id = 12) (few : (changed e table).length < maxInverterCount) :
    Encoded e table (writeCounts (changed e table).length
      (reportHead e ecuId ++ ((changed e table).map (entryOf e)).flatten)) := by
  generalize shape : reportHead e ecuId ++ ((changed e table).map (entryOf e)).flatten = text
  have length : text.length = 51 + 16 * (changed e table).length := by
    rw [← shape, List.length_append, reportHead_length e hasId, entries_length e ids]
  have letters : lengthPart text = str "AAAAA" := by
    rw [← shape, reportHead]
    cases e <;> rfl
  refine ⟨?_, ?_, ?_, ?_⟩
  · rw [msgLength, ← msgGetInt_take]
    change msgGetInt (lengthPart _) 5 = _
    rw [writeCounts_length _ letters, length_writeCounts, length]
    exact msgGetInt_length _ few
  · rw [← msgGetInt_take, writeCounts_count _ (by omega)]
    exact msgGetInt_count _ few
  · rw [writeCounts_behind, ← shape]
    exact List.drop_left' (reportHead_length e hasId)
  · have most := (resultText_length e (writeCounts (changed e table).length text)).2
    rw [length_writeCounts, length] at most
    unfold resultBuffer
    omega

/-- An encoded message has all its entries behind an id of twelve characters, and room for the suffix. -/
theorem encoded_bounds {e : Event} {ecuId : List Byte} {table : List InverterInfo} (ids : ∀ x ∈ table, strlen x.id = 12)
    (some : changed e table ≠ []) (encoded : Encoded e table (writeCounts (changed e table).length
      (reportHead e ecuId ++ ((changed e table).map (entryOf e)).flatten))) :
    strlen ecuId = 12 ∧ (changed e table).length < maxInverterCount := by
  have positive := List.length_pos_iff.2 some
  have behind := congrArg List.length encoded.entries
  have least := resultText_least e ecuId ids
  have fits := encoded.fits
  rw [writeCounts_behind, List.length_drop, List.length_append, length_reportHead, entries_length e ids] at behind
  unfold resultBuffer at fits
  omega

/-! ## Both reports -/

theorem getD_replicate (n p : Nat) : (List.replicate n nul).getD p nul = nul := by
  rw [List.getD_eq_getElem?_getD, List.getElem?_replicate]
  split_ifs
  · rfl
  · rfl

/-- The report of cleared memory. -/
theorem reported_cleared (e : Event) (ecuId : List Byte) {table : List InverterInfo}
    (ids : ∀ x ∈ table, strlen x.id = 12) :
    (∀ message, changedResult e ecuId (List.replicate resultBuffer nul) table = some message →
      Encoded e table message) ↔
      changed e table = [] ∨ strlen ecuId = 12 ∧ (changed e table).length < maxInverterCount := by
  rw [changedResult_cases ids e ecuId _ fun k _ => getD_replicate _ _]
  by_cases none : changed e table = []
  · rw [if_pos none]
    exact iff_of_true (fun message saved => absurd saved (Option.some_ne_none message).symm) (.inl none)
  · rw [if_neg none]
    constructor
    · intro encoded
      exact .inr (encoded_bounds ids none (encoded _ rfl))
    · rintro (nobody | ⟨hasId, few⟩) message saved
      · exact absurd nobody none
      · rw [← Option.some_inj.1 saved]
        exact message_encoded e hasId ids few

/-- A character in the place of the first state's NUL makes the message longer. -/
theorem dirty_differs (e : Event) {ecuId : List Byte} (hasId : strlen ecuId = 12) {table : List InverterInfo}
    (ids : ∀ x ∈ table, strlen x.id = 12) (some : changed e table ≠ []) :
    changedResult e ecuId ((List.replicate resultBuffer nul).set 64 (digit 1)) table ≠
      changedResult e ecuId (List.replicate resultBuffer nul) table := by
  have positive := List.length_pos_iff.2 some
  obtain ⟨text, built, -, exactly, -⟩ :=
    changedResult_built e ecuId ((List.replicate resultBuffer nul).set 64 (digit 1)) ids
  rw [changed_entries, List.length_map, hasId] at exactly
  rw [changed_entries, List.length_map, if_pos positive] at built
  rw [changedResult_cases ids e ecuId _ fun k _ => getD_replicate _ _, if_neg some, built]
  intro same
  have lengths := congrArg List.length (Option.some_inj.1 same)
  rw [length_writeCounts, length_writeCounts, List.length_append, reportHead_length e hasId,
    entries_length e ids] at lengths
  have first := exactly (by omega) 0 positive
  have printed : ((List.replicate resultBuffer nul).set 64 (digit 1)).getD 64 nul = digit 1 := by
    decide +kernel
  rw [Nat.mul_zero, printed] at first
  exact absurd first (by decide)

/-- A116 is built in cleared memory. -/
theorem saveTurnOnOff_cleared (ecuId : List Byte) {mem : List Byte} (size : mem.length = resultBuffer)
    (table : List InverterInfo) : saveTurnOnOffChangedResult ecuId mem table =
      changedResult .turnOnOff ecuId (List.replicate resultBuffer nul) table := by
  rw [saveTurnOnOffChangedResult, memset, memcpy, List.length_replicate, List.drop_of_length_le (Nat.le_of_eq size),
    List.append_nil]

/-- **Both reports**, for the inverters that the array has before its first empty slot. A115 is one
message for every memory, as it should be, only when it names nobody; A116 when it names nobody, or
fewer than 120 and the ECU has its id. -/
theorem reports_encoded_iff (ecuId : List Byte) (slots : List InverterInfo) :
    let table := listed (slots.take maxInverterCount)
    (Reported .gfdi table (fun mem => saveGfdiChangedResult ecuId mem table) ↔ changed .gfdi table = []) ∧
      (Reported .turnOnOff table (fun mem => saveTurnOnOffChangedResult ecuId mem table) ↔
        changed .turnOnOff table = [] ∨
          strlen ecuId = 12 ∧ (changed .turnOnOff table).length < maxInverterCount) := by
  intro table
  have ids : ∀ x ∈ table, strlen x.id = 12 := listed_hasId
  have zeros : (List.replicate resultBuffer nul).length = resultBuffer := List.length_replicate
  constructor
  · constructor
    · rintro ⟨independent, encoded⟩
      by_contra some
      rcases (reported_cleared .gfdi ecuId ids).1 (encoded _ zeros) with nobody | ⟨hasId, -⟩
      · exact some nobody
      · exact dirty_differs .gfdi hasId ids some (independent _ _ (by rw [List.length_set, zeros]) zeros)
    · intro nobody
      have nothing (mem : List Byte) : saveGfdiChangedResult ecuId mem table = none := by
        have clear : ∀ k < (changed .gfdi table).length,
            mem.getD (39 + strlen ecuId + 13 + 16 * k) nul = nul := by
          rw [nobody]
          exact fun k few => absurd few (Nat.not_lt_zero k)
        rw [saveGfdiChangedResult, changedResult_cases ids .gfdi ecuId mem clear, if_pos nobody]
      refine ⟨fun mem mem' _ _ => (nothing mem).trans (nothing mem').symm, fun mem _ message saved => ?_⟩
      exact absurd ((nothing mem).symm.trans saved) (Option.some_ne_none message).symm
  · rw [← reported_cleared .turnOnOff ecuId ids]
    constructor
    · rintro ⟨-, encoded⟩ message saved
      exact encoded _ zeros message ((saveTurnOnOff_cleared ecuId zeros table).trans saved)
    · intro encoded
      have cleared (mem : List Byte) (size : mem.length = resultBuffer) := saveTurnOnOff_cleared ecuId size table
      exact ⟨fun mem mem' size size' => (cleared mem size).trans (cleared mem' size').symm,
        fun mem size message saved => encoded message ((cleared mem size).symm.trans saved)⟩

def changedInverter : InverterInfo :=
  { sampleInverter with gfdiChangedFlag := 1, turnOnOffChangedFlag := 1 }

/-- One inverter, and A115 has a character of the memory; 120 inverters, and the text is longer than the buffer. -/
theorem reports_spoiled :
    saveGfdiChangedResult (str "203000000001") ((List.replicate resultBuffer nul).set 64 (digit 1)) [changedInverter] ≠
        saveGfdiChangedResult (str "203000000001") (List.replicate resultBuffer nul) [changedInverter] ∧
      ∃ message, saveTurnOnOffChangedResult (str "203000000001") (List.replicate resultBuffer nul)
          (List.replicate maxInverterCount changedInverter) = some message ∧
        resultBuffer < (resultText Event.turnOnOff.item message).length + 1 := by
  refine ⟨by decide +kernel, ?_⟩
  have hasId : strlen (str "203000000001") = 12 := by decide
  have ids : ∀ x ∈ List.replicate maxInverterCount changedInverter, strlen x.id = 12 := by
    intro x mem
    rw [List.eq_of_mem_replicate mem]
    decide
  have all : changed .turnOnOff (List.replicate maxInverterCount changedInverter) =
      List.replicate maxInverterCount changedInverter := by
    refine List.filter_eq_self.2 fun x mem => ?_
    rw [List.eq_of_mem_replicate mem]
    decide
  have some : changed .turnOnOff (List.replicate maxInverterCount changedInverter) ≠ [] := by
    rw [all]
    exact List.ne_nil_of_length_eq_add_one List.length_replicate
  have count : (changed .turnOnOff (List.replicate maxInverterCount changedInverter)).length = maxInverterCount := by
    rw [all, List.length_replicate]
  have zeros : (List.replicate resultBuffer nul).length = resultBuffer := List.length_replicate
  have saved := changedResult_cases ids .turnOnOff (str "203000000001") _ fun k _ => getD_replicate resultBuffer _
  rw [if_neg some, ← saveTurnOnOff_cleared _ zeros] at saved
  have least := resultText_least .turnOnOff (str "203000000001") ids
  have size : maxInverterCount = 120 := rfl
  refine ⟨_, saved, ?_⟩
  unfold resultBuffer
  omega

end Ecu.Poll
