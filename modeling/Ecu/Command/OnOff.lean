import Ecu.Command.Table
import Ecu.Protection.Single

/-!
# Switching inverters on and off (`turn_on_off.c`)

`turn_on_off` takes the first row of `/home/data/turnonof`, deletes the rows that begin like its id and gives the
command, until there is no row. An id with a comma in it is read up to the comma only; its row is then never deleted.
-/

namespace Ecu.Command

open Poll Protection

/-! ## The loop -/

/-- `get_turn_on_off_flag` -/
def getTurnOnOffFlag (file : List Byte) : Option (List Byte × Int) :=
  (Lines.readLines newline 200 file).head?.map fun data =>
    ((splitString data).getD 0 [], Socket.atoi ((splitString data).getD 1 []))

/-- Up to three attempts, until one is acknowledged. -/
def attempts (acks : Nat → Bool) : Nat :=
  if acks 0 then 1 else if acks 1 then 2 else 3

/-- The commands for a row: the address, and whether it is on. -/
def switchCommands (acks : Nat → Bool) (inverters : List InverterInfo) (id : List Byte) (flag : Int) :
    List (Nat × Bool) :=
  match (registered inverters).find? fun x => Socket.sameChars id x.id 12 with
  | none => []
  | some x =>
    if flag = 1 then List.replicate (attempts acks) (x.shortaddr, true)
    else if flag = 2 then List.replicate (attempts acks) (x.shortaddr, false)
    else []

/-- The file, and the number of the turn. -/
structure SwitchState where
  turn : Nat
  file : List Byte

/-- A turn of the loop in `turn_on_off`; `replies` says which attempts are acknowledged. -/
def turnOnOff (replies : Nat → Nat → Bool) (inverters : List InverterInfo) (s : SwitchState) :
    Option (List (Nat × Bool) × SwitchState) :=
  (getTurnOnOffFlag s.file).map fun row =>
    let id := fieldBytes 256 row.1
    (switchCommands (replies s.turn) inverters id row.2, ⟨s.turn + 1, deleteLineBytes s.file id 12⟩)

/-! ## A turn -/

section Turn

variable (replies : Nat → Nat → Bool) (inverters : List InverterInfo)

theorem turnOnOff_cons {line : List Byte} {lines : List (List Byte)} (short : ∀ l ∈ line :: lines, ShortLine l)
    (turn : Nat) :
    ∃ sent, turnOnOff replies inverters ⟨turn, (line :: lines).flatten⟩ =
      some (sent, ⟨turn + 1, deleteLineBytes (line :: lines).flatten
        (fieldBytes 256 ((splitString line).getD 0 [])) 12⟩) := by
  rw [turnOnOff, getTurnOnOffFlag]
  dsimp only
  rw [readLines_short short (by decide)]
  exact ⟨_, rfl⟩

/-- A comma within the first twelve characters keeps the row. -/
theorem turn_keeps {line : List Byte} {lines : List (List Byte)} (short : ∀ l ∈ line :: lines, ShortLine l)
    (cut : comma ∈ line.take 12) :
    deleteLineBytes (line :: lines).flatten (fieldBytes 256 ((splitString line).getD 0 [])) 12 =
      (line :: lines).flatten := by
  have own := short line List.mem_cons_self
  obtain ⟨⟨body, shape, open_⟩, -⟩ := own.isLine
  rcases splitString_head own.clean with ⟨-, none⟩ | ⟨rest, same, whole⟩
  · exact absurd (List.mem_of_mem_take cut) none
  · apply deleteLineBytes_none short
    intro l mem data
    have less : ((splitString line).getD 0 []).length < 12 := by
      by_contra long
      rw [same, List.take_append_of_le_length (Nat.le_of_not_lt long)] at cut
      exact whole (List.mem_of_mem_take cut)
    apply no_match (short l mem) _ less (own.field_open same)
    rw [fieldBytes_short (Nat.lt_of_lt_of_le less (by decide)), List.prefix_append_right_inj, List.cons_prefix_cons]
    exact ⟨rfl, List.nil_prefix⟩

/-- Otherwise the row is deleted, and with it only rows without such a comma. -/
theorem turn_deletes {line : List Byte} {lines : List (List Byte)} (short : ∀ l ∈ line :: lines, ShortLine l)
    (whole : comma ∉ line.take 12) :
    ∃ kept : List (List Byte), deleteLineBytes (line :: lines).flatten
        (fieldBytes 256 ((splitString line).getD 0 [])) 12 = kept.flatten ∧ kept.Sublist lines ∧
      ∀ l ∈ lines, l ∈ kept ∨ comma ∉ l.take 12 := by
  have own := short line List.mem_cons_self
  have few := own.isLine.fits
  have field : comma ∉ (splitString line).getD 0 [] := by
    rcases splitString_head own.clean with ⟨same, none⟩ | ⟨rest, -, none⟩
    · rwa [same]
    · exact none
  have key : (memcpy (List.replicate 512 nul) (line ++ [nul])).take 12 =
      (fieldBytes 256 ((splitString line).getD 0 [])).take 12 := by
    rw [memcpy, fieldBytes, List.take_take, show min 12 256 = 12 from rfl, List.drop_replicate, List.append_assoc,
      List.singleton_append,
      ← List.replicate_succ]
    rcases splitString_head own.clean with ⟨same, none⟩ | ⟨rest, same, none⟩
    · have len := @List.length_append _ line [nul]
      rw [List.length_singleton] at len
      rw [same, List.take_append, List.take_append, List.take_replicate, List.take_replicate]
      congr 2
      omega
    · have long : 12 ≤ ((splitString line).getD 0 []).length := by
        by_contra less
        apply whole
        rw [same, List.take_append, List.take_cons (by omega)]
        exact List.mem_append_right _ List.mem_cons_self
      rw [List.take_append_of_le_length long]
      conv_lhs => rw [same, List.append_assoc]
      exact List.take_append_of_le_length long
  obtain ⟨kept, result, sub, others⟩ := deleteLineBytes_kept (fieldBytes 256 ((splitString line).getD 0 [])) 12
    (fun l mem => short l (List.mem_cons_of_mem line mem)) [] (memcpy (List.replicate 512 nul) (line ++ [nul]))
  refine ⟨kept, ?_, sub, fun l mem => ?_⟩
  · rw [deleteLineBytes, readLines_short short (by decide), List.foldl_cons, deleteStep]
    dsimp only
    rw [if_pos key, result, List.nil_append]
  · apply (others l mem).imp_right
    intro part inside
    have there := List.mem_of_mem_take (part.subset inside)
    rcases List.mem_append.1 (List.mem_of_mem_take there) with inField | padding
    · exact field inField
    · exact absurd (List.eq_of_mem_replicate padding) (by decide)

end Turn

/-! ## When the loop ends -/

/-- A row with a comma among its first twelve characters is never deleted; without one the loop makes no more turns
than there are rows. -/
theorem switch_ends (replies : Nat → Nat → Bool) (inverters : List InverterInfo) (n : Nat) (turn : Nat)
    {lines : List (List Byte)} (fewer : lines.length ≤ n) (short : ∀ line ∈ lines, ShortLine line) :
    ((∀ line ∈ lines, comma ∉ line.take 12) →
      Loop.EndsWithin (turnOnOff replies inverters) lines.length ⟨turn, lines.flatten⟩) ∧
    (Loop.Ends (turnOnOff replies inverters) ⟨turn, lines.flatten⟩ → ∀ line ∈ lines, comma ∉ line.take 12) := by
  induction n generalizing turn lines with
  | zero =>
    obtain rfl := List.length_eq_zero_iff.1 (Nat.le_zero.1 fewer)
    exact ⟨fun _ => Loop.endsWithin_of_none rfl, fun _ line mem => absurd mem List.not_mem_nil⟩
  | succ n ih =>
    cases lines with
    | nil => exact ⟨fun _ => Loop.endsWithin_of_none rfl, fun _ line mem => absurd mem List.not_mem_nil⟩
    | cons line lines =>
      obtain ⟨sent, step⟩ := turnOnOff_cons replies inverters short turn
      by_cases cut : comma ∈ line.take 12
      · constructor
        · exact fun free => absurd cut (free line List.mem_cons_self)
        · intro ends
          have always : ∀ {s : SwitchState}, s.file = (line :: lines).flatten →
              ∃ sent next, turnOnOff replies inverters s = some (sent, next) ∧ next.file = (line :: lines).flatten := by
            rintro ⟨turn, file⟩ rfl
            obtain ⟨sent, step⟩ := turnOnOff_cons replies inverters short turn
            exact ⟨sent, _, step, turn_keeps short cut⟩
          exact absurd ends (Loop.not_ends_of_always always rfl)
      · obtain ⟨kept, result, sub, others⟩ := turn_deletes short cut
        rw [result] at step
        have few : kept.length ≤ n := Nat.le_trans sub.length_le (Nat.le_of_succ_le_succ fewer)
        have later := ih (turn + 1) few fun l mem => short l (List.mem_cons_of_mem line (sub.subset mem))
        constructor
        · intro free
          have within := later.1 fun l mem => free l (List.mem_cons_of_mem line (sub.subset mem))
          exact Loop.endsWithin_step step (within.mono sub.length_le)
        · intro ends l mem
          rcases List.mem_cons.1 mem with rfl | mem
          · exact cut
          · rcases others l mem with inKept | free
            · exact later.2 ((Loop.ends_step step).1 ends) l inKept
            · exact free

/-! ## What A111 writes -/

theorem numStep_length {found : List (List Byte) × List Byte} (short : ∀ id ∈ found.1, id.length ≤ 12)
    (line : List Byte) : ∀ id ∈ (numStep found line).1, id.length ≤ 12 := by
  intro id mem
  rw [numStep] at mem
  dsimp only at mem
  split_ifs at mem
  · exact short id mem
  · rcases List.mem_append.1 mem with mem | mem
    · exact short id mem
    · rw [List.mem_singleton.1 mem]
      exact List.length_take_le _ _

theorem getNumFromId_length (data idFile : List Byte) : ∀ id ∈ getNumFromId data idFile, id.length ≤ 12 := by
  rw [getNumFromId]
  apply List.foldlRecOn (motive := fun found : List (List Byte) × List Byte => ∀ id ∈ found.1, id.length ≤ 12)
  · exact fun id mem => absurd mem List.not_mem_nil
  · exact fun found short line _ => numStep_length short line

/-- A file that A111 and the loop have left. -/
inductive SwitchWritten : List Byte → Prop
  | none : SwitchWritten []
  | set {file : List Byte} (before : SwitchWritten file) (recvbuffer data idFile : List Byte) :
    SwitchWritten (setInverterOnoff recvbuffer data idFile file)
  | turn {s next : SwitchState} (before : SwitchWritten s.file) {replies : Nat → Nat → Bool}
    {inverters : List InverterInfo} {sent : List (Nat × Bool)}
    (step : turnOnOff replies inverters s = some (sent, next)) : SwitchWritten next.file

theorem made_switchRow {id : List Byte} (clean : ∀ b ∈ id, b ≠ nul) (few : id.length ≤ 12) {flag : Int}
    (small : flag.natAbs < 10 ^ 2) : Lines.MadeOf ShortLine (csvRow [id, Decimal.intText flag]) := by
  have number := intText_length (w := 2) (by decide) small
  have noNul : ∀ field ∈ [id, Decimal.intText flag], ∀ b ∈ field, b ≠ nul := by
    intro field mem b inField
    simp only [List.mem_cons, List.not_mem_nil, or_false] at mem
    rcases mem with rfl | rfl
    · exact clean b inField
    · exact (plain_intText flag b inField).1
  have short : (csvRow [id, Decimal.intText flag]).length < 100 := by
    rw [csvRow_length (List.cons_ne_nil _ _)]
    simp only [List.map_cons, List.map_nil, List.sum_cons, List.sum_nil]
    omega
  exact (madeOf_short (csvRow_noNul noNul) short (csvRow_ended _)).mono fun line both => both.1

theorem SwitchWritten.made {file : List Byte} (written : SwitchWritten file) : Lines.MadeOf ShortLine file := by
  induction written with
  | none => exact Lines.MadeOf.nil
  | set before recvbuffer data idFile ih =>
    have all {type : Int} (small : type.natAbs < 10 ^ 2) : Lines.MadeOf ShortLine (turnOnoffAll data idFile type) := by
      rw [turnOnoffAll, List.flatMap_def]
      apply Lines.MadeOf.flatten
      intro text mem
      obtain ⟨id, inIds, rfl⟩ := List.mem_map.1 mem
      have few := Nat.le_trans (cstr_length_le id) (getNumFromId_length data idFile id inIds)
      exact made_switchRow (cstr_noNul id) few small
    rw [setInverterOnoff]
    split_ifs
    · exact all (by decide)
    · exact all (by decide)
    · rw [turnOnoffNum, List.flatMap_def]
      apply Lines.MadeOf.flatten
      intro text mem
      obtain ⟨i, -, rfl⟩ := List.mem_map.1 mem
      have low := Protection.neg_lt_msgGetInt ((recvbuffer.drop 52).drop (i * 16 + 12)) Nat.one_pos
      have high := Protection.msgGetInt_lt ((recvbuffer.drop 52).drop (i * 16 + 12)) 1
      exact made_switchRow (cstr_noNul _) (inverterId_length _ _ _) (by omega)
    · exact ih
    · exact ih
  | turn before step ih =>
    obtain ⟨lines, same, short⟩ := ih
    rw [turnOnOff] at step
    obtain ⟨row, -, next⟩ := Option.map_eq_some_iff.1 step
    rw [← (Prod.mk.inj next).2]
    dsimp only
    rw [same, deleteLineBytes, readLines_short short (by decide)]
    obtain ⟨kept, result, sub, -⟩ := deleteLineBytes_kept (fieldBytes 256 row.1) 12 short [] (List.replicate 512 nul)
    exact ⟨kept, result, fun line mem => short line (sub.subset mem)⟩

/-- `turn_on_off` ends, after at most a turn for each row, exactly when no row has a comma among its first twelve
characters. -/
theorem switch_ends_iff (replies : Nat → Nat → Bool) (inverters : List InverterInfo) (turn : Nat) {file : List Byte}
    (written : SwitchWritten file) :
    Loop.EndsWithin (turnOnOff replies inverters) (Lines.readLines newline 200 file).length ⟨turn, file⟩ ↔
      ∀ line ∈ Lines.readLines newline 200 file, comma ∉ line.take 12 := by
  obtain ⟨lines, rfl, short⟩ := written.made
  rw [readLines_short short (by decide)]
  have both := switch_ends replies inverters lines.length turn (Nat.le_refl _) short
  exact ⟨fun within => both.2 within.ends, both.1⟩

end Ecu.Command
