import Ecu.Poll.Alike
import Ecu.Poll.Report
import Ecu.Poll.Restart
import Ecu.Poll.Slots

/-!
# What a restart does not forget

After a registration the inverters of the id file may sit in other slots than before. Each finds there what the clearing
loops leave out: the states of the changed flags, the energies of the channels that only a YC1000 has, and, unless
`collect.con` has a line for it, a part of a baseline. The results of the next round are those of any other old table
exactly when nobody is registered; two tables give the same results where they leave the same (`restart_forgets_iff`).
-/

namespace Ecu

namespace Poll

/-! ## The results of a round -/

/-- `protocol_status`: the message that it saves, if any. -/
def protocolStatus (ecuId datetime : List Byte) (table : List InverterInfo) : Option (List Byte) :=
  let sending := table.filter (·.statusSendFlag = 1)
  let sendbuff := str "APS1500000A123AAA1" ++ cstr ecuId ++ Decimal.fixed 4 sending.length ++ cstr datetime ++
    str "END" ++ sending.flatMap fun x => cstr x.statusEma
  if sending.length > 0 then some (sendbuff.take 5 ++ Decimal.fixed 5 sendbuff.length ++ sendbuff.drop 10) else none

/-- `saveevent`: the file. -/
def saveevent (datetime : List Byte) (table : List InverterInfo) : List Byte :=
  (table.filter fun x => x.dataflag = 1 ∧ cstr x.statusWeb ≠ str "000000000000000000000000").flatMap fun x =>
    cstr x.id ++ [comma] ++ cstr x.statusWeb ++ [comma] ++ cstr datetime ++ [newline]

/-- The inverters as the record functions see them. -/
def recordEntries (table : List InverterInfo) : List Inverter :=
  ((listed table).take maxInverterCount).map (·.toInverter)

theorem recordEntries_size (table : List InverterInfo) : (recordEntries table).length ≤ maxInverterCount := by
  rw [recordEntries, List.length_map, List.length_take]
  exact Nat.min_le_left _ _

theorem recordEntries_hasId (table : List InverterInfo) : ∀ inverter ∈ recordEntries table, Record.HasId inverter := by
  intro inverter mem
  obtain ⟨x, inTable, rfl⟩ := List.mem_map.1 mem
  exact listed_hasId x (List.mem_of_mem_take inTable)

theorem recordEntries_behind (table : List InverterInfo) :
    ∀ inverter ∈ (recordEntries table).dropWhile (Record.HasId ·), inverter.dataflag ≠ 1 := by
  have none : (recordEntries table).dropWhile (Record.HasId ·) = [] := by
    rw [List.dropWhile_eq_nil_iff]
    exact fun inverter mem => decide_eq_true (recordEntries_hasId table inverter mem)
  rw [none]
  exact fun inverter mem => absurd mem List.not_mem_nil

def recordTable (table : List InverterInfo) : Record.Table where
  entries := recordEntries table
  size := recordEntries_size table
  behind := recordEntries_behind table

/-- What a round ends with: the energy and the power of each inverter, the sums, the messages and the files. -/
structure Results where
  generation : List (List ℚ)
  power : List (List Int)
  ecu : EcuInfo
  gfdiReport : Option (List Byte)
  turnOnOffReport : Option (List Byte)
  record : Option (List Byte)
  status : Option (List Byte)
  events : Option (List Byte)
  collect : List Byte

/-- The end of `getalldata` and what the main loop does after it; `mem` is what `malloc` returns to A115. -/
def resultsOf (T : Target) (ecu : EcuInfo) (mem : List Byte) (table : List InverterInfo) : Results :=
  let after := Record.afterRound ecu (recordTable table)
  { generation := table.map fun x => [x.curgeneration, x.curgenerationb, x.curgenerationc, x.curgenerationd]
    power := table.map fun x => [x.op, x.opb, x.opc, x.opd]
    ecu := after
    gfdiReport := saveGfdiChangedResult ecu.id mem table
    turnOnOffReport := saveTurnOnOffChangedResult ecu.id mem table
    record := if after.count > 0 then some (Record.roundRecord T ecu (recordTable table)) else none
    status := if after.count > 0 then protocolStatus ecu.id ecu.broadcastTime table else none
    events := if after.count > 0 then some (saveevent ecu.broadcastTime table) else none
    collect := updateTmpdb table }

/-! ## Alike tables give the same results -/

end Poll

/-- What the results show of an inverter. -/
def Inverter.seen (inverter : Inverter) : Inverter :=
  { inverter.scrub with
    lastTurnOnOffFlag := inverter.lastTurnOnOffFlag
    turnOnOffChangedFlag := inverter.turnOnOffChangedFlag
    lastGfdiFlag := inverter.lastGfdiFlag
    gfdiChangedFlag := inverter.gfdiChangedFlag
    statusEma := if inverter.statusSendFlag = 1 then inverter.statusEma else []
    reactivePowerb := if inverter.dataflag = 1 ∧ IsYc1000 inverter.model then inverter.reactivePowerb else 0
    reactivePowerc := if inverter.dataflag = 1 ∧ IsYc1000 inverter.model then inverter.reactivePowerc else 0
    activePowerb := if inverter.dataflag = 1 ∧ IsYc1000 inverter.model then inverter.activePowerb else 0
    activePowerc := if inverter.dataflag = 1 ∧ IsYc1000 inverter.model then inverter.activePowerc else 0 }

theorem Inverter.block_seen (T : Target) {inverter : Inverter} (answered : inverter.dataflag = 1) :
    Record.block T inverter.seen = Record.block T inverter := by
  unfold Record.block
  change (if inverter.model = 1 ∨ inverter.model = 2 then _ else if inverter.model = 3 ∨ inverter.model = 4 then _
    else if inverter.model = 5 ∨ inverter.model = 6 then _ else _) = _
  split_ifs with yc250 yc500 yc1000
  · rfl
  · rfl
  · have shown : inverter.dataflag = 1 ∧ IsYc1000 inverter.model := ⟨answered, yc1000⟩
    unfold Record.block1000 Inverter.seen
    dsimp only
    simp only [if_pos shown]
    rfl
  · rfl

namespace Poll

def InverterInfo.seen (x : InverterInfo) : InverterInfo :=
  { x with toInverter := x.toInverter.seen }

theorem Alike.seen {x y : InverterInfo} (alike : Alike x y) (changes : x.changes = y.changes) : x.seen = y.seen := by
  have dataflag : x.dataflag = y.dataflag := congrArg (·.dataflag) alike.scrub
  have model : x.model = y.model := congrArg (·.model) alike.scrub
  have sendFlag : x.statusSendFlag = y.statusSendFlag := congrArg (·.statusSendFlag) alike.scrub
  have ema : (if x.statusSendFlag = 1 then x.statusEma else []) = if y.statusSendFlag = 1 then y.statusEma else [] := by
    rw [← sendFlag]
    split_ifs with sent
    · exact alike.ema sent
    · rfl
  have phase (i : Nat) : (if x.dataflag = 1 ∧ IsYc1000 x.model then x.phases.getD i 0 else 0) =
      if y.dataflag = 1 ∧ IsYc1000 y.model then y.phases.getD i 0 else 0 := by
    rw [← dataflag, ← model]
    split_ifs with shown
    · rw [alike.phases shown.1 shown.2]
    · rfl
  -- all parts of what is seen are the same
  let assemble (z : InverterInfo) (changes : Changes) (ema : List Byte) (phase : Nat → ℚ) : InverterInfo :=
    { z with
      toInverter :=
        { z.toInverter with
          lastTurnOnOffFlag := changes.lastTurnOnOffFlag
          turnOnOffChangedFlag := changes.turnOnOffChangedFlag
          lastGfdiFlag := changes.lastGfdiFlag
          gfdiChangedFlag := changes.gfdiChangedFlag
          statusEma := ema
          reactivePowerb := phase 0
          reactivePowerc := phase 1
          activePowerb := phase 2
          activePowerc := phase 3 } }
  have left : x.seen = assemble x.scrub x.changes (if x.statusSendFlag = 1 then x.statusEma else [])
      fun i => if x.dataflag = 1 ∧ IsYc1000 x.model then x.phases.getD i 0 else 0 := rfl
  have right : y.seen = assemble y.scrub y.changes (if y.statusSendFlag = 1 then y.statusEma else [])
      fun i => if y.dataflag = 1 ∧ IsYc1000 y.model then y.phases.getD i 0 else 0 := rfl
  rw [left, right, alike.scrub, changes, ema, funext phase]

theorem listed_seen (table : List InverterInfo) :
    listed (table.map InverterInfo.seen) = (listed table).map InverterInfo.seen := by
  unfold listed
  rw [List.takeWhile_map]
  rfl

theorem answered_eq (table : List InverterInfo) :
    (recordTable table).answered = (recordEntries table).filter fun inverter => inverter.dataflag = 1 := by
  have whole : (recordTable table).listed = recordEntries table :=
    List.takeWhile_eq_self_iff.2 fun inverter mem => decide_eq_true (recordEntries_hasId table inverter mem)
  rw [Record.Table.answered, whole]

theorem recordEntries_seen (table : List InverterInfo) :
    recordEntries (table.map InverterInfo.seen) = (recordEntries table).map Inverter.seen := by
  rw [recordEntries, recordEntries, listed_seen, ← List.map_take, List.map_map, List.map_map]
  rfl

theorem answered_seen (table : List InverterInfo) :
    (recordTable (table.map InverterInfo.seen)).answered = (recordTable table).answered.map Inverter.seen := by
  rw [answered_eq, answered_eq, recordEntries_seen, List.filter_map]
  rfl

theorem afterRound_seen (ecu : EcuInfo) (table : List InverterInfo) :
    Record.afterRound ecu (recordTable (table.map InverterInfo.seen)) = Record.afterRound ecu (recordTable table) := by
  have same : Record.getalldata ecu (recordTable (table.map InverterInfo.seen)) =
      Record.getalldata ecu (recordTable table) := by
    have entries : (recordTable (table.map InverterInfo.seen)).entries =
      (recordTable table).entries.map Inverter.seen :=
      recordEntries_seen table
    unfold Record.getalldata
    dsimp only
    rw [answered_seen, entries, List.map_map, List.map_map, List.filter_map, List.length_map]
    rfl
  rw [Record.afterRound, Record.afterRound, same]

theorem roundRecord_seen (T : Target) (ecu : EcuInfo) (table : List InverterInfo) :
    Record.roundRecord T ecu (recordTable (table.map InverterInfo.seen)) =
      Record.roundRecord T ecu (recordTable table) := by
  have blocks : (recordTable (table.map InverterInfo.seen)).answered.flatMap
        (fun inverter => (Record.block T inverter).flatMap Record.Field.print) =
      (recordTable table).answered.flatMap fun inverter => (Record.block T inverter).flatMap Record.Field.print := by
    rw [answered_seen, List.flatMap_map]
    apply List.flatMap_congr
    intro inverter mem
    rw [answered_eq] at mem
    rw [Inverter.block_seen T (by simpa using (List.mem_filter.1 mem).2)]
  rw [Record.roundRecord, Record.roundRecord, Record.protocolAPS18, Record.protocolAPS18, afterRound_seen, blocks]

theorem changedResult_seen (e : Event) (ecuId mem : List Byte) (table : List InverterInfo) :
    changedResult e ecuId mem (table.map InverterInfo.seen) = changedResult e ecuId mem table := by
  unfold changedResult
  dsimp only
  rw [List.filter_map, List.foldl_map, List.length_map]
  rfl

theorem protocolStatus_seen (ecuId datetime : List Byte) (table : List InverterInfo) :
    protocolStatus ecuId datetime (table.map InverterInfo.seen) = protocolStatus ecuId datetime table := by
  have sending : (table.map InverterInfo.seen).filter (·.statusSendFlag = 1) =
      (table.filter (·.statusSendFlag = 1)).map InverterInfo.seen := by
    rw [List.filter_map]
    rfl
  have texts : ((table.filter (·.statusSendFlag = 1)).map InverterInfo.seen).flatMap (fun x => cstr x.statusEma) =
      (table.filter (·.statusSendFlag = 1)).flatMap fun x => cstr x.statusEma := by
    rw [List.flatMap_map]
    apply List.flatMap_congr
    intro x mem
    have sent : x.statusSendFlag = 1 := by simpa using (List.mem_filter.1 mem).2
    change cstr (if x.statusSendFlag = 1 then x.statusEma else []) = _
    rw [if_pos sent]
  unfold protocolStatus
  rw [sending]
  dsimp only
  rw [texts, List.length_map]

theorem saveevent_seen (datetime : List Byte) (table : List InverterInfo) :
    saveevent datetime (table.map InverterInfo.seen) = saveevent datetime table := by
  unfold saveevent
  rw [List.filter_map, List.flatMap_map]
  rfl

theorem updateTmpdb_seen (table : List InverterInfo) : updateTmpdb (table.map InverterInfo.seen) =
    updateTmpdb table := by
  unfold updateTmpdb
  rw [List.filter_map, List.map_map]
  rfl

/-- The results depend on nothing else. -/
theorem resultsOf_seen (T : Target) (ecu : EcuInfo) (mem : List Byte) (table : List InverterInfo) :
    resultsOf T ecu mem (table.map InverterInfo.seen) = resultsOf T ecu mem table := by
  unfold resultsOf saveGfdiChangedResult saveTurnOnOffChangedResult
  dsimp only
  rw [afterRound_seen, roundRecord_seen, changedResult_seen, changedResult_seen, protocolStatus_seen, saveevent_seen,
    updateTmpdb_seen, List.map_map, List.map_map]
  rfl

/-! ## What the slots keep -/

/-- What a slot leaves to the inverter with this id, as far as a round can show it. -/
structure Leftover where
  changes : Changes
  /-- The energies of the panels that only a YC1000 has, the powers and the output energies of the round. -/
  energies : List ℚ
  /-- What is left of a baseline, unless `collect.con` has a line for the inverter. -/
  baseline : Option (List ℚ)

def leftover (collect id : List Byte) (x : InverterInfo) : Leftover where
  changes := x.changes
  energies := [x.curgenerationc, x.curgenerationd, x.reactivePower, x.activePower, x.outputEnergy, x.outputEnergyb,
    x.outputEnergyc]
  baseline :=
    if (columnsOf collect id).isSome then none
    else some [x.preaccgenc, x.preaccgend, x.preOutputEnergy, x.preOutputEnergyb, x.preOutputEnergyc]

theorem restored_changes (collect : List Byte) (l x : InverterInfo) :
    (restored collect (moved l x)).changes = x.changes := by
  rw [restored_eq]
  cases columnsOf collect (moved l x).id <;> rfl

/-- Slots that leave the same to an inverter, but for the flags, start the round alike. -/
theorem start_of_leftover {collect : List Byte} {l x y : InverterInfo}
    (energies : (leftover collect l.id x).energies = (leftover collect l.id y).energies)
    (baseline : (leftover collect l.id x).baseline = (leftover collect l.id y).baseline) :
    Start (restored collect (moved l x)) (restored collect (moved l y)) := by
  simp only [leftover, List.cons.injEq, and_true] at energies
  obtain ⟨curgenerationc, curgenerationd, reactivePower, activePower, outputEnergy, outputEnergyb, outputEnergyc⟩ :=
    energies
  have id (z : InverterInfo) : (moved l z).id = l.id := rfl
  unfold leftover at baseline
  dsimp only at baseline
  rw [restored_eq, restored_eq, id, id]
  unfold Start
  cases columns : columnsOf collect l.id with
  | none =>
    rw [columns, Option.isSome_none, if_neg Bool.false_ne_true, if_neg Bool.false_ne_true, Option.some_inj] at baseline
    simp only [List.cons.injEq, and_true] at baseline
    obtain ⟨preaccgenc, preaccgend, preOutputEnergy, preOutputEnergyb, preOutputEnergyc⟩ := baseline
    rw [Option.elim_none, Option.elim_none]
    simp only [clearRound, moved, initSlot, InverterInfo.clearedA103, InverterInfo.withColumns, InverterInfo.scrub,
      Inverter.scrub,
      curgenerationc, curgenerationd, reactivePower, activePower, outputEnergy, outputEnergyb, outputEnergyc,
      preaccgenc, preaccgend, preOutputEnergy, preOutputEnergyb, preOutputEnergyc]
  | some before =>
    rw [Option.elim_some, Option.elim_some]
    simp only [clearRound, moved, initSlot, InverterInfo.clearedA103, InverterInfo.withColumns, InverterInfo.scrub,
      Inverter.scrub,
      InverterInfo.restore, curgenerationc, curgenerationd, reactivePower, activePower, outputEnergy, outputEnergyb,
      outputEnergyc]

/-- Two old tables leave the same to each inverter of the files. -/
def SameLeft (disk : Disk) (a b : List InverterInfo) : Prop :=
  ∀ (k : Nat) (l x y : InverterInfo), (load disk.ids)[k]? = some l → a[k]? = some x → b[k]? = some y →
    leftover disk.collect l.id x = leftover disk.collect l.id y

theorem changes_after (T : Target) (round : Round) (table : List InverterInfo) :
    (pollRound T round.ecu round.answers table).map (·.changes) =
      (table.map (·.changes)).mapIdx fun i changes => changesAfter changes (takenBy T round table i).toList := by
  apply List.ext_getElem?
  intro i
  rw [List.getElem?_map, List.getElem?_mapIdx, List.getElem?_map]
  cases before : table[i]? with
  | none =>
    have outside : (pollRound T round.ecu round.answers table)[i]? = none := by
      rw [pollRound_getElem?, before]
      rfl
    rw [outside]
    rfl
  | some x =>
    obtain ⟨y, after, memory⟩ := round_entry T round before
    rw [after]
    exact congrArg some (congrArg Memory.changes memory)

/-- The results of the round after a registration and its restart. -/
def nextResults (T : Target) (via : Registration) (disk : Disk) (round : Round) (mem : List Byte)
    (slots : List InverterInfo) : Results :=
  resultsOf T round.ecu mem (pollRound T round.ecu round.answers (restart via disk slots))

/-- What holds of each two slots of an inverter holds along the tables. -/
theorem restart_forall₂ (via : Registration) {disk : Disk} {a b : List InverterInfo}
    (sizeA : a.length = maxInverterCount)
    (sizeB : b.length = maxInverterCount) {R : InverterInfo → InverterInfo → Prop}
    (each : ∀ (k : Nat) (l x y : InverterInfo), (load disk.ids)[k]? = some l → a[k]? = some x → b[k]? = some y →
      R (restored disk.collect (moved l x)) (restored disk.collect (moved l y))) :
    List.Forall₂ R (restart via disk a) (restart via disk b) := by
  rw [restart_zipWith via disk sizeA, restart_zipWith via disk sizeB]
  apply List.forall₂_iff_get.2
  refine ⟨by rw [List.length_zipWith, List.length_zipWith, sizeA, sizeB], fun k left right => ?_⟩
  rw [List.length_zipWith] at left right
  rw [List.get_eq_getElem, List.get_eq_getElem, List.getElem_zipWith, List.getElem_zipWith]
  exact each k _ _ _ (List.getElem?_eq_getElem (lt_min_iff.1 left).1) (List.getElem?_eq_getElem (lt_min_iff.1 left).2)
    (List.getElem?_eq_getElem (lt_min_iff.1 right).2)

theorem hasId_after (T : Target) (round : Round) {table : List InverterInfo}
    (ids : ∀ x ∈ table, Record.HasId x.toInverter) : ∀ y ∈ pollRound T round.ecu round.answers table,
      strlen y.id = 12 := by
  intro y mem
  obtain ⟨i, there⟩ := List.mem_iff_getElem?.1 mem
  have inside : i < table.length := by
    rw [← pollRound_length T round table]
    exact (List.getElem?_eq_some_iff.1 there).1
  obtain ⟨z, next, memory⟩ := round_entry T round (List.getElem?_eq_getElem inside)
  obtain rfl := Option.some_inj.1 (there.symm.trans next)
  have id : y.id = table[i].id := congrArg Memory.id memory
  rw [id]
  exact ids _ (List.getElem_mem inside)

theorem map_seen {X Y : List InverterInfo} (alike : List.Forall₂ Alike X Y)
    (changes : X.map (·.changes) = Y.map (·.changes)) : X.map InverterInfo.seen = Y.map InverterInfo.seen := by
  induction alike with
  | nil => rfl
  | cons first _ ih =>
    rw [List.map_cons, List.map_cons, List.cons.injEq] at changes
    rw [List.map_cons, List.map_cons, first.seen changes.1, ih changes.2]

/-- Tables that leave the same give the same results. -/
theorem sameResults_of_sameLeft (T : Target) (via : Registration) {disk : Disk} {a b : List InverterInfo}
    (sizeA : a.length = maxInverterCount) (sizeB : b.length = maxInverterCount) (same : SameLeft disk a b)
    (round : Round) (mem : List Byte) :
    nextResults T via disk round mem a = nextResults T via disk round mem b := by
  have start : List.Forall₂ Start (restart via disk a) (restart via disk b) :=
    restart_forall₂ via sizeA sizeB fun k l x y inFile left right =>
      have kept := same k l x y inFile left right
      start_of_leftover (congrArg Leftover.energies kept) (congrArg Leftover.baseline kept)
  have states : List.Forall₂ (fun x y => x.changes = y.changes) (restart via disk a) (restart via disk b) :=
    restart_forall₂ via sizeA sizeB fun k l x y inFile left right => by
      rw [restored_changes, restored_changes]
      exact congrArg Leftover.changes (same k l x y inFile left right)
  have before : (restart via disk a).map (·.changes) = (restart via disk b).map (·.changes) := by
    rwa [← List.forall₂_eq_eq_eq, List.forall₂_map_left_iff, List.forall₂_map_right_iff]
  obtain ⟨alike, taken⟩ := pollRound_alike (T := T) round start
  have after := (changes_after T round (restart via disk a)).trans
    ((congrArg₂ (fun states (frames : Nat → Option Decoded) =>
      List.mapIdx (fun i changes => changesAfter changes (frames i).toList) states) before (funext taken)).trans
        (changes_after T round (restart via disk b)).symm)
  rw [nextResults, nextResults, ← resultsOf_seen, map_seen alike after, resultsOf_seen]

/-! ## The flags are always shown -/

/-- The slot of an inverter whose last frame was the first to show the GFDI state. -/
def gfdiSlot : InverterInfo :=
  { zeroSlot with lastGfdiFlag := 1, gfdiChangedFlag := 1 }

def gfdiSlots : List InverterInfo :=
  gfdiSlot :: List.replicate 119 zeroSlot

theorem writeCounts_last (count : Nat) {text : List Byte} (long : 33 < text.length) :
    (writeCounts count text)[33]? = some (digit (count % 10)) := by
  unfold writeCounts
  dsimp only
  split_ifs <;> simp [long]

/-- The message has the number of its entries. -/
theorem changedResult_count (e : Event) (ecuId mem : List Byte) {table : List InverterInfo}
    (ids : ∀ x ∈ table, strlen x.id = 12) :
    (changedResult e ecuId mem table).bind (·[33]?) =
      let count := (table.map (·.changes)).countP fun changes => e.flag changes = 1
      if count > 0 then some (digit (count % 10)) else none := by
  obtain ⟨text, built, long, -⟩ := changedResult_built e ecuId mem ids
  have head : 39 ≤ 39 + strlen ecuId := Nat.le_add_right _ _
  have count : (table.map (·.changes)).countP (fun changes => e.flag changes = 1) =
      (flagged e table).reduceOption.length := by
    rw [flagged_reduceOption, List.length_map, List.length_map, List.countP_map, List.countP_eq_length_filter]
    rfl
  dsimp only
  rw [built, count]
  split_ifs
  · rw [Option.bind_some]
    exact writeCounts_last _ (by omega)
  · rfl

theorem digit_inj : ∀ a < 10, ∀ b < 10, digit a = digit b → a = b := by
  decide

/-- One entry more shows in the last digit of the number. -/
theorem count_differs (n : Nat) :
    (if n + 1 > 0 then some (digit ((n + 1) % 10)) else none) ≠ if n > 0 then some (digit (n % 10)) else none := by
  rw [if_pos (Nat.succ_pos n)]
  split_ifs
  · intro same
    have digits := digit_inj _ (Nat.mod_lt _ (by decide)) _ (Nat.mod_lt _ (by decide)) (Option.some_inj.1 same)
    omega
  · exact Option.some_ne_none _

theorem start_gfdi (collect : List Byte) (l : InverterInfo) :
    Start (restored collect (moved l zeroSlot)) (restored collect (moved l gfdiSlot)) := by
  exact start_of_leftover rfl rfl

/-- A frame that is decoded has changed the state of the one slot or that of the other; without one the flags are those
of the slots. -/
theorem gfdi_flags_differ (taken : Option Decoded) :
    Event.gfdi.flag (changesAfter zeroSlot.changes taken.toList) = 1 ↔
      ¬ Event.gfdi.flag (changesAfter gfdiSlot.changes taken.toList) = 1 := by
  cases taken with
  | none => decide
  | some f =>
    have first := (Event.gfdi.update zeroSlot.changes f).2
    have second := (Event.gfdi.update gfdiSlot.changes f).2
    rw [Option.toList_some, changesAfter, changesAfter, List.foldl_cons, List.foldl_cons, List.foldl_nil,
      List.foldl_nil, first, second]
    change (if 0 ≠ _ then 1 else 0) = 1 ↔ ¬ (if 1 ≠ _ then 1 else 0) = 1
    rcases Event.read_lt .gfdi f with low | high
    · rw [low]
      decide
    · rw [high]
      decide

/-- The states after a round in which these frames were taken. -/
theorem changes_after_cons {T : Target} {round : Round} {x : InverterInfo} {rest : List InverterInfo}
    {frames : Nat → Option Decoded} (taken : ∀ i, takenBy T round (x :: rest) i = frames i) :
    (pollRound T round.ecu round.answers (x :: rest)).map (·.changes) =
      changesAfter x.changes (frames 0).toList ::
        (rest.map (·.changes)).mapIdx fun i changes => changesAfter changes (frames (i + 1)).toList := by
  have same : takenBy T round (x :: rest) = frames := funext taken
  rw [changes_after, same, List.map_cons, List.mapIdx_cons]

/-- With an inverter in the files the two tables give different messages after every round. -/
theorem flags_shown (T : Target) (via : Registration) {disk : Disk} (inhabited : load disk.ids ≠ []) (round : Round)
    (mem : List Byte) :
    nextResults T via disk round mem zeroSlots ≠ nextResults T via disk round mem gfdiSlots := by
  obtain ⟨l, ls, loaded⟩ := List.exists_cons_of_ne_nil inhabited
  -- behind the first inverter the two tables are the same
  let rest := List.zipWith (fun l x => restored disk.collect (moved l x)) ls (List.replicate 119 zeroSlot)
  have first : restart via disk zeroSlots = restored disk.collect (moved l zeroSlot) :: rest := by
    rw [restart_zipWith via disk (by rfl), loaded]
    rfl
  have second : restart via disk gfdiSlots = restored disk.collect (moved l gfdiSlot) :: rest := by
    rw [restart_zipWith via disk (by rfl), loaded]
    rfl
  have start : List.Forall₂ Start (restart via disk zeroSlots) (restart via disk gfdiSlots) := by
    rw [first, second]
    exact .cons (start_gfdi disk.collect l) (List.forall₂_same.2 fun x _ => rfl)
  obtain ⟨-, taken⟩ := pollRound_alike (T := T) round start
  have hasId := hasId_after T round (restart_hasId via disk zeroSlots)
  have hasId' := hasId_after T round (restart_hasId via disk gfdiSlots)
  rw [first] at taken hasId
  rw [second] at taken hasId'
  have differ := gfdi_flags_differ (takenBy T round (restored disk.collect (moved l zeroSlot) :: rest) 0)
  rw [nextResults, nextResults, first, second]
  intro equal
  have reports := congrArg (fun results : Results => results.gfdiReport.bind (·[33]?)) equal
  change (changedResult .gfdi round.ecu.id mem _).bind (·[33]?) = (changedResult .gfdi round.ecu.id mem _).bind (·[33]?)
    at reports
  rw [changedResult_count _ _ _ hasId, changedResult_count _ _ _ hasId', changes_after_cons fun i => rfl,
    changes_after_cons fun i => (taken i).symm, restored_changes, restored_changes, List.countP_cons,
    List.countP_cons] at reports
  simp only [decide_eq_true_eq] at reports
  generalize List.countP _ _ = n at reports
  by_cases changed : Event.gfdi.flag (changesAfter zeroSlot.changes
      (takenBy T round (restored disk.collect (moved l zeroSlot) :: rest) 0).toList) = 1
  · rw [if_pos changed, if_neg (differ.1 changed), Nat.add_zero] at reports
    exact count_differs n reports
  · rw [if_neg changed, if_pos (not_not.1 (mt differ.2 changed)), Nat.add_zero] at reports
    exact count_differs n reports.symm

/-- With nobody registered there is nothing that a slot could be left to. -/
theorem restart_nil (via : Registration) {disk : Disk} (none : load disk.ids = []) {slots : List InverterInfo}
    (size : slots.length = maxInverterCount) : restart via disk slots = [] := by
  rw [restart_zipWith via disk size, none, List.zipWith_nil_left]

/-- Two old tables that leave the same to each inverter of the files give the same results in every round. With an
inverter in the files there are two that give others, whatever the round. -/
theorem restart_forgets_iff (T : Target) (via : Registration) (disk : Disk) :
    (∀ a b : List InverterInfo, a.length = maxInverterCount → b.length = maxInverterCount → SameLeft disk a b →
      ∀ (round : Round) (mem : List Byte), nextResults T via disk round mem a = nextResults T via disk round mem b) ∧
      ∀ (round : Round) (mem : List Byte),
        (∀ a b : List InverterInfo, a.length = maxInverterCount → b.length = maxInverterCount →
          nextResults T via disk round mem a = nextResults T via disk round mem b) ↔ load disk.ids = [] := by
  refine ⟨fun a b sizeA sizeB same round mem => sameResults_of_sameLeft T via sizeA sizeB same round mem, ?_⟩
  intro round mem
  constructor
  · intro forgets
    by_contra listed
    exact flags_shown T via listed round mem (forgets zeroSlots gfdiSlots rfl rfl)
  · intro none a b sizeA sizeB
    rw [nextResults, nextResults, restart_nil via none sizeA, restart_nil via none sizeB]

/-- The next inverter in the slot does not answer, and A115 reports a change of its GFDI state. -/
theorem slot_remembers :
    ¬ ∀ (T : Target) (via : Registration) (disk : Disk) (round : Round) (mem : List Byte) (a b : List InverterInfo),
      a.length = maxInverterCount → b.length = maxInverterCount →
        nextResults T via disk round mem a = nextResults T via disk round mem b := by
  intro claim
  have listed : load sampleDisk.ids ≠ [] := by
    have booted := congrArg List.length (boot_listed sampleDisk)
    rw [sampleDisk_boot] at booted
    intro none
    rw [none] at booted
    exact absurd booted (by decide)
  exact flags_shown sampleTarget .a103 listed (replyRound none) []
    (claim sampleTarget .a103 sampleDisk (replyRound none) [] zeroSlots gfdiSlots rfl rfl)

end Poll

end Ecu
