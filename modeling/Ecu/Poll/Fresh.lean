import Ecu.Poll.Outcome

/-!
# Data of the round

An inverter counts in a round when its `dataflag` is set. A round is fresh for it when the measurements are those of
a frame that was received from it in this round, whatever the rounds before have left. It is so exactly when no frame
of an unknown kind was accepted from it (`fresh_iff`): the flag is set before the decoder is chosen.
-/

namespace Ecu

/-- What a report tells of an inverter. -/
structure Measurements where
  dv : ℚ
  di : ℚ
  op : Int
  gf : ℚ
  gv : Int
  it : Int
  dvb : ℚ
  dib : ℚ
  opb : Int
  reactivePower : ℚ
  activePower : ℚ
  outputEnergy : ℚ
  curOutputEnergy : ℚ
  curgeneration : ℚ
  curgenerationb : ℚ
  curaccgen : ℚ
  curaccgenb : ℚ
  curacctime : Int
  third : List ℚ
deriving DecidableEq

namespace Inverter

def measured (inverter : Inverter) : Measurements where
  dv := inverter.dv
  di := inverter.di
  op := inverter.op
  gf := inverter.gf
  gv := inverter.gv
  it := inverter.it
  dvb := inverter.dvb
  dib := inverter.dib
  opb := inverter.opb
  reactivePower := inverter.reactivePower
  activePower := inverter.activePower
  outputEnergy := inverter.outputEnergy
  curOutputEnergy := inverter.curOutputEnergy
  curgeneration := inverter.curgeneration
  curgenerationb := inverter.curgenerationb
  curaccgen := inverter.curaccgen
  curaccgenb := inverter.curaccgenb
  curacctime := inverter.curacctime
  third := inverter.third

/-- An inverter that has nothing but its id, its model and its baseline. -/
def blank (id : List Byte) (model : Nat) (baseline : Baseline) : Inverter where
  id := id
  model := model
  preaccgen := baseline.preaccgen
  preaccgenb := baseline.preaccgenb
  preaccgenc := baseline.preaccgenc
  preaccgend := baseline.preaccgend
  preOutputEnergy := baseline.preOutputEnergy
  preOutputEnergyb := baseline.preOutputEnergyb
  preOutputEnergyc := baseline.preOutputEnergyc
  preacctime := baseline.preacctime

theorem measured_third {inverter : Inverter} {third : List ℚ} (same : inverter.third = third) :
    { inverter.measured with third := third } = inverter.measured := by
  rw [← same]
  rfl

end Inverter

/-! ## Decoding uses only the baseline -/

section Resolve

variable {T : Target} {ecu : EcuInfo} {it : Int} {gv : ℚ} {ofNew : List Byte} {high low : Nat} {data : Frame}
  {before : Inverter}

theorem resolve600_measured (two : before.third = List.replicate 20 0) :
    (resolve600 T ecu it gv (statusWeb600 data ofNew) high low data before).2.measured =
      (resolve600 T ecu it gv (statusWeb600 data ofNew) high low data
        (Inverter.blank before.id before.model before.stored)).2.measured := by
  have same : (resolve600 T ecu it gv (statusWeb600 data ofNew) high low data before).2.measured =
      { (resolve600 T ecu it gv (statusWeb600 data ofNew) high low data
          (Inverter.blank before.id before.model before.stored)).2.measured with third := before.third } := by
    rw [resolve600, resolve600]
    obtain ⟨ema, flag, frame⟩ := yc600Status_frame (checkYc500 ecu.ecuType
      (report600 T ecu.ecuType (statusWeb600 data ofNew) high low (decode600 T it gv data before)))
    obtain ⟨ema', flag', frame'⟩ := yc600Status_frame (checkYc500 ecu.ecuType
      (report600 T ecu.ecuType (statusWeb600 data ofNew) high low
        (decode600 T it gv data (Inverter.blank before.id before.model before.stored))))
    rw [frame, frame']
    dsimp only [Inverter.measured, checkYc500, report600, updateChanges, status600, power600, curgeneration600,
      outputEnergy600, decode600]
    rfl
  -- the third panel of the other side is as blank as it was
  have first : Decoder.yc600 ≠ .yc1000 := by decide
  have blank : (resolve600 T ecu it gv (statusWeb600 data ofNew) high low data
      (Inverter.blank before.id before.model before.stored)).2.third = List.replicate 20 0 :=
    (resolve600_taken first).third first
  rw [same, two]
  exact Inverter.measured_third blank

theorem resolve1000_measured (kept : ¬ Jumped (decode1000 T data before)) :
    (resolvedata1000 T ecu data before).2.measured =
      (resolvedata1000 T ecu data (Inverter.blank before.id before.model before.stored)).2.measured := by
  have kept' : ¬ Jumped (decode1000 T data (Inverter.blank before.id before.model before.stored)) := kept
  rw [resolvedata1000, resolvedata1000]
  dsimp only
  rw [if_neg kept, if_neg kept']
  obtain ⟨ema, flag, frame⟩ := yc1000Status_frame
    (checkYc1000 ecu.ecuType (report1000 T ecu.ecuType data (decode1000 T data before)))
  obtain ⟨ema', flag', frame'⟩ := yc1000Status_frame (checkYc1000 ecu.ecuType
    (report1000 T ecu.ecuType data (decode1000 T data (Inverter.blank before.id before.model before.stored))))
  rw [frame, frame']
  dsimp only [Inverter.measured, Inverter.third, checkYc1000, report1000, updateChanges, status1000, power1000,
    curgeneration1000, outputEnergy1000, decode1000]
  rfl

end Resolve

/-- The measurements of a frame that is taken depend on nothing else of the inverter. -/
theorem Decoder.measured {T : Target} {ecu : EcuInfo} {d : Decoder} {data : Frame} {before : Inverter}
    (two : d ≠ .yc1000 → before.third = List.replicate 20 0) (takes : d.Takes T data before) :
    (d.resolve T ecu data before).2.measured =
      (d.resolve T ecu data (Inverter.blank before.id before.model before.stored)).2.measured := by
  cases d with
  | yc600 => exact resolve600_measured (two nofun)
  | yc600New => exact resolve600_measured (two nofun)
  | yc1000 => exact resolve1000_measured takes

namespace Poll

/-! ## Runs of rounds -/

/-- After a start the memory is zero but for what the files give. -/
def PowerOn (x : InverterInfo) : Prop :=
  x.toInverter = Inverter.blank x.id x.model x.stored

/-- A round: the ECU, and what is read from the `i`-th inverter in pass `j`. -/
structure Round where
  ecu : EcuInfo
  answers : Nat → Nat → Answers

def pollRounds (T : Target) (rounds : List Round) (table : List InverterInfo) : List InverterInfo :=
  rounds.foldl (fun table round => pollRound T round.ecu round.answers table) table

/-- The frames of the `i`-th inverter in a round. -/
def heardBy (T : Target) (round : Round) (table : List InverterInfo) (i : Nat) : List Heard :=
  (table[i]?.map fun x =>
    heardIn T round.ecu (fun j => round.answers j i) (passCount T round.ecu round.answers 5 0 table) 0
      (clearRound x)).getD []

/-- What happens to an entry of the table in a round. -/
theorem pollRound_outcome (T : Target) (round : Round) {table : List InverterInfo} {i : Nat} {x y : InverterInfo}
    (before : table[i]? = some x) (after : (pollRound T round.ecu round.answers table)[i]? = some y) :
    ∃ z, Outcome T round.ecu (clearRound x) (heardBy T round table i) z ∧ y = countMissing z := by
  rw [pollRound_getElem?, before, Option.map_some, Option.some_inj] at after
  refine ⟨_, ?_, after.symm⟩
  rw [heardBy, before]
  exact visits_outcome _ _ _ rfl

/-- Counting the missing data changes nothing else. -/
theorem countMissing_frame (x : InverterInfo) : ∃ n, countMissing x = { x with noGetdataNum := n } := by
  unfold countMissing
  split
  · exact ⟨_, rfl⟩
  · exact ⟨_, rfl⟩

/-- Only a YC1000 has something in the fields of the other phases and panels. -/
def TwoPanels (x : InverterInfo) : Prop :=
  ¬ IsYc1000 x.model → x.third = List.replicate 20 0

theorem PowerOn.twoPanels {x : InverterInfo} (on : PowerOn x) : TwoPanels x := by
  intro _
  rw [on]
  rfl

theorem Kept.twoPanels {x y : InverterInfo} (kept : Kept x y) (two : TwoPanels x) : TwoPanels y := by
  intro other
  have before : ¬ IsYc1000 x.model := by
    by_cases known : x.model = 0
    · rw [known]
      exact not_isYc1000_zero
    · rwa [← kept.model known]
  rw [kept.third other, two before]

theorem Outcome.twoPanels {T : Target} {ecu : EcuInfo} {x y : InverterInfo} {log : List Heard}
    (outcome : Outcome T ecu x log y) (two : TwoPanels x) : TwoPanels y := by
  cases outcome with
  | missed refused kept dataflag => exact kept.twoPanels two
  | unknown refused kept unknown => exact kept.twoPanels two
  | @decoded log h d deputy refused kept known takes =>
    have taken : Taken d h.frame h.before (d.resolve T ecu h.frame h.before) := Decoder.taken takes
    intro other
    have asked : ¬ IsYc1000 h.asked.model := taken.model ▸ other
    exact (taken.third fun yc1000 => asked ((Heard.yc1000_iff known).2 yc1000)).trans (kept.twoPanels two asked)

theorem pollRound_twoPanels {T : Target} {round : Round} {table : List InverterInfo}
    (two : ∀ x ∈ table, TwoPanels x) : ∀ y ∈ pollRound T round.ecu round.answers table, TwoPanels y := by
  intro y mem
  obtain ⟨i, after⟩ := List.mem_iff_getElem?.1 mem
  have entry := after
  rw [pollRound_getElem?] at entry
  obtain ⟨x, before, -⟩ := Option.map_eq_some_iff.1 entry
  obtain ⟨z, outcome, rfl⟩ := pollRound_outcome T round before after
  obtain ⟨n, frame⟩ := countMissing_frame z
  rw [frame]
  exact outcome.twoPanels (two x (List.mem_of_getElem? before))

theorem pollRounds_twoPanels {T : Target} (rounds : List Round) {table : List InverterInfo}
    (on : ∀ x ∈ table, PowerOn x) : ∀ y ∈ pollRounds T rounds table, TwoPanels y := by
  have two : ∀ x ∈ table, TwoPanels x := fun x mem => (on x mem).twoPanels
  clear on
  induction rounds generalizing table with
  | nil => exact two
  | cons round rounds ih => exact ih (pollRound_twoPanels two)

/-! ## Fresh data -/

/-- A frame that was received from an inverter in the round. -/
structure Received (answers : Nat → Answers) (x : InverterInfo) (data : List Byte) : Prop where
  reply : ∃ j < 5, ∃ dataAll, (answers j).data = some dataAll ∧ FromInverter x dataAll ∧ dataAll.drop 12 = data
  enveloped : Enveloped data
  checked : Checked data

/-- The inverter `x` is `y` after a round in which the frames of `log` were accepted from it. -/
structure Fresh (T : Target) (ecu : EcuInfo) (answers : Nat → Answers) (log : List Heard) (x y : InverterInfo) :
    Prop where
  /-- Its data is of this round. -/
  data : y.dataflag = 1 → ∃ data d, Received answers x data ∧ decoderOf y.model data = some d ∧
    y.measured = (d.resolve T ecu (data.drop 4) (Inverter.blank x.id y.model x.stored)).2.measured
  /-- It does not count after a frame of an unknown kind. -/
  uncounted : ∀ h ∈ log, h.decoder = none → y.dataflag ≠ 1

/-- The sums and the record of the round take the inverters with the flag. -/
theorem answered_map {table : Record.Table} {after : List InverterInfo}
    (entries : table.entries = after.map (·.toInverter)) (ids : ∀ y ∈ after, Record.HasId y.toInverter) :
    table.answered = (after.filter (·.dataflag = 1)).map (·.toInverter) := by
  have listed : table.listed = table.entries := by
    apply List.takeWhile_eq_self_iff.2
    intro inverter mem
    rw [entries] at mem
    obtain ⟨y, inAfter, rfl⟩ := List.mem_map.1 mem
    exact decide_eq_true (ids y inAfter)
  rw [Record.Table.answered, listed, entries, List.filter_map]
  rfl

theorem FromInverter.kept {x y : InverterInfo} {dataAll : List Byte} (kept : Kept x y)
    (sender : FromInverter y dataAll) : FromInverter x dataAll := by
  have id : y.id = x.id := congrArg Memory.id kept.memory
  unfold FromInverter at sender ⊢
  rwa [kept.shortaddr, id] at sender

theorem received_of_heard {T : Target} {round : Round} {table : List InverterInfo} {i : Nat} {x : InverterInfo}
    (before : table[i]? = some x) {h : Heard} (mem : h ∈ heardBy T round table i) (kept : Kept x h.asked) :
    Received (fun j => round.answers j i) x h.data := by
  rw [heardBy, before] at mem
  obtain ⟨j, inside, taken⟩ := heardIn_received mem
  obtain ⟨dataAll, reply, sender, frame, enveloped, checked⟩ := accepted_some taken
  have passes := passCount_le T round.ecu round.answers 5 0 table
  exact ⟨⟨j, by omega, dataAll, reply, sender.kept kept, frame⟩, enveloped, checked⟩

/-- Data of a round is fresh exactly when no frame of an unknown kind was accepted in it. -/
theorem fresh_iff (T : Target) (rounds : List Round) (round : Round) {table : List InverterInfo}
    (on : ∀ x ∈ table, PowerOn x) {i : Nat} {x y : InverterInfo}
    (before : (pollRounds T rounds table)[i]? = some x)
    (after : (pollRound T round.ecu round.answers (pollRounds T rounds table))[i]? = some y) :
    Fresh T round.ecu (fun j => round.answers j i) (heardBy T round (pollRounds T rounds table) i) x y ↔
      ∀ h ∈ heardBy T round (pollRounds T rounds table) i, h.decoder ≠ none := by
  have two := pollRounds_twoPanels rounds on x (List.mem_of_getElem? before)
  obtain ⟨z, outcome, rfl⟩ := pollRound_outcome T round before after
  obtain ⟨n, frame⟩ := countMissing_frame z
  rw [frame]
  have received : ∀ h ∈ heardBy T round (pollRounds T rounds table) i, Kept x h.asked →
      Received (fun j => round.answers j i) x h.data := fun h mem kept => received_of_heard before mem kept
  generalize heardBy T round (pollRounds T rounds table) i = log at outcome received ⊢
  have cleared : Kept x (clearRound x) := ⟨rfl, rfl, fun _ => rfl, fun _ => rfl⟩
  have refusedKnown : ∀ {log : List Heard}, (∀ h ∈ log, h.Refused T) → ∀ h ∈ log, h.decoder ≠ none := by
    intro log refused h mem
    obtain ⟨d, known, -⟩ := refused h mem
    rw [known]
    exact Option.some_ne_none d
  cases outcome with
  | missed refused kept dataflag =>
    have known := refusedKnown refused
    refine iff_of_true ⟨fun counts => ?_, fun h mem unknown => absurd unknown (known h mem)⟩ known
    exact absurd (dataflag.symm.trans counts) Nat.zero_ne_one
  | @unknown log h refused kept unknown =>
    have last : h ∈ log ++ [h] := List.mem_append_right _ (List.mem_singleton_self h)
    refine iff_of_false (fun fresh => ?_) fun known => known h last unknown
    exact fresh.uncounted h last unknown rfl
  | @decoded log h d deputy refused kept known takes =>
    have last : h ∈ log ++ [h] := List.mem_append_right _ (List.mem_singleton_self h)
    have taken : Taken d h.frame h.before (d.resolve T round.ecu h.frame h.before) := Decoder.taken takes
    have all : ∀ g ∈ log ++ [h], g.decoder ≠ none := by
      intro g mem
      rcases List.mem_append.1 mem with inLog | same
      · exact refusedKnown refused g inLog
      · rw [List.mem_singleton.1 same, known]
        exact Option.some_ne_none d
    have same := cleared.trans kept
    refine iff_of_true ⟨fun _ => ?_, fun g mem unknown => absurd unknown (all g mem)⟩ all
    have id : h.asked.id = x.id := congrArg Memory.id same.memory
    have stored : h.before.stored = x.stored := congrArg Memory.baseline same.memory
    refine ⟨h.data, d, received h last same, taken.model ▸ known, ?_⟩
    have blank : Inverter.blank x.id (d.resolve T round.ecu h.frame h.before).2.model x.stored =
        Inverter.blank h.before.id h.before.model h.before.stored := by
      rw [taken.model, stored, ← id]
      rfl
    rw [blank]
    refine Decoder.measured (fun other => ?_) takes
    exact same.twoPanels two fun yc1000 => other ((Heard.yc1000_iff known).1 yc1000)

/-- A YC600 with a short address. -/
def sampleInverter : InverterInfo where
  id := str "701000000001"
  model := 7
  shortaddr := 0x1234
  bindflag := 1

/-- Its reply with a frame of this type. -/
def sampleReply (kind : Byte) : List Byte :=
  [0xFC, 0xFC, 0x12, 0x34, 0, 0, 0x70, 0x10, 0x00, 0x00, 0x00, 0x01] ++ [0xFB, 0xFB, 0x06, kind] ++
    List.replicate 82 0 ++ [0xFE, 0xFE]

/-- A round in which it gives this reply. -/
def sampleRound (kind : Byte) : Round where
  ecu := ⟨[], 0, 0, 0, 0, 0, [], 1⟩
  answers _ _ := ⟨true, none, some (sampleReply kind)⟩

theorem sample_on : ∀ x ∈ [sampleInverter], PowerOn x := by
  intro x mem
  rw [List.mem_singleton.1 mem]
  rfl

theorem fresh_sample :
    ∃ y, (pollRound sampleTarget (sampleRound 0xBB).ecu (sampleRound 0xBB).answers [sampleInverter])[0]? = some y ∧
      (Fresh sampleTarget (sampleRound 0xBB).ecu (fun j => (sampleRound 0xBB).answers j 0)
          (heardBy sampleTarget (sampleRound 0xBB) [sampleInverter] 0) sampleInverter y ↔
        ∀ h ∈ heardBy sampleTarget (sampleRound 0xBB) [sampleInverter] 0, h.decoder ≠ none) :=
  ⟨_, pollRound_getElem? .., fresh_iff sampleTarget [] (sampleRound 0xBB) sample_on rfl (pollRound_getElem? ..)⟩

/-- A frame of another type counts, though nothing was decoded from it. -/
theorem counted_unknown :
    ¬ ∀ (T : Target) (rounds : List Round) (round : Round) (table : List InverterInfo),
      (∀ x ∈ table, PowerOn x) → ∀ (i : Nat) (x y : InverterInfo),
        (pollRounds T rounds table)[i]? = some x →
        (pollRound T round.ecu round.answers (pollRounds T rounds table))[i]? = some y →
        Fresh T round.ecu (fun j => round.answers j i) (heardBy T round (pollRounds T rounds table) i) x y := by
  intro claim
  have fresh := claim sampleTarget [] (sampleRound 0xBC) [sampleInverter] sample_on 0 sampleInverter _ rfl
    (pollRound_getElem? ..)
  let h : Heard := ⟨clearRound sampleInverter, (sampleReply 0xBC).drop 12⟩
  have heard : heardBy sampleTarget (sampleRound 0xBC) [sampleInverter] 0 = [h] := by
    decide +kernel
  exact fresh.uncounted h (heard ▸ List.mem_singleton_self h) (by decide) (by decide +kernel)

end Poll

end Ecu
