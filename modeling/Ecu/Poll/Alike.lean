import Ecu.Poll.Changes

/-!
# Two runs of a round

Two tables are alike when they differ only in fields that a round writes before it uses them, and in the states that the
changed flags compare. A round with the same replies takes the same frames from both, and leaves them alike.
-/

namespace Ecu

namespace Inverter

/-- The inverter without the fields that a round does not use before it has written them, and without the flags. -/
def scrub (inverter : Inverter) : Inverter :=
  { inverter with
    lastTurnOnOffFlag := 0, turnOnOffChangedFlag := 0, lastGfdiFlag := 0, gfdiChangedFlag := 0
    reactivePowerb := 0, reactivePowerc := 0, activePowerb := 0, activePowerc := 0
    curOutputEnergy := 0, curOutputEnergyb := 0, curOutputEnergyc := 0
    curaccgenc := 0, curaccgend := 0
    statusc := [], statusEma := [], lastReportTime := [] }

/-- The powers of the other phases, which the record of a YC1000 shows. -/
def phases (inverter : Inverter) : List ℚ :=
  [inverter.reactivePowerb, inverter.reactivePowerc, inverter.activePowerb, inverter.activePowerc]

end Inverter

/-! ## Decoding -/

section Status

variable {x y : Inverter} (id : x.id = y.id) (web : x.statusWeb = y.statusWeb)

include id web

theorem yc600Status_congr :
    (yc600Status x).statusEma = (yc600Status y).statusEma ∧
      (yc600Status x).statusSendFlag = (yc600Status y).statusSendFlag := by
  unfold yc600Status
  dsimp only
  rw [id, web]
  split
  · exact ⟨rfl, rfl⟩
  · exact ⟨rfl, rfl⟩

theorem yc1000Status_congr :
    (yc1000Status x).statusEma = (yc1000Status y).statusEma ∧
      (yc1000Status x).statusSendFlag = (yc1000Status y).statusSendFlag := by
  unfold yc1000Status
  dsimp only
  rw [id, web]
  split
  · exact ⟨rfl, rfl⟩
  · exact ⟨rfl, rfl⟩

end Status

section Resolve

variable {T : Target} {ecu : EcuInfo} {it : Int} {gv : ℚ} {ofNew : List Byte} {high low : Nat} {data : Frame}
  {x : Inverter}

theorem resolve600_scrub :
    (resolve600 T ecu it gv (statusWeb600 data ofNew) high low data x).2.scrub =
        (resolve600 T ecu it gv (statusWeb600 data ofNew) high low data x.scrub).2.scrub ∧
      (resolve600 T ecu it gv (statusWeb600 data ofNew) high low data x).2.statusEma =
        (resolve600 T ecu it gv (statusWeb600 data ofNew) high low data x.scrub).2.statusEma := by
  rw [resolve600, resolve600]
  have status := yc600Status_congr
    (x := checkYc500 ecu.ecuType
      (report600 T ecu.ecuType (statusWeb600 data ofNew) high low (decode600 T it gv data x)))
    (y := checkYc500 ecu.ecuType
      (report600 T ecu.ecuType (statusWeb600 data ofNew) high low (decode600 T it gv data x.scrub))) rfl rfl
  obtain ⟨ema, flag, frame⟩ := yc600Status_frame (checkYc500 ecu.ecuType
    (report600 T ecu.ecuType (statusWeb600 data ofNew) high low (decode600 T it gv data x)))
  obtain ⟨ema', flag', frame'⟩ := yc600Status_frame (checkYc500 ecu.ecuType
    (report600 T ecu.ecuType (statusWeb600 data ofNew) high low (decode600 T it gv data x.scrub)))
  rw [frame, frame'] at status ⊢
  dsimp only at status
  obtain ⟨rfl, rfl⟩ := status
  dsimp only [Inverter.scrub, checkYc500, report600, updateChanges, status600, power600, curgeneration600,
    outputEnergy600, decode600]
  exact ⟨rfl, rfl⟩

theorem resolve1000_scrub :
    (resolvedata1000 T ecu data x).2.scrub = (resolvedata1000 T ecu data x.scrub).2.scrub ∧
      (¬ Jumped (decode1000 T data x) →
        (resolvedata1000 T ecu data x).2.statusEma = (resolvedata1000 T ecu data x.scrub).2.statusEma ∧
          (resolvedata1000 T ecu data x).2.phases = (resolvedata1000 T ecu data x.scrub).2.phases) := by
  have same : Jumped (decode1000 T data x) ↔ Jumped (decode1000 T data x.scrub) := Iff.rfl
  rw [resolvedata1000, resolvedata1000]
  dsimp only
  by_cases jumped : Jumped (decode1000 T data x)
  · rw [if_pos jumped, if_pos (same.1 jumped)]
    exact ⟨rfl, absurd jumped⟩
  rw [if_neg jumped, if_neg (mt same.2 jumped)]
  have status := yc1000Status_congr
    (x := checkYc1000 ecu.ecuType (report1000 T ecu.ecuType data (decode1000 T data x)))
    (y := checkYc1000 ecu.ecuType (report1000 T ecu.ecuType data (decode1000 T data x.scrub))) rfl rfl
  obtain ⟨ema, flag, frame⟩ := yc1000Status_frame (checkYc1000 ecu.ecuType
    (report1000 T ecu.ecuType data (decode1000 T data x)))
  obtain ⟨ema', flag', frame'⟩ := yc1000Status_frame (checkYc1000 ecu.ecuType
    (report1000 T ecu.ecuType data (decode1000 T data x.scrub)))
  rw [frame, frame'] at status ⊢
  dsimp only at status
  obtain ⟨rfl, rfl⟩ := status
  dsimp only [Inverter.scrub, Inverter.phases, checkYc1000, report1000, updateChanges, status1000, power1000,
    curgeneration1000, outputEnergy1000, decode1000]
  exact ⟨rfl, fun _ => ⟨rfl, rfl⟩⟩

end Resolve

namespace Decoder

variable {T : Target} {ecu : EcuInfo} {d : Decoder} {data : Frame} {x y : Inverter}

theorem takes_scrub (scrub : x.scrub = y.scrub) : d.Takes T data x ↔ d.Takes T data y := by
  have same (z : Inverter) : d.Takes T data z ↔ d.Takes T data z.scrub := by
    cases d <;> exact Iff.rfl
  rw [same x, same y, scrub]

theorem resolve_scrub (scrub : x.scrub = y.scrub) :
    (d.resolve T ecu data x).2.scrub = (d.resolve T ecu data y).2.scrub := by
  have same (z : Inverter) : (d.resolve T ecu data z).2.scrub = (d.resolve T ecu data z.scrub).2.scrub := by
    cases d with
    | yc600 => exact resolve600_scrub.1
    | yc600New => exact resolve600_scrub.1
    | yc1000 => exact resolve1000_scrub.1
  rw [same x, same y, scrub]

/-- A frame that is taken shows the same status. -/
theorem resolve_ema (scrub : x.scrub = y.scrub) (takes : d.Takes T data x) :
    (d.resolve T ecu data x).2.statusEma = (d.resolve T ecu data y).2.statusEma := by
  have same (z : Inverter) (takes : d.Takes T data z) :
      (d.resolve T ecu data z).2.statusEma = (d.resolve T ecu data z.scrub).2.statusEma := by
    cases d with
    | yc600 => exact resolve600_scrub.2
    | yc600New => exact resolve600_scrub.2
    | yc1000 => exact (resolve1000_scrub.2 takes).1
  rw [same x takes, same y ((takes_scrub scrub).1 takes), scrub]

theorem resolve_phases (scrub : x.scrub = y.scrub) (takes : yc1000.Takes T data x) :
    (yc1000.resolve T ecu data x).2.phases = (yc1000.resolve T ecu data y).2.phases := by
  have same (z : Inverter) (takes : yc1000.Takes T data z) :
      (yc1000.resolve T ecu data z).2.phases = (yc1000.resolve T ecu data z.scrub).2.phases :=
    (resolve1000_scrub.2 takes).2
  rw [same x takes, same y ((takes_scrub scrub).1 takes), scrub]

end Decoder

namespace Poll

def InverterInfo.scrub (x : InverterInfo) : InverterInfo :=
  { x with toInverter := x.toInverter.scrub }

/-- Two inverters that a round, as far as it has come, does not tell apart but by the states of the changed flags. -/
structure Alike (x y : InverterInfo) : Prop where
  scrub : x.scrub = y.scrub
  silent : x.dataflag = 0 → x.statusSendFlag = 0
  ema : x.statusSendFlag = 1 → x.statusEma = y.statusEma
  phases : x.dataflag = 1 → IsYc1000 x.model → x.phases = y.phases

/-- Without data and status the fields that differ are not looked at. -/
theorem alike_of_scrub {x y : InverterInfo} (scrub : x.scrub = y.scrub) (dataflag : x.dataflag = 0)
    (sendFlag : x.statusSendFlag = 0) : Alike x y where
  scrub := scrub
  silent _ := sendFlag
  ema sent := absurd (sendFlag.symm.trans sent) Nat.zero_ne_one
  phases data := absurd (dataflag.symm.trans data) Nat.zero_ne_one

/-! ## A visit -/

section Visit

variable {T : Target} {ecu : EcuInfo} {x y : InverterInfo}

theorem zbGetReply_scrub (scrub : x.scrub = y.scrub) (reply : Option (List Byte)) :
    zbGetReply x reply = zbGetReply y reply := by
  have same (z : InverterInfo) : zbGetReply z reply = zbGetReply z.scrub reply := rfl
  rw [same x, same y, scrub]

theorem accepted_scrub (scrub : x.scrub = y.scrub) (reply : Option (List Byte)) :
    accepted x reply = accepted y reply := by
  rw [accepted, accepted, zbGetReply_scrub scrub]

theorem bindStep_scrub (scrub : x.scrub = y.scrub) (a : Answers) :
    (bindStep a x).1.scrub = (bindStep a y).1.scrub ∧ (bindStep a x).2 = (bindStep a y).2 := by
  have bindflag : x.bindflag = y.bindflag := congrArg (·.bindflag) scrub
  unfold bindStep
  rw [bindflag]
  split_ifs
  · exact ⟨congrArg (fun z => { z with bindflag := 1 }) scrub, rfl⟩
  · exact ⟨scrub, rfl⟩
  · exact ⟨scrub, rfl⟩

theorem modelStep_scrub (scrub : x.scrub = y.scrub) (a : Answers) :
    (modelStep a x).1.scrub = (modelStep a y).1.scrub ∧ (modelStep a x).2 = (modelStep a y).2 := by
  have model : x.model = y.model := congrArg (·.model) scrub
  unfold modelStep zbQueryInverterInfo
  rw [model, zbGetReply_scrub scrub]
  split_ifs
  · cases zbGetReply y a.info with
    | none => exact ⟨scrub, rfl⟩
    | some recv =>
      dsimp only
      split_ifs
      · exact ⟨congrArg (fun z : InverterInfo =>
          { z with
            model := byteAt recv 4
            version := (byteAt recv 5 * 256 + byteAt recv 6) * 1000 + (byteAt recv 8 * 256 + byteAt recv 9)
              }) scrub, rfl⟩
      · exact ⟨scrub, rfl⟩
  · exact ⟨scrub, rfl⟩

theorem prepared_scrub (scrub : x.scrub = y.scrub) (a : Answers) : (prepared a x).scrub = (prepared a y).scrub :=
  (modelStep_scrub (bindStep_scrub scrub a).1 a).1

/-- A frame that was accepted from both. -/
structure HeardAlike (g h : Heard) : Prop where
  data : g.data = h.data
  asked : g.asked.scrub = h.asked.scrub

theorem HeardAlike.decoder {g h : Heard} (alike : HeardAlike g h) : g.decoder = h.decoder := by
  have model : g.asked.model = h.asked.model := congrArg (·.model) alike.asked
  rw [Heard.decoder, Heard.decoder, model, alike.data]

theorem HeardAlike.frame {g h : Heard} (alike : HeardAlike g h) : g.frame = h.frame := by
  rw [Heard.frame, Heard.frame, alike.data]

theorem HeardAlike.before {g h : Heard} (alike : HeardAlike g h) : g.before.scrub = h.before.scrub :=
  congrArg (fun z : InverterInfo => { z.toInverter with dataflag := 1 }) alike.asked

theorem rejected_sendFlag {d : Decoder} {data : Frame} {before : Inverter} (jumped : ¬ d.Takes T data before) :
    (d.resolve T ecu data before).2.statusSendFlag = before.statusSendFlag := by
  cases d with
  | yc600 => exact absurd trivial jumped
  | yc600New => exact absurd trivial jumped
  | yc1000 =>
    change (resolvedata1000 T ecu data before).2.statusSendFlag = _
    rw [resolvedata1000]
    dsimp only
    rw [if_pos (not_not.1 jumped)]
    rfl

theorem Heard.unknown_model {h : Heard} (unknown : h.decoder = none) : ¬ IsYc1000 h.asked.model := by
  intro yc1000
  have other : h.asked.model ≠ 7 := by
    rintro seven
    rw [seven] at yc1000
    revert yc1000
    decide
  unfold Heard.decoder decoderOf at unknown
  rw [if_neg other, if_pos yc1000] at unknown
  exact Option.some_ne_none _ unknown

/-- The two stay alike through a frame. -/
theorem resolveData_alike {g h : Heard} (alike : HeardAlike g h) (silent : g.asked.statusSendFlag = 0) :
    Alike (resolveData T ecu g.asked g.data) (resolveData T ecu h.asked h.data) := by
  have decoder := alike.decoder
  cases known : h.decoder with
  | none =>
    rw [known] at decoder
    rw [resolveData_unknown T ecu known, resolveData_unknown T ecu decoder]
    refine ⟨?_, fun none => absurd none Nat.one_ne_zero, ?_, ?_⟩
    · exact congrArg (fun z : InverterInfo => { z with noGetdataNum := 0, dataflag := 1 }) alike.asked
    · exact fun sent => absurd (silent.symm.trans sent) Nat.zero_ne_one
    · exact fun _ yc1000 => absurd yc1000 (Heard.unknown_model decoder)
  | some d =>
    rw [known] at decoder
    have scrub : (d.resolve T ecu h.frame g.before).2.scrub = (d.resolve T ecu h.frame h.before).2.scrub :=
      Decoder.resolve_scrub alike.before
    have deputy : g.asked.deputyModel = h.asked.deputyModel := congrArg (·.deputyModel) alike.asked
    rw [resolveData_known T ecu known, resolveData_known T ecu decoder, deputy, alike.frame]
    let decoded (asked : InverterInfo) (inverter : Inverter) : InverterInfo :=
      { asked with
        noGetdataNum := 0, deputyModel := d.deputy.getD h.asked.deputyModel, toInverter := inverter }
    have same : (decoded g.asked (d.resolve T ecu h.frame g.before).2).scrub =
        (decoded h.asked (d.resolve T ecu h.frame h.before).2).scrub := by
      refine (congrArg (decoded · (d.resolve T ecu h.frame g.before).2.scrub) alike.asked).trans ?_
      rw [scrub]
      rfl
    by_cases takes : d.Takes T h.frame g.before
    · have taken : Taken d h.frame g.before (d.resolve T ecu h.frame g.before) := Decoder.taken takes
      refine ⟨same, ?_, fun _ => Decoder.resolve_ema alike.before takes, fun _ yc1000 => ?_⟩
      · exact fun none => absurd (none.symm.trans taken.dataflag) Nat.zero_ne_one
      · obtain rfl : d = .yc1000 := (Heard.yc1000_iff decoder).1 (taken.model ▸ yc1000)
        exact Decoder.resolve_phases alike.before takes
    · have rejected : Rejected g.before (d.resolve T ecu h.frame g.before) := Decoder.rejected takes
      exact alike_of_scrub same rejected.dataflag ((rejected_sendFlag takes).trans silent)

/-- The step for the data: both are asked, and both answer or none. -/
theorem dataStep_alike (scrub : x.scrub = y.scrub) (dataflag : x.dataflag = 0) (silent : x.statusSendFlag = 0)
    (a : Answers) :
    Alike (dataStep T ecu a x).1 (dataStep T ecu a y).1 ∧ (dataStep T ecu a x).2 = (dataStep T ecu a y).2 := by
  have model : x.model = y.model := congrArg (·.model) scrub
  unfold dataStep
  rw [model]
  by_cases known : y.model ≠ 0
  · rw [if_pos known, if_pos known, zbQueryData_accepted, zbQueryData_accepted, accepted_scrub scrub]
    cases accepted y a.data with
    | none =>
      exact ⟨alike_of_scrub (congrArg (fun z : InverterInfo => { z with dataflag := 0 }) scrub) rfl silent, rfl⟩
    | some data => exact ⟨resolveData_alike (g := ⟨x, data⟩) (h := ⟨y, data⟩) ⟨rfl, scrub⟩ silent, rfl⟩
  · rw [if_neg known, if_neg known]
    exact ⟨alike_of_scrub scrub dataflag silent, rfl⟩

theorem prepared_sendFlag (a : Answers) (x : InverterInfo) : (prepared a x).statusSendFlag = x.statusSendFlag := by
  have bound : (bindStep a x).1.statusSendFlag = x.statusSendFlag := by
    unfold bindStep
    split_ifs <;> rfl
  rw [← bound, prepared]
  generalize (bindStep a x).1 = z
  unfold modelStep zbQueryInverterInfo
  split_ifs
  · cases zbGetReply z a.info with
    | none => rfl
    | some recv =>
      dsimp only
      split_ifs <;> rfl
  · rfl

/-- A visit leaves the two alike, and asks for another pass in both runs or in none. -/
theorem visit_alike (alike : Alike x y) (a : Answers) :
    Alike (visit T ecu false a x).1 (visit T ecu false a y).1 ∧
      (visit T ecu false a x).2 = (visit T ecu false a y).2 := by
  have dataflag : x.dataflag = y.dataflag := congrArg (·.dataflag) alike.scrub
  have shortaddr : x.shortaddr = y.shortaddr := congrArg (·.shortaddr) alike.scrub
  unfold visit
  rw [if_neg Bool.false_ne_true, if_neg Bool.false_ne_true]
  dsimp only
  rw [← dataflag, ← shortaddr]
  by_cases asks : x.dataflag = 0 ∧ x.shortaddr ≠ 0
  · rw [if_pos asks, if_pos asks]
    have bound := bindStep_scrub alike.scrub a
    have modelled := modelStep_scrub bound.1 a
    have asked := @dataStep_alike T ecu _ _ modelled.1 ((prepared_kept a x).2.trans asks.1)
      ((prepared_sendFlag a x).trans (alike.silent asks.1)) a
    refine ⟨asked.1, ?_⟩
    rw [bound.2, modelled.2, asked.2]
  · rw [if_neg asks, if_neg asks]
    exact ⟨alike, rfl⟩

theorem hears_alike (scrub : x.scrub = y.scrub) (a : Answers) :
    takenIn T (hears a x).toList = takenIn T (hears a y).toList := by
  have asked := prepared_scrub scrub a
  have dataflag : x.dataflag = y.dataflag := congrArg (·.dataflag) scrub
  have shortaddr : x.shortaddr = y.shortaddr := congrArg (·.shortaddr) scrub
  have model : (prepared a x).model = (prepared a y).model := congrArg (·.model) asked
  unfold hears
  rw [dataflag, shortaddr, model, accepted_scrub asked]
  split_ifs
  · cases accepted (prepared a y) a.data with
    | none => rfl
    | some data =>
      have heard : HeardAlike ⟨prepared a x, data⟩ ⟨prepared a y, data⟩ := ⟨rfl, asked⟩
      unfold takenIn
      rw [Option.map_some, Option.map_some, Option.toList_some, Option.toList_some, List.findSome?_singleton,
        List.findSome?_singleton, heard.decoder, heard.frame]
      congr 1
      funext d
      rw [if_congr (Decoder.takes_scrub heard.before) rfl rfl]
  · rfl

theorem takenIn_append (log rest : List Heard) : takenIn T (log ++ rest) = (takenIn T log).or (takenIn T rest) :=
  List.findSome?_append

/-- The visits leave the two alike, and take the same frame. -/
theorem visits_alike (answers : Nat → Answers) (n j : Nat) (alike : Alike x y) :
    Alike (visits T ecu answers n j x) (visits T ecu answers n j y) ∧
      takenIn T (heardIn T ecu answers n j x) = takenIn T (heardIn T ecu answers n j y) := by
  induction n generalizing j x y with
  | zero => exact ⟨alike, rfl⟩
  | succ n ih =>
    have visited := @visit_alike T ecu _ _ alike (answers j)
    have rest := ih (j + 1) visited.1
    rw [heardIn, heardIn, takenIn_append, takenIn_append, hears_alike alike.scrub, rest.2]
    exact ⟨rest.1, rfl⟩

end Visit

/-! ## A round -/

section Rounds

variable {T : Target}

/-- A pass in which each visit leaves its two entries related, and both or none ask for another. -/
theorem mapIdx_alike {R S : InverterInfo → InverterInfo → Prop} {f : Nat → InverterInfo → InverterInfo × Bool}
    {X Y : List InverterInfo} (step : ∀ i x y, R x y → S (f i x).1 (f i y).1 ∧ (f i x).2 = (f i y).2)
    (related : List.Forall₂ R X Y) :
    List.Forall₂ S ((X.mapIdx f).map Prod.fst) ((Y.mapIdx f).map Prod.fst) ∧
      (X.mapIdx f).any Prod.snd = (Y.mapIdx f).any Prod.snd := by
  induction related generalizing f with
  | nil => exact ⟨.nil, rfl⟩
  | cons first _ ih =>
    have rest := ih (f := fun i => f (i + 1)) fun i => step (i + 1)
    obtain ⟨kept, same⟩ := step 0 _ _ first
    simp only [List.mapIdx_cons, List.map_cons, List.any_cons]
    exact ⟨.cons kept rest.1, by rw [same, rest.2]⟩

theorem passes_alike (ecu : EcuInfo) (answers : Nat → Nat → Answers) (n j : Nat) {X Y : List InverterInfo}
    (alike : List.Forall₂ Alike X Y) :
    List.Forall₂ Alike (passes T ecu answers n (j + 1) X) (passes T ecu answers n (j + 1) Y) ∧
      passCount T ecu answers n (j + 1) X = passCount T ecu answers n (j + 1) Y := by
  induction n generalizing j X Y with
  | zero => exact ⟨alike, rfl⟩
  | succ n ih =>
    have passed : List.Forall₂ Alike ((pass T ecu answers (j + 1) X).map Prod.fst)
          ((pass T ecu answers (j + 1) Y).map Prod.fst) ∧
        (pass T ecu answers (j + 1) X).any Prod.snd = (pass T ecu answers (j + 1) Y).any Prod.snd :=
      mapIdx_alike (fun i x y same => visit_alike same (answers (j + 1) i)) alike
    have rest := ih (j + 1) passed.1
    rw [passes, passes, passCount, passCount, passed.2, rest.2]
    refine ⟨?_, rfl⟩
    split_ifs
    · exact rest.1
    · exact passed.1

/-- Before a round: alike when the first pass has cleared them. -/
def Start (x y : InverterInfo) : Prop :=
  (clearRound x).scrub = (clearRound y).scrub

theorem Start.alike {x y : InverterInfo} (start : Start x y) : Alike (clearRound x) (clearRound y) :=
  alike_of_scrub start rfl rfl

theorem countMissing_alike {x y : InverterInfo} (alike : Alike x y) : Alike (countMissing x) (countMissing y) := by
  have dataflag : x.dataflag = y.dataflag := congrArg (·.dataflag) alike.scrub
  have number : x.noGetdataNum = y.noGetdataNum := congrArg (·.noGetdataNum) alike.scrub
  unfold countMissing
  rw [← dataflag, ← number]
  split_ifs
  · exact ⟨congrArg (fun z : InverterInfo => { z with noGetdataNum := min (x.noGetdataNum + 1) 254 }) alike.scrub,
      alike.silent, alike.ema, alike.phases⟩
  · exact alike

theorem passes_start (ecu : EcuInfo) (answers : Nat → Nat → Answers) (n : Nat) {X Y : List InverterInfo}
    (start : List.Forall₂ Start X Y) :
    List.Forall₂ Alike (passes T ecu answers (n + 1) 0 X) (passes T ecu answers (n + 1) 0 Y) ∧
      passCount T ecu answers (n + 1) 0 X = passCount T ecu answers (n + 1) 0 Y := by
  have first : List.Forall₂ Alike ((pass T ecu answers 0 X).map Prod.fst) ((pass T ecu answers 0 Y).map Prod.fst) ∧
      (pass T ecu answers 0 X).any Prod.snd = (pass T ecu answers 0 Y).any Prod.snd :=
    mapIdx_alike (fun i x y same => visit_alike (Start.alike same) (answers 0 i)) start
  have rest := passes_alike (T := T) ecu answers n 0 first.1
  rw [passes, passes, passCount, passCount, first.2, rest.2]
  refine ⟨?_, rfl⟩
  split_ifs
  · exact rest.1
  · exact first.1

/-- The inverters of the two tables after a round, and the frames that were taken from them. -/
theorem pollRound_alike (round : Round) {X Y : List InverterInfo} (start : List.Forall₂ Start X Y) :
    List.Forall₂ Alike (pollRound T round.ecu round.answers X) (pollRound T round.ecu round.answers Y) ∧
      ∀ i, takenBy T round X i = takenBy T round Y i := by
  obtain ⟨passed, count⟩ := passes_start (T := T) round.ecu round.answers 4 start
  constructor
  · unfold pollRound
    rw [List.forall₂_map_left_iff, List.forall₂_map_right_iff]
    exact passed.imp fun x y => countMissing_alike
  · intro i
    unfold takenBy heardBy
    rw [count]
    have lengths := start.length_eq
    obtain inside | outside := Nat.lt_or_ge i X.length
    · have same : Start X[i] Y[i] := (List.forall₂_iff_get.1 start).2 i inside (lengths ▸ inside)
      rw [List.getElem?_eq_getElem inside, List.getElem?_eq_getElem (lengths ▸ inside)]
      exact (visits_alike (fun j => round.answers j i) _ 0 same.alike).2
    · rw [List.getElem?_eq_none outside, List.getElem?_eq_none (lengths ▸ outside)]

end Rounds

end Poll

end Ecu
