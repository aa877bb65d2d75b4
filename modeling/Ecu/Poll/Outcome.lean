import Ecu.Poll.Decoder
import Ecu.Poll.Round

/-!
# What a round does to an inverter

Each inverter sees a round of its own: it is visited as often as there are passes, until a frame of it is taken. The
frames that it was heard with are the round's log. At the end it has missed the round, or the last frame is of a kind
that no decoder takes, or it is decoded; every frame before was rejected (`Outcome`).
-/

namespace Ecu.Poll

/-- A frame that `zb_query_data` accepts, and the inverter when it was asked. -/
structure Heard where
  asked : InverterInfo
  data : List Byte
deriving DecidableEq

namespace Heard

/-- The data that the resolve functions are given. -/
def frame (h : Heard) : Frame :=
  h.data.drop 4

/-- The inverter that the resolve functions are given. -/
def before (h : Heard) : Inverter :=
  { h.asked.toInverter with dataflag := 1 }

def decoder (h : Heard) : Option Decoder :=
  decoderOf h.asked.model h.data

end Heard

theorem not_isYc1000_zero : ¬ IsYc1000 0 := by
  decide

/-- What an inverter keeps until a frame of it is taken. -/
structure Kept (x y : InverterInfo) : Prop where
  memory : y.memory = x.memory
  shortaddr : y.shortaddr = x.shortaddr
  model : x.model ≠ 0 → y.model = x.model
  third : ¬ IsYc1000 y.model → y.third = x.third

theorem Kept.refl (x : InverterInfo) : Kept x x :=
  ⟨rfl, rfl, fun _ => rfl, fun _ => rfl⟩

theorem Kept.trans {x y z : InverterInfo} (first : Kept x y) (second : Kept y z) : Kept x z where
  memory := second.memory.trans first.memory
  shortaddr := second.shortaddr.trans first.shortaddr
  model known := by
    have same := first.model known
    rw [second.model (same ▸ known), same]
  third two := by
    have before : ¬ IsYc1000 y.model := by
      by_cases known : y.model = 0
      · rw [known]
        exact not_isYc1000_zero
      · rwa [← second.model known]
    rw [second.third two, first.third before]

section Visits

variable (T : Target) (ecu : EcuInfo)

/-! ## A query -/

/-- The frame that `zb_query_data` accepts. -/
def accepted (x : InverterInfo) (reply : Option (List Byte)) : Option (List Byte) :=
  (zbGetReply x reply).filter fun data => Enveloped data ∧ Checked data

theorem accepted_some {x : InverterInfo} {reply : Option (List Byte)} {data : List Byte}
    (taken : accepted x reply = some data) :
    ∃ dataAll, reply = some dataAll ∧ FromInverter x dataAll ∧ dataAll.drop 12 = data ∧ Enveloped data ∧
      Checked data := by
  obtain ⟨got, fine⟩ := Option.filter_eq_some_iff.1 taken
  have shape : Enveloped data ∧ Checked data := by simpa using fine
  unfold zbGetReply at got
  cases reply with
  | none => exact absurd got nofun
  | some dataAll =>
    dsimp only at got
    split at got
    · rename_i sender
      exact ⟨dataAll, rfl, sender, Option.some_inj.1 got, shape⟩
    · exact absurd got nofun

theorem zbQueryData_accepted (x : InverterInfo) (reply : Option (List Byte)) :
    zbQueryData T ecu x reply =
      match accepted x reply with
      | none => (-1, { x with dataflag := 0 })
      | some data => (1, resolveData T ecu x data) := by
  unfold zbQueryData accepted
  cases zbGetReply x reply with
  | none => rfl
  | some data =>
    by_cases fine : Enveloped data ∧ Checked data
    · rw [Option.filter_some, if_pos (by simpa using fine)]
      exact if_pos fine
    · rw [Option.filter_some, if_neg (by simpa using fine)]
      exact if_neg fine

/-- A frame of an unknown kind changes nothing but the flags. -/
theorem resolveData_unknown {h : Heard} (unknown : h.decoder = none) :
    resolveData T ecu h.asked h.data = { h.asked with noGetdataNum := 0, dataflag := 1 } := by
  unfold Heard.decoder decoderOf at unknown
  unfold resolveData
  dsimp only
  split_ifs at unknown with seven old new yc1000
  · rw [if_pos seven, if_neg old, if_neg new]
  · have other := not_or.1 yc1000
    rw [if_neg seven, if_neg other.1, if_neg other.2]

theorem resolveData_known {h : Heard} {d : Decoder} (known : h.decoder = some d) :
    resolveData T ecu h.asked h.data =
      { h.asked with
        noGetdataNum := 0, deputyModel := d.deputy.getD h.asked.deputyModel
        toInverter := (d.resolve T ecu h.frame h.before).2 } := by
  unfold Heard.decoder decoderOf at known
  unfold resolveData
  dsimp only
  split_ifs at known with seven old new yc1000
  · cases known
    rw [if_pos seven, if_pos old]
    rfl
  · cases known
    rw [if_pos seven, if_neg old, if_pos new]
    rfl
  · cases known
    rw [if_neg seven]
    rcases yc1000 with five | six
    · rw [if_pos five]
      rfl
    · rw [if_neg (by omega), if_pos six]
      rfl

theorem resolveData_decoded {h : Heard} {d : Decoder} (known : h.decoder = some d) :
    ∃ deputy, resolveData T ecu h.asked h.data =
      { h.asked with
        noGetdataNum := 0, deputyModel := deputy, toInverter := (d.resolve T ecu h.frame h.before).2 } :=
  ⟨_, resolveData_known T ecu known⟩

/-! ## A visit -/

/-- The inverter when it is asked for its data: after the steps for its binding and its model. -/
def prepared (a : Answers) (x : InverterInfo) : InverterInfo :=
  (modelStep a (bindStep a x).1).1

/-- The frame that a visit takes in. -/
def hears (a : Answers) (x : InverterInfo) : Option Heard :=
  if (x.dataflag = 0 ∧ x.shortaddr ≠ 0) ∧ (prepared a x).model ≠ 0 then
    (accepted (prepared a x) a.data).map (Heard.mk (prepared a x))
  else none

theorem bindStep_kept (a : Answers) (x : InverterInfo) :
    Kept x (bindStep a x).1 ∧ (bindStep a x).1.dataflag = x.dataflag := by
  unfold bindStep
  split_ifs
  · exact ⟨⟨rfl, rfl, fun _ => rfl, fun _ => rfl⟩, rfl⟩
  · exact ⟨Kept.refl x, rfl⟩
  · exact ⟨Kept.refl x, rfl⟩

theorem modelStep_kept (a : Answers) (x : InverterInfo) :
    Kept x (modelStep a x).1 ∧ (modelStep a x).1.dataflag = x.dataflag := by
  unfold modelStep
  split_ifs with unknown
  · unfold zbQueryInverterInfo
    cases zbGetReply x a.info with
    | none => exact ⟨Kept.refl x, rfl⟩
    | some recv =>
      dsimp only
      split_ifs
      · exact ⟨⟨rfl, rfl, absurd unknown, fun _ => rfl⟩, rfl⟩
      · exact ⟨Kept.refl x, rfl⟩
  · exact ⟨Kept.refl x, rfl⟩

theorem prepared_kept (a : Answers) (x : InverterInfo) :
    Kept x (prepared a x) ∧ (prepared a x).dataflag = x.dataflag := by
  have bound := bindStep_kept a x
  have modelled := modelStep_kept a (bindStep a x).1
  exact ⟨bound.1.trans modelled.1, modelled.2.trans bound.2⟩

theorem visit_heard {a : Answers} {x : InverterInfo} {h : Heard} (heard : hears a x = some h) :
    (visit T ecu false a x).1 = resolveData T ecu h.asked h.data ∧ h.asked = prepared a x ∧ x.dataflag = 0 ∧
      accepted h.asked a.data = some h.data := by
  unfold hears at heard
  split_ifs at heard with asks
  obtain ⟨data, taken, rfl⟩ := Option.map_eq_some_iff.1 heard
  refine ⟨?_, rfl, asks.1.1, taken⟩
  rw [visit, if_neg Bool.false_ne_true, if_pos asks.1]
  change (dataStep T ecu a (prepared a x)).1 = _
  rw [dataStep, if_pos asks.2, zbQueryData_accepted, taken]

/-- Without a frame nothing is kept but what is kept anyway, and there is no data. -/
theorem visit_silent {a : Answers} {x : InverterInfo} (silent : hears a x = none) (cleared : x.dataflag = 0) :
    Kept x (visit T ecu false a x).1 ∧ (visit T ecu false a x).1.dataflag = 0 := by
  unfold hears at silent
  rw [visit, if_neg Bool.false_ne_true]
  dsimp only
  by_cases asks : x.dataflag = 0 ∧ x.shortaddr ≠ 0
  · rw [if_pos asks]
    change Kept x (dataStep T ecu a (prepared a x)).1 ∧ (dataStep T ecu a (prepared a x)).1.dataflag = 0
    have kept := prepared_kept a x
    rw [dataStep]
    by_cases known : (prepared a x).model ≠ 0
    · rw [if_pos ⟨asks, known⟩, Option.map_eq_none_iff] at silent
      rw [if_pos known, zbQueryData_accepted, silent]
      exact ⟨kept.1.trans ⟨rfl, rfl, fun _ => rfl, fun _ => rfl⟩, rfl⟩
    · rw [if_neg known]
      exact ⟨kept.1, kept.2.trans cleared⟩
  · rw [if_neg asks]
    exact ⟨Kept.refl x, cleared⟩

/-- An inverter with data is left alone. -/
theorem visit_answered {a : Answers} {x : InverterInfo} (answered : x.dataflag ≠ 0) :
    visit T ecu false a x = (x, false) ∧ hears a x = none := by
  constructor
  · rw [visit, if_neg Bool.false_ne_true]
    exact if_neg fun asks => answered asks.1
  · exact if_neg fun asks => answered asks.1.1

/-! ## A round -/

/-- The inverter after `n` visits, from pass `j` on. -/
def visits (answers : Nat → Answers) : Nat → Nat → InverterInfo → InverterInfo
  | 0, _, x => x
  | n + 1, j, x => visits answers n (j + 1) (visit T ecu false (answers j) x).1

/-- The frames of these visits. -/
def heardIn (answers : Nat → Answers) : Nat → Nat → InverterInfo → List Heard
  | 0, _, _ => []
  | n + 1, j, x => (hears (answers j) x).toList ++ heardIn answers n (j + 1) (visit T ecu false (answers j) x).1

/-- The number of passes that a round makes. -/
def passCount (answers : Nat → Nat → Answers) : Nat → Nat → List InverterInfo → Nat
  | 0, _, _ => 0
  | n + 1, j, table =>
    let out := pass T ecu answers j table
    if out.any Prod.snd then passCount answers n (j + 1) (out.map Prod.fst) + 1 else 1

theorem passCount_le (answers : Nat → Nat → Answers) (n j : Nat) (table : List InverterInfo) :
    passCount T ecu answers n j table ≤ n := by
  induction n generalizing j table with
  | zero => exact Nat.le_refl 0
  | succ n ih =>
    rw [passCount]
    split_ifs with more
    · exact Nat.succ_le_succ (ih _ _)
    · exact Nat.succ_le_succ (Nat.zero_le n)

theorem pass_getElem? (answers : Nat → Nat → Answers) (j : Nat) (table : List InverterInfo) (i : Nat) :
    ((pass T ecu answers j table).map Prod.fst)[i]? =
      table[i]?.map fun x => (visit T ecu (j = 0) (answers j i) x).1 := by
  rw [pass, List.getElem?_map, List.getElem?_mapIdx, Option.map_map]
  rfl

theorem passes_later (answers : Nat → Nat → Answers) (n j : Nat) (table : List InverterInfo) (i : Nat) :
    (passes T ecu answers n (j + 1) table)[i]? =
      table[i]?.map
        (visits T ecu (fun j => answers j i) (passCount T ecu answers n (j + 1) table) (j + 1)) := by
  induction n generalizing j table with
  | zero => exact (congrFun Option.map_id _).symm
  | succ n ih =>
    rw [passes, passCount]
    by_cases more : (pass T ecu answers (j + 1) table).any Prod.snd
    · rw [if_pos more, if_pos more, ih, pass_getElem?, Option.map_map]
      rfl
    · rw [if_neg more, if_neg more, pass_getElem?]
      rfl

/-- What the round of the table is for one of its inverters. -/
theorem pollRound_getElem? (answers : Nat → Nat → Answers) (table : List InverterInfo) (i : Nat) :
    (pollRound T ecu answers table)[i]? =
      table[i]?.map fun x =>
        countMissing
          (visits T ecu (fun j => answers j i) (passCount T ecu answers 5 0 table) 0 (clearRound x)) := by
  rw [pollRound, List.getElem?_map, passes, passCount]
  by_cases more : (pass T ecu answers 0 table).any Prod.snd
  · rw [if_pos more, if_pos more, passes_later, pass_getElem?, Option.map_map, Option.map_map]
    rfl
  · rw [if_neg more, if_neg more, pass_getElem?, Option.map_map]
    rfl

end Visits

/-! ## Outcomes -/

/-- A frame that its decoder rejects. -/
def Heard.Refused (T : Target) (h : Heard) : Prop :=
  ∃ d, h.decoder = some d ∧ ¬ d.Takes T h.frame h.before

theorem Heard.yc1000_iff {h : Heard} {d : Decoder} (known : h.decoder = some d) :
    IsYc1000 h.asked.model ↔ d = .yc1000 := by
  unfold Heard.decoder decoderOf at known
  split_ifs at known with seven old new yc1000
  · cases known
    rw [seven]
    decide
  · cases known
    rw [seven]
    decide
  · cases known
    exact iff_of_true yc1000 rfl

/-- Only a YC1000 rejects. -/
theorem refused_yc1000 {T : Target} {h : Heard} (refused : h.Refused T) : IsYc1000 h.asked.model := by
  obtain ⟨d, known, takes⟩ := refused
  rw [Heard.yc1000_iff known]
  cases d with
  | yc600 => exact absurd trivial takes
  | yc600New => exact absurd trivial takes
  | yc1000 => rfl

/-- What a round makes of an inverter, by the frames it was heard with. -/
inductive Outcome (T : Target) (ecu : EcuInfo) (x : InverterInfo) : List Heard → InverterInfo → Prop
  | missed {log : List Heard} {y : InverterInfo} (refused : ∀ h ∈ log, h.Refused T) (kept : Kept x y)
      (dataflag : y.dataflag = 0) : Outcome T ecu x log y
  | unknown {log : List Heard} {h : Heard} (refused : ∀ h ∈ log, h.Refused T) (kept : Kept x h.asked)
      (unknown : h.decoder = none) :
      Outcome T ecu x (log ++ [h]) { h.asked with noGetdataNum := 0, dataflag := 1 }
  | decoded {log : List Heard} {h : Heard} {d : Decoder} (deputy : Nat) (refused : ∀ h ∈ log, h.Refused T)
      (kept : Kept x h.asked) (known : h.decoder = some d) (takes : d.Takes T h.frame h.before) :
      Outcome T ecu x (log ++ [h])
        { h.asked with
          noGetdataNum := 0, deputyModel := deputy, toInverter := (d.resolve T ecu h.frame h.before).2 }

section Outcomes

variable {T : Target} {ecu : EcuInfo}

theorem Outcome.trans {x y z : InverterInfo} {log : List Heard} (kept : Kept x y) (outcome : Outcome T ecu y log z) :
    Outcome T ecu x log z := by
  cases outcome with
  | missed refused same dataflag => exact .missed refused (kept.trans same) dataflag
  | unknown refused same unknown => exact .unknown refused (kept.trans same) unknown
  | decoded deputy refused same known takes => exact .decoded deputy refused (kept.trans same) known takes

/-- A rejected frame comes before the rest of the round. -/
theorem Outcome.cons {x y : InverterInfo} {log : List Heard} {h : Heard} (first : h.Refused T)
    (outcome : Outcome T ecu x log y) : Outcome T ecu x (h :: log) y := by
  cases outcome with
  | missed refused same dataflag => exact .missed (List.forall_mem_cons.2 ⟨first, refused⟩) same dataflag
  | @unknown log _ refused same unknown =>
    rw [← List.cons_append]
    exact .unknown (List.forall_mem_cons.2 ⟨first, refused⟩) same unknown
  | @decoded log _ _ deputy refused same known takes =>
    rw [← List.cons_append]
    exact .decoded deputy (List.forall_mem_cons.2 ⟨first, refused⟩) same known takes

theorem visits_answered {answers : Nat → Answers} {x : InverterInfo} (answered : x.dataflag ≠ 0) (n j : Nat) :
    visits T ecu answers n j x = x ∧ heardIn T ecu answers n j x = [] := by
  induction n generalizing j with
  | zero => exact ⟨rfl, rfl⟩
  | succ n ih =>
    have alone := visit_answered T ecu (a := answers j) answered
    rw [visits, heardIn, alone.1, alone.2]
    exact ih (j + 1)

/-- The visits of an inverter without data make a round of it. The induction is on the passes that are left: a
rejected frame leaves the inverter as it would be without one. -/
theorem visits_outcome (answers : Nat → Answers) (n j : Nat) {x : InverterInfo} (cleared : x.dataflag = 0) :
    Outcome T ecu x (heardIn T ecu answers n j x) (visits T ecu answers n j x) := by
  induction n generalizing j x with
  | zero => exact .missed (fun _ mem => absurd mem List.not_mem_nil) (Kept.refl x) cleared
  | succ n ih =>
    rw [visits, heardIn]
    cases heard : hears (answers j) x with
    | none =>
      have silent := visit_silent T ecu heard cleared
      exact (ih (j + 1) silent.2).trans silent.1
    | some h =>
      obtain ⟨after, asked, -, -⟩ := visit_heard T ecu heard
      have kept : Kept x h.asked := asked ▸ (prepared_kept (answers j) x).1
      have noLog : ∀ g ∈ ([] : List Heard), g.Refused T := fun _ mem => absurd mem List.not_mem_nil
      have alone (y : InverterInfo) (answered : y.dataflag ≠ 0) :
          visits T ecu answers n (j + 1) y = y ∧ heardIn T ecu answers n (j + 1) y = [] :=
        visits_answered answered n (j + 1)
      rw [after, Option.toList_some]
      cases known : h.decoder with
      | none =>
        rw [resolveData_unknown T ecu known, (alone _ Nat.one_ne_zero).1, (alone _ Nat.one_ne_zero).2]
        have unknown : Outcome T ecu x ([] ++ [h]) _ := .unknown noLog kept known
        exact unknown
      | some d =>
        obtain ⟨deputy, resolved⟩ := resolveData_decoded T ecu known
        rw [resolved]
        by_cases takes : d.Takes T h.frame h.before
        · have taken : Taken d h.frame h.before (d.resolve T ecu h.frame h.before) := Decoder.taken takes
          have answered : (d.resolve T ecu h.frame h.before).2.dataflag ≠ 0 := by
            rw [taken.dataflag]
            exact Nat.one_ne_zero
          have decoded : Outcome T ecu x ([] ++ [h]) _ := .decoded deputy noLog kept known takes
          rw [(alone _ answered).1, (alone _ answered).2]
          exact decoded
        · have rejected : Rejected h.before (d.resolve T ecu h.frame h.before) := Decoder.rejected takes
          have yc1000 := refused_yc1000 ⟨d, known, takes⟩
          refine Outcome.cons ⟨d, known, takes⟩ (Outcome.trans (kept.trans ?_) (ih (j + 1) rejected.dataflag))
          exact ⟨rejected.memory, rfl, fun _ => rejected.model, fun two => absurd (rejected.model ▸ yc1000) two⟩

/-- Each frame of the log was read in one of the passes. -/
theorem heardIn_received {answers : Nat → Answers} {n j : Nat} {x : InverterInfo} {h : Heard}
    (mem : h ∈ heardIn T ecu answers n j x) :
    ∃ k, k < j + n ∧ accepted h.asked (answers k).data = some h.data := by
  induction n generalizing j x with
  | zero => exact absurd mem List.not_mem_nil
  | succ n ih =>
    rcases List.mem_append.1 mem with now | later
    · have heard := visit_heard T ecu (Option.mem_toList.1 now)
      exact ⟨j, by omega, heard.2.2.2⟩
    · obtain ⟨k, inside, taken⟩ := ih later
      exact ⟨k, by omega, taken⟩

end Outcomes

end Ecu.Poll
