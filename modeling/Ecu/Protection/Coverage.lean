import Ecu.Protection.Broadcast

/-!
# Which families a broadcast reaches

A row is cleared whether or not something was broadcast for it. `covered_iff` says for which plants and which
parameters every family that is present has got its frames.
-/

namespace Ecu.Protection

open Param Poll

section Plant

variable (inverters : List InverterInfo)

/-- There is a YC600. -/
def Has600 : Prop :=
  ∃ x ∈ registered inverters, x.model = 7

/-- There is a YC1000. -/
def Has1000 : Prop :=
  ∃ x ∈ registered inverters, x.model = 5 ∨ x.model = 6

def HasDeputy (deputyModel : Nat) : Prop :=
  ∃ x ∈ registered inverters, x.model = 7 ∧ x.deputyModel = deputyModel

/-- A single deputy model is known among the YC600. -/
def OneDeputy : Prop :=
  HasDeputy inverters 1 ∧ ¬ HasDeputy inverters 2 ∨ ¬ HasDeputy inverters 1 ∧ HasDeputy inverters 2

theorem count_pos (kind : InverterInfo → Bool) :
    count inverters kind > 0 ↔ ∃ x ∈ registered inverters, kind x = true :=
  List.countP_pos_iff

variable {inverters}

theorem counts :
    (count inverters (fun x => x.model = 7) > 0 ↔ Has600 inverters) ∧
      (count inverters (fun x => x.model = 5 ∨ x.model = 6) > 0 ↔ Has1000 inverters) ∧
      ∀ d, count inverters (fun x => x.model = 7 ∧ x.deputyModel = d) > 0 ↔ HasDeputy inverters d := by
  simp [count_pos, Has600, Has1000, HasDeputy]

theorem plant_mixed (has600 : Has600 inverters) (has1000 : Has1000 inverters) : plant inverters = {} := by
  have m600 := counts.1.2 has600
  have m1000 := counts.2.1.2 has1000
  unfold plant getSystemModel
  dsimp only
  rw [if_neg fun both => m1000.ne' both.2, if_neg fun both => m600.ne' both.2, if_pos ⟨m1000, m600⟩]
  split_ifs
  · rfl
  · rfl

theorem plant_none (no600 : ¬ Has600 inverters) (no1000 : ¬ Has1000 inverters) : plant inverters = {} := by
  have m600 := mt counts.1.1 no600
  have m1000 := mt counts.2.1.1 no1000
  unfold plant getSystemModel
  dsimp only
  rw [if_neg fun both => m600 both.1, if_neg fun both => m1000 both.1, if_neg fun both => m1000 both.1]
  split_ifs
  · rfl
  · rfl

theorem plant_1000 (no600 : ¬ Has600 inverters) (has1000 : Has1000 inverters) :
    plant inverters = { yc1000 := true } := by
  have m600 := mt counts.1.1 no600
  have m1000 := counts.2.1.2 has1000
  unfold plant getSystemModel
  dsimp only
  rw [if_neg fun both => m600 both.1, if_pos ⟨m1000, Nat.eq_zero_of_not_pos m600⟩]
  split_ifs
  · rfl
  · rfl

/-- In a plant of YC600 the deputy models decide. -/
theorem plant_600 (has600 : Has600 inverters) (no1000 : ¬ Has1000 inverters) :
    ∃ d, plant inverters = { yc600 := true, bbOrB1 := d } ∧ ((d = 1 ∨ d = 2) ↔ OneDeputy inverters) := by
  obtain ⟨some600, some1000, deputy⟩ := @counts inverters
  have m600 := some600.2 has600
  have m1000 := Nat.eq_zero_of_not_pos (mt some1000.1 no1000)
  unfold plant getSystemModel
  dsimp only
  rw [if_pos ⟨m600, m1000⟩]
  by_cases bb : HasDeputy inverters 1
  · have someBb := (deputy 1).2 bb
    by_cases b1 : HasDeputy inverters 2
    · have someB1 := (deputy 2).2 b1
      refine ⟨9, ?_, by simp [OneDeputy, bb, b1]⟩
      rw [if_neg fun both => someB1.ne' both.2, if_neg fun both => someBb.ne' both.1, if_pos ⟨someBb, someB1⟩]
      split_ifs <;> rfl
    · have noB1 := Nat.eq_zero_of_not_pos (mt (deputy 2).1 b1)
      refine ⟨1, ?_, by simp [OneDeputy, bb, b1]⟩
      rw [if_pos ⟨someBb, noB1⟩]
      split_ifs <;> rfl
  · have noBb := Nat.eq_zero_of_not_pos (mt (deputy 1).1 bb)
    by_cases b1 : HasDeputy inverters 2
    · have someB1 := (deputy 2).2 b1
      refine ⟨2, ?_, by simp [OneDeputy, bb, b1]⟩
      rw [if_neg fun both => both.1.ne' noBb, if_pos ⟨noBb, someB1⟩]
      split_ifs <;> rfl
    · have noB1 := Nat.eq_zero_of_not_pos (mt (deputy 2).1 b1)
      refine ⟨0, ?_, by simp [OneDeputy, bb, b1]⟩
      rw [if_neg fun both => both.1.ne' noBb, if_neg fun both => both.2.ne' noB1, if_neg fun both => both.1.ne' noBb]
      split_ifs <;> rfl

end Plant

/-! ## What a family gets -/

section Frames

variable (T : Target) (value file : List Byte)

/-- The frames for a YC600 with this deputy model: what a plant of these alone is sent. -/
def frames600 (deputyModel : Nat) (p : Param) : List (List Byte) :=
  branchAll T { yc600 := true, bbOrB1 := deputyModel } value file p

/-- The frames for a YC1000. It has none for the power factor. -/
def frames1000 (p : Param) : List (List Byte) :=
  if p = powerFactor then [] else branchAll T { yc1000 := true } value file p

end Frames

def IsVoltage (p : Param) : Prop :=
  p = underVoltageFast ∨ p = overVoltageFast ∨ p = underVoltageStage2 ∨ p = overVoltageSlow ∨ p = underVoltageSlow

/-- All of the frames of a family, of which there are some, have been sent. -/
def Sent (frames sent : List (List Byte)) : Prop :=
  frames ≠ [] ∧ ∀ sendbuff ∈ frames, sendbuff ∈ sent

/-- Every family that is present has got its frames of the row. -/
def Covered (T : Target) (inverters : List InverterInfo) (turn : Turn) : Prop :=
  (Has600 inverters → ∃ p d, ofName turn.paraName = some p ∧ Sent (frames600 T turn.value turn.file d p) turn.sent) ∧
    (Has1000 inverters → ∃ p, ofName turn.paraName = some p ∧ Sent (frames1000 T turn.value turn.file p) turn.sent)

/-- Where the broadcast reaches every family. -/
def Reaches (inverters : List InverterInfo) (paraName : List Byte) : Prop :=
  (Has600 inverters ∨ Has1000 inverters) → ∃ p, ofName paraName = some p ∧
    ¬ (Has600 inverters ∧ Has1000 inverters) ∧
    (Has600 inverters → IsVoltage p → OneDeputy inverters) ∧ (Has1000 inverters → p ≠ powerFactor)

/-! ## The law -/

section Frames

variable (T : Target) (value file : List Byte)

theorem branchAll_none {p : Param} (other : p ≠ powerFactor) : branchAll T {} value file p = [] := by
  cases p
  case powerFactor => exact absurd rfl other
  all_goals rfl

theorem frames1000_ne_nil {p : Param} (known : p ≠ relayProtect) :
    frames1000 T value file p ≠ [] ↔ p ≠ powerFactor := by
  unfold frames1000
  split_ifs with power
  · exact ⟨fun some => absurd rfl some, fun other => absurd power other⟩
  · refine ⟨fun _ => power, fun _ => ?_⟩
    cases p
    case relayProtect => exact absurd rfl known
    all_goals exact List.cons_ne_nil _ _

theorem voltage600_ne_nil (order : Byte) (yc1000 : List (List Byte)) (d : Nat) :
    voltageAll T { yc600 := true, bbOrB1 := d } value order yc1000 ≠ [] ↔ d = 1 ∨ d = 2 := by
  unfold voltageAll
  by_cases bb : d = 1
  · simp [bb]
  · by_cases b1 : d = 2
    · simp [b1]
    · simp [bb, b1]

theorem frames600_ne_nil {p : Param} (known : p ≠ relayProtect) (d : Nat) :
    frames600 T value file d p ≠ [] ↔ (IsVoltage p → d = 1 ∨ d = 2) := by
  cases p
  case relayProtect => exact absurd rfl known
  case underVoltageFast | overVoltageFast | underVoltageStage2 | overVoltageSlow | underVoltageSlow =>
    rw [frames600, branchAll, voltage600_ne_nil]
    simp [IsVoltage]
  all_goals exact ⟨fun _ voltage => absurd voltage (by simp [IsVoltage]), fun _ => List.cons_ne_nil _ _⟩

theorem Sent.self {frames : List (List Byte)} (some : frames ≠ []) : Sent frames frames :=
  ⟨some, fun _ mem => mem⟩

theorem not_sent_nil (frames : List (List Byte)) : ¬ Sent frames [] := by
  rintro ⟨some, all⟩
  obtain ⟨sendbuff, mem⟩ := List.exists_mem_of_ne_nil frames some
  exact absurd (all sendbuff mem) List.not_mem_nil

end Frames

theorem branch_covers (T : Target) (inverters : List InverterInfo) (turn : Turn) {p : Param}
    (known : p ≠ relayProtect) (named : ofName turn.paraName = some p)
    (sent : turn.sent = branchAll T (plant inverters) turn.value turn.file p) :
    Covered T inverters turn ↔ Reaches inverters turn.paraName := by
  unfold Covered Reaches
  rw [named, sent]
  simp only [Option.some.injEq, exists_and_left, exists_eq_left']
  by_cases has600 : Has600 inverters
  · by_cases has1000 : Has1000 inverters
    · rw [plant_mixed has600 has1000]
      refine ⟨fun covered => ?_, fun reaches => absurd ⟨has600, has1000⟩ (reaches (.inl has600)).1⟩
      by_cases power : p = powerFactor
      · exact absurd power ((frames1000_ne_nil T turn.value turn.file known).1 (covered.2 has1000).1)
      · rw [branchAll_none T turn.value turn.file power] at covered
        exact absurd (covered.2 has1000) (not_sent_nil _)
    · obtain ⟨d, only, deputies⟩ := plant_600 has600 has1000
      have some := frames600_ne_nil T turn.value turn.file known d
      rw [only]
      change ((Has600 inverters → ∃ d', Sent (frames600 T turn.value turn.file d' p)
        (frames600 T turn.value turn.file d p)) ∧ _) ↔ _
      constructor
      · rintro ⟨covered, -⟩ -
        refine ⟨fun both => has1000 both.2, fun _ voltage => ?_, fun has => absurd has has1000⟩
        apply deputies.1
        refine some.1 (fun none => ?_) voltage
        obtain ⟨d', sent⟩ := covered has600
        exact not_sent_nil _ (none ▸ sent)
      · intro reaches
        refine ⟨fun _ => ⟨d, Sent.self (some.2 fun voltage => ?_)⟩, fun has => absurd has has1000⟩
        exact deputies.2 ((reaches (.inl has600)).2.1 has600 voltage)
  · by_cases has1000 : Has1000 inverters
    · have some := frames1000_ne_nil T turn.value turn.file known
      rw [plant_1000 has600 has1000]
      constructor
      · rintro ⟨-, covered⟩ -
        exact ⟨fun both => has600 both.1, fun has => absurd has has600, fun _ => some.1 (covered has1000).1⟩
      · intro reaches
        have other := (reaches (.inr has1000)).2.2 has1000
        refine ⟨fun has => absurd has has600, fun _ => ?_⟩
        rw [frames1000, if_neg other] at some ⊢
        exact Sent.self (some.2 other)
    · refine ⟨fun _ has => absurd has (not_or.2 ⟨has600, has1000⟩), fun _ => ?_⟩
      exact ⟨fun has => absurd has has600, fun has => absurd has has1000⟩

theorem plant_single (inverters : List InverterInfo) :
    ¬ ((plant inverters).yc600 = true ∧ (plant inverters).yc1000 = true) := by
  by_cases has600 : Has600 inverters
  · by_cases has1000 : Has1000 inverters
    · rw [plant_mixed has600 has1000]
      decide
    · obtain ⟨d, only, -⟩ := plant_600 has600 has1000
      rw [only]
      exact fun both => Bool.false_ne_true both.2
  · by_cases has1000 : Has1000 inverters
    · rw [plant_1000 has600 has1000]
      decide
    · rw [plant_none has600 has1000]
      decide

theorem turn_law {T : Target} {inverters : List InverterInfo} {s next : Progress} {turn : Turn}
    (step : setProtectionParas T inverters s = some (turn, next)) :
    (turn.cleared = true ↔ ofName turn.paraName ≠ some relayProtect) ∧
      (turn.cleared = true → (Covered T inverters turn ↔ Reaches inverters turn.paraName)) := by
  unfold setProtectionParas at step
  split_ifs at step
  obtain ⟨row, -, same⟩ := Option.map_eq_some_iff.1 step
  rw [if_neg (plant_single inverters)] at same
  split at same
  case h_1 named =>
    obtain rfl := (Prod.mk.inj same).1
    refine ⟨⟨fun cleared => absurd cleared Bool.false_ne_true, fun other => absurd named other⟩, ?_⟩
    exact fun cleared => absurd cleared Bool.false_ne_true
  case h_2 p known named =>
    obtain rfl := (Prod.mk.inj same).1
    refine ⟨⟨fun _ is => known (Option.some_inj.1 (named.symm.trans is)), fun _ => rfl⟩, fun _ => ?_⟩
    exact branch_covers T inverters _ known named rfl
  case h_3 unknown =>
    obtain rfl := (Prod.mk.inj same).1
    refine ⟨⟨fun _ is => Option.some_ne_none _ (is.symm.trans unknown), fun _ => rfl⟩, fun _ => ?_⟩
    unfold Covered Reaches
    dsimp only
    rw [unknown]
    constructor
    · rintro ⟨covered600, covered1000⟩ (has600 | has1000)
      · obtain ⟨p, d, no, -⟩ := covered600 has600
        cases no
      · obtain ⟨p, no, -⟩ := covered1000 has1000
        cases no
    · intro reaches
      constructor
      · intro has600
        obtain ⟨p, no, -⟩ := reaches (.inl has600)
        cases no
      · intro has1000
        obtain ⟨p, no, -⟩ := reaches (.inr has1000)
        cases no

/-- In every turn of every run: the flag is cleared unless the row is one of relay protection, and when it is cleared,
every family that is present has got its frames exactly where the broadcast reaches them all. -/
theorem covered_iff {T : Target} {inverters : List InverterInfo} {file : List Byte} {turn : Turn}
    (makes : Loop.Makes (setProtectionParas T inverters) { file } turn) :
    (turn.cleared = true ↔ ofName turn.paraName ≠ some relayProtect) ∧
      (turn.cleared = true → (Covered T inverters turn ↔ Reaches inverters turn.paraName)) :=
  Loop.Makes.rule (fun _ step => ⟨trivial, turn_law step⟩) trivial makes

/-! ## A plant of both families -/

theorem turn_row {T : Target} {inverters : List InverterInfo} {s next : Progress} {turn : Turn}
    (step : setProtectionParas T inverters s = some (turn, next)) :
    getValueFlag s.file = some (turn.paraName, turn.value) := by
  unfold setProtectionParas at step
  split_ifs at step
  obtain ⟨row, read, same⟩ := Option.map_eq_some_iff.1 step
  rw [if_neg (plant_single inverters)] at same
  rw [read]
  split at same <;> obtain rfl := (Prod.mk.inj same).1 <;> rfl

theorem makes_of_row (T : Target) (inverters : List InverterInfo) {file paraName value : List Byte}
    (read : getValueFlag file = some (paraName, value)) :
    ∃ turn, Loop.Makes (setProtectionParas T inverters) { file } turn ∧ turn.paraName = paraName := by
  have made : setProtectionParas T inverters { file } ≠ none := by
    rw [setProtectionParas, if_neg Bool.false_ne_true, read]
    exact Option.some_ne_none _
  obtain ⟨⟨turn, next⟩, step⟩ := Option.ne_none_iff_exists'.1 made
  have row := turn_row step
  rw [read] at row
  exact ⟨turn, .now step, (Prod.mk.inj (Option.some_inj.1 row)).1.symm⟩

def sampleSetting : List Byte :=
  str "under_voltage_fast,180.00,1\n"

theorem sampleSetting_read : getValueFlag sampleSetting = some (underVoltageFast.text, str "180.00") := by
  rw [sampleSetting, text]
  iterate 3 rw [str_ofList]
  decide +kernel

def sample600 : InverterInfo where
  id := str "801000000001"
  model := 7
  shortaddr := 1
  deputyModel := 1

def sample1000 : InverterInfo where
  id := str "501000000001"
  model := 5
  shortaddr := 2

theorem sample_registered :
    registered [sample600] = [sample600] ∧ registered [sample600, sample1000] = [sample600, sample1000] := by
  have ids : Record.HasId sample600.toInverter ∧ Record.HasId sample1000.toInverter := by
    rw [sample600, sample1000, str_ofList, str_ofList]
    decide
  constructor
  · simp [registered, ids]
  · simp [registered, ids]

theorem sample_covered : ∃ turn, Loop.Makes (setProtectionParas sampleTarget [sample600])
    { file := sampleSetting } turn ∧
    (turn.cleared = true ↔ ofName turn.paraName ≠ some relayProtect) ∧
    (turn.cleared = true → (Covered sampleTarget [sample600] turn ↔ Reaches [sample600] turn.paraName)) := by
  obtain ⟨turn, makes, -⟩ := makes_of_row sampleTarget [sample600] sampleSetting_read
  exact ⟨turn, makes, covered_iff makes⟩

/-- In a plant of both families the flag is cleared, and neither has got a frame. -/
theorem mixed_dropped :
    ¬ ∀ (T : Target) (inverters : List InverterInfo) (file : List Byte) (turn : Turn),
      Loop.Makes (setProtectionParas T inverters) { file } turn → turn.cleared = true → Covered T inverters turn := by
  intro all
  obtain ⟨turn, makes, name⟩ := makes_of_row sampleTarget [sample600, sample1000] sampleSetting_read
  have named : ofName turn.paraName = some underVoltageFast := by
    rw [name]
    exact ofName_text underVoltageFast
  have law : (turn.cleared = true ↔ ofName turn.paraName ≠ some relayProtect) ∧ (turn.cleared = true →
      (Covered sampleTarget [sample600, sample1000] turn ↔ Reaches [sample600, sample1000] turn.paraName)) :=
    Loop.Makes.rule (fun _ step => ⟨trivial, turn_law step⟩) trivial makes
  have cleared : turn.cleared = true := by
    apply law.1.2
    rw [named]
    decide
  have has600 : Has600 [sample600, sample1000] := by
    rw [Has600, sample_registered.2]
    exact ⟨sample600, List.mem_cons_self, rfl⟩
  have has1000 : Has1000 [sample600, sample1000] := by
    rw [Has1000, sample_registered.2]
    exact ⟨sample1000, List.mem_cons_of_mem _ List.mem_cons_self, .inl rfl⟩
  obtain ⟨p, -, single, -⟩ := (law.2 cleared).1 (all _ _ _ turn makes cleared) (.inl has600)
  exact single ⟨has600, has1000⟩

end Ecu.Protection
