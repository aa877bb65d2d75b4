import Ecu.Inverter.Energy

/-!
# What a round leaves in an inverter

`zb_query_data` gives the data of an answer to the resolve function of the inverter's model. An inverter
with data is `Produced`: it comes from a resolve function, or, where no function takes the answer,
it is as the round's reset has left it. Its measurements are in the ranges of the check functions, and
the currents of a YC600 in those of their decoding.
-/

namespace Ecu

/-! ## Conversion to `int` -/

/-- Rounding toward zero is rounding down from zero on. -/
theorem truncate_nonneg {x : ℚ} (nonneg : 0 ≤ x) : truncate x = ⌊x⌋ := by
  rw [truncate, Rat.floor_def', Int.tdiv_eq_ediv_of_nonneg (Rat.num_nonneg.2 nonneg)]

/-- A conversion stays below an integer bound. -/
theorem Target.toInt_mem (T : Target) {x : ℚ} {n : Int} (small : n ≤ 2147483647) (nonneg : 0 ≤ x)
    (below : x ≤ n) : 0 ≤ T.toInt x ∧ T.toInt x ≤ n := by
  have low : 0 ≤ ⌊x⌋ := Int.floor_nonneg.2 nonneg
  have high : ⌊x⌋ ≤ n := Int.floor_le_iff.2 (lt_of_le_of_lt below (by linarith))
  rw [Target.toInt, truncate_nonneg nonneg, if_pos ⟨by omega, by omega⟩]
  exact ⟨low, high⟩

/-! ## Produced inverters -/

/-- The ranges of an inverter with two panels. -/
structure Ranges600 (inverter : Inverter) : Prop extends Checked inverter where
  decodedDi : inverter.di ≤ 55 / 2
  decodedDib : inverter.dib ≤ 55 / 2

def IsYc1000 (model : Nat) : Prop :=
  model = 5 ∨ model = 6

instance (model : Nat) : Decidable (IsYc1000 model) :=
  inferInstanceAs (Decidable (_ ∨ _))

/-- The inverters that have data after a round. -/
inductive Produced (T : Target) : Inverter → Prop
  | yc1000 (ecu : EcuInfo) (data : Frame) (before : Inverter) (model : IsYc1000 before.model)
      (accepted : (resolvedata1000 T ecu data before).1 = 1) : Produced T (resolvedata1000 T ecu data before).2
  | yc600 (ecu : EcuInfo) (data : Frame) (before : Inverter) (model : ¬ IsYc1000 before.model) :
      Produced T (resolvedata600 T ecu data before).2
  | yc600New (ecu : EcuInfo) (data : Frame) (before : Inverter) (model : ¬ IsYc1000 before.model) :
      Produced T (resolvedata600New T ecu data before).2
  /-- The version byte of the answer, or the model, is unknown. -/
  | unresolved (before : Inverter) (model : ¬ IsYc1000 before.model) :
      Produced T { clearData before with dataflag := 1 }

/-! ## Ranges -/

/-- The report fields of an inverter have no part in its ranges. -/
theorem Checked.frame {inverter : Inverter} (checked : Checked inverter) (ema : List Byte) (flag : Nat)
    (time : List Byte) :
    Checked { inverter with statusEma := ema, statusSendFlag := flag, lastReportTime := time } where
  dv := checked.dv
  dvb := checked.dvb
  di := checked.di
  dib := checked.dib
  op := checked.op
  opb := checked.opb
  gf := checked.gf
  gv := checked.gv
  it := checked.it
  curgeneration := checked.curgeneration
  curgenerationb := checked.curgenerationb

theorem Checked1000.frame {inverter : Inverter} (checked : Checked1000 inverter) (ema : List Byte) (flag : Nat)
    (time : List Byte) :
    Checked1000 { inverter with statusEma := ema, statusSendFlag := flag, lastReportTime := time } where
  toChecked := checked.toChecked.frame ema flag time
  dic := checked.dic
  did := checked.did
  opc := checked.opc
  opd := checked.opd
  curgenerationc := checked.curgenerationc
  curgenerationd := checked.curgenerationd

theorem current600_nonneg (data : Frame) (i j : Nat) :
    0 ≤ ((data.byte i % 16 * 256 + data.byte j : Nat) : ℚ) * (275 / 10) / 4096 := by
  positivity

/-- A current of twelve bits. -/
theorem current600_le (data : Frame) (i j : Nat) :
    ((data.byte i % 16 * 256 + data.byte j : Nat) : ℚ) * (275 / 10) / 4096 ≤ 55 / 2 := by
  have high : data.byte i % 16 < 16 := Nat.mod_lt _ (by decide)
  have low : data.byte j < 256 := (data.getD j nul).toNat_lt
  have bits : data.byte i % 16 * 256 + data.byte j ≤ 4096 := by omega
  have cast : ((data.byte i % 16 * 256 + data.byte j : Nat) : ℚ) ≤ 4096 := by exact_mod_cast bits
  linarith

theorem clamp_le_self {α : Type} [LinearOrder α] {lo hi x : α} (ordered : lo ≤ hi) (above : lo ≤ x) :
    clamp lo hi x ≤ x := by
  rw [clamp_eq_min ordered above]
  exact min_le_left _ _

section Resolve600

variable (T : Target) (ecu : EcuInfo) (it : Int) (gv : ℚ) (web : List Byte) (high low : Nat) (data : Frame)
  (inverter : Inverter)

theorem resolve600_ranges : Ranges600 (resolve600 T ecu it gv web high low data inverter).2 := by
  let changed := report600 T ecu.ecuType web high low (decode600 T it gv data inverter)
  obtain ⟨ema, flag, frame⟩ := yc600Status_frame (checkYc500 ecu.ecuType changed)
  have checked := (checkYc500_checked ecu.ecuType changed).frame ema flag ecu.broadcastTime
  rw [resolve600, frame]
  exact ⟨checked, (clamp_le_self (by decide) (current600_nonneg data 13 12)).trans (current600_le data 13 12),
    (clamp_le_self (by decide) (current600_nonneg data 16 15)).trans (current600_le data 16 15)⟩

theorem resolve600_model : (resolve600 T ecu it gv web high low data inverter).2.model = inverter.model := by
  obtain ⟨ema, flag, frame⟩ := yc600Status_frame _
  rw [resolve600, frame]
  dsimp only [checkYc500, report600, updateChanges, status600, power600, curgeneration600, outputEnergy600,
    decode600]

end Resolve600

section Resolve1000

variable {T : Target} {ecu : EcuInfo} {data : Frame} {inverter : Inverter}

theorem resolvedata1000_checks (accepted : (resolvedata1000 T ecu data inverter).1 = 1) :
    (resolvedata1000 T ecu data inverter).2 =
      { yc1000Status (checkYc1000 ecu.ecuType
          (report1000 T ecu.ecuType data (decode1000 T data inverter))) with
        lastReportTime := ecu.broadcastTime } := by
  unfold resolvedata1000 at accepted ⊢
  dsimp only at accepted ⊢
  split at accepted
  · exact absurd accepted Nat.zero_ne_one
  · rename_i kept
    rw [if_neg kept]

theorem resolvedata1000_checked (accepted : (resolvedata1000 T ecu data inverter).1 = 1) :
    Checked1000 (resolvedata1000 T ecu data inverter).2 := by
  let changed := report1000 T ecu.ecuType data (decode1000 T data inverter)
  obtain ⟨ema, flag, frame⟩ := yc1000Status_frame (checkYc1000 ecu.ecuType changed)
  rw [resolvedata1000_checks accepted, frame]
  exact (checkYc1000_checked ecu.ecuType changed).frame ema flag ecu.broadcastTime

theorem resolvedata1000_model (accepted : (resolvedata1000 T ecu data inverter).1 = 1) :
    (resolvedata1000 T ecu data inverter).2.model = inverter.model := by
  obtain ⟨ema, flag, frame⟩ := yc1000Status_frame _
  rw [resolvedata1000_checks accepted, frame]
  dsimp only [checkYc1000, report1000, updateChanges, status1000, power1000, curgeneration1000,
    outputEnergy1000, decode1000]

end Resolve1000

/-- The reset leaves zeros. -/
theorem clearData_ranges (before : Inverter) : Ranges600 { clearData before with dataflag := 1 } where
  dv := ⟨le_refl _, by norm_num [clearData]⟩
  dvb := ⟨le_refl _, by norm_num [clearData]⟩
  di := ⟨le_refl _, by norm_num [clearData]⟩
  dib := ⟨le_refl _, by norm_num [clearData]⟩
  op := ⟨le_refl _, by norm_num [clearData]⟩
  opb := ⟨le_refl _, by norm_num [clearData]⟩
  gf := ⟨le_refl _, by norm_num [clearData]⟩
  gv := ⟨le_refl _, by norm_num [clearData]⟩
  it := ⟨by norm_num [clearData], by norm_num [clearData]⟩
  curgeneration := ⟨le_refl _, maxCurgeneration_nonneg⟩
  curgenerationb := ⟨le_refl _, maxCurgeneration_nonneg⟩
  decodedDi := by norm_num [clearData]
  decodedDib := by norm_num [clearData]

/-- The ranges of an inverter with data, by its model. -/
theorem Produced.ranges {T : Target} {inverter : Inverter} (produced : Produced T inverter) :
    (IsYc1000 inverter.model ∧ Checked1000 inverter) ∨ (¬ IsYc1000 inverter.model ∧ Ranges600 inverter) := by
  cases produced with
  | yc1000 ecu data before model accepted =>
    refine .inl ⟨?_, resolvedata1000_checked accepted⟩
    rwa [resolvedata1000_model accepted]
  | yc600 ecu data before model =>
    refine .inr ⟨?_, resolve600_ranges ..⟩
    rwa [resolvedata600, resolve600_model]
  | yc600New ecu data before model =>
    refine .inr ⟨?_, resolve600_ranges ..⟩
    rwa [resolvedata600New, resolve600_model]
  | unresolved before model => exact .inr ⟨model, clearData_ranges before⟩

theorem Produced.checked {T : Target} {inverter : Inverter} (produced : Produced T inverter) :
    Checked inverter := by
  rcases produced.ranges with ⟨-, ranges⟩ | ⟨-, ranges⟩
  · exact ranges.toChecked
  · exact ranges.toChecked

end Ecu
