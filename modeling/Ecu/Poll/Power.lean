import Ecu.Poll.Fresh

/-!
# The power of a report

The power of a channel is the energy that it has counted by the seconds that have gone by, once the inverter has run
for ten minutes. `rawPower` is this quotient before it becomes an `int`. The seconds are zero when a YC600 reports
the same time again (`Repeats`), and only then (`power_iff`).
-/

namespace Ecu

/-- The `float` that becomes the power of a channel; `none` is a quotient by zero. -/
def rawPower (seconds curacctime : Int) (curgeneration panel : ℚ) : Option ℚ :=
  if curacctime > 600 then
    if seconds = 0 then none else some (curgeneration * 1000 * 3600 / seconds)
  else some panel

namespace Decoder

/-- The channels of a report: the energy counted, and the power of the panel by its voltage and current. -/
def channels (T : Target) : Decoder → Frame → Inverter → List (ℚ × ℚ)
  | yc1000, data, before =>
    let counted := curgeneration1000 (outputEnergy1000 (decode1000 T data before))
    [(counted.curgeneration, counted.dv * counted.di / 100), (counted.curgenerationb, counted.dvb * counted.dib / 100),
      (counted.curgenerationc, counted.dvc * counted.dic / 100),
      (counted.curgenerationd, counted.dvd * counted.did / 100)]
  | _, data, before =>
    let counted := curgeneration600 (outputEnergy600 (decode600 T 0 0 data before))
    [(counted.curgeneration, counted.dv * counted.di), (counted.curgenerationb, counted.dvb * counted.dib)]

/-- The seconds that the channels are divided by. -/
def seconds (T : Target) : Decoder → Frame → Inverter → Int
  | yc1000, data, before => seconds1000 (outputEnergy1000 (decode1000 T data before))
  | _, data, before => seconds600 (outputEnergy600 (decode600 T 0 0 data before))

/-- The powers that a report computes; a rejected one computes none. -/
def rawPowers (T : Target) (d : Decoder) (data : Frame) (before : Inverter) : List (Option ℚ) :=
  if d.Takes T data before then
    (d.channels T data before).map fun c => rawPower (d.seconds T data before) data.acctime c.1 c.2
  else []

/-- The powers in the inverter. -/
def powers : Decoder → Inverter → List Int
  | yc1000, inverter => [inverter.op, inverter.opb, inverter.opc, inverter.opd]
  | _, inverter => [inverter.op, inverter.opb]

/-- Above this a power gives way to the panel's. -/
def limit : Decoder → Int
  | yc1000 => 260
  | _ => 360

/-- The highest power of the range check. -/
def maxPower : Decoder → Int
  | yc1000 => 300
  | _ => 500

variable {T : Target} {ecu : EcuInfo} {d : Decoder} {data : Frame} {before : Inverter}

/-- The powers in the inverter come from the raw ones. -/
theorem powers_eq (takes : d.Takes T data before) :
    d.powers (d.resolve T ecu data before).2 =
      (d.channels T data before).map fun c =>
        clamp 0 d.maxPower
          (channelPower T d.limit (d.seconds T data before) data.acctime c.1 (T.toInt c.2)) := by
  cases d with
  | yc600 =>
    obtain ⟨ema, flag, frame⟩ := yc600Status_frame _
    rw [resolve, resolvedata600, resolve600, frame]
    rfl
  | yc600New =>
    obtain ⟨ema, flag, frame⟩ := yc600Status_frame _
    rw [resolve, resolvedata600New, resolve600, frame]
    rfl
  | yc1000 =>
    obtain ⟨ema, flag, frame⟩ := yc1000Status_frame _
    rw [resolve, resolvedata1000]
    dsimp only
    rw [if_neg takes, frame]
    rfl

end Decoder

/-! ## Bounds -/

section Bounds

theorem byte_le (data : Frame) (i : Nat) : (data.byte i : ℚ) ≤ 255 := by
  have low : data.byte i < 256 := (data.getD i nul).toNat_lt
  exact_mod_cast Nat.le_of_lt_succ low

theorem word24_le (data : Frame) (i : Nat) : (data.word24 i : ℚ) ≤ 16777215 := by
  have first : data.byte i < 256 := (data.getD i nul).toNat_lt
  have second : data.byte (i + 1) < 256 := (data.getD (i + 1) nul).toNat_lt
  have third : data.byte (i + 2) < 256 := (data.getD (i + 2) nul).toNat_lt
  have bound : data.word24 i ≤ 16777215 := by
    unfold Frame.word24
    omega
  exact_mod_cast bound

theorem accgen600_le (data : Frame) (i : Nat) : data.accgen600 i ≤ 41 := by
  have first := byte_le data i
  have second := byte_le data (i + 1)
  have rest := word24_le data (i + 2)
  unfold Frame.accgen600
  linarith

theorem accgen1000_le (data : Frame) (i : Nat) : data.accgen1000 i ≤ 41 := by
  have first := byte_le data i
  have second := byte_le data (i + 1)
  have rest := word24_le data (i + 2)
  unfold Frame.accgen1000
  push_cast
  linarith

/-- An accumulator and its differences stay below 41 kWh. -/
theorem sinceLast_mem {continued : Bool} {cur pre : ℚ} (grown : continued = true → pre ≤ cur) (nonneg : 0 ≤ cur)
    (before : 0 ≤ pre) (below : cur ≤ 41) : 0 ≤ sinceLast continued cur pre ∧ sinceLast continued cur pre ≤ 41 := by
  unfold sinceLast
  split_ifs with goesOn
  · have less := grown goesOn
    exact ⟨sub_nonneg.2 less, by linarith⟩
  · exact ⟨nonneg, below⟩

theorem high12_lt (data : Frame) (i : Nat) : data.high12 i < 4096 := by
  have first : data.byte i < 256 := (data.getD i nul).toNat_lt
  have second : data.byte (i + 1) < 256 := (data.getD (i + 1) nul).toNat_lt
  exact Nat.or_lt_two_pow (n := 12) (by omega) (by omega)

theorem low12_lt (data : Frame) (i : Nat) : data.low12 i < 4096 := by
  have second : data.byte (i + 1) < 256 := (data.getD (i + 1) nul).toNat_lt
  unfold Frame.low12
  omega

/-- The power of a panel by its voltage and current. -/
theorem panel_mem {dv di : ℚ} (voltage : 0 ≤ dv ∧ dv ≤ 900) (current : 0 ≤ di ∧ di ≤ 300) :
    0 ≤ dv * di ∧ dv * di ≤ 270000 := by
  constructor
  · exact mul_nonneg voltage.1 current.1
  · calc dv * di ≤ 900 * 300 := mul_le_mul voltage.2 current.2 current.1 (by norm_num)
      _ = 270000 := by norm_num

theorem voltage600_mem (data : Frame) (i j : Nat) :
    0 ≤ ((data.byte i * 16 + data.byte j / 16 * 16 : Nat) : ℚ) * (825 / 10) / 4096 ∧
      ((data.byte i * 16 + data.byte j / 16 * 16 : Nat) : ℚ) * (825 / 10) / 4096 ≤ 900 := by
  have high : data.byte i < 256 := (data.getD i nul).toNat_lt
  have low : data.byte j < 256 := (data.getD j nul).toNat_lt
  have bits : data.byte i * 16 + data.byte j / 16 * 16 ≤ 8192 := by omega
  have cast : ((data.byte i * 16 + data.byte j / 16 * 16 : Nat) : ℚ) ≤ 8192 := by exact_mod_cast bits
  constructor
  · positivity
  · linarith

theorem current600_mem (data : Frame) (i j : Nat) :
    0 ≤ ((data.byte i % 16 * 256 + data.byte j : Nat) : ℚ) * (275 / 10) / 4096 ∧
      ((data.byte i % 16 * 256 + data.byte j : Nat) : ℚ) * (275 / 10) / 4096 ≤ 300 :=
  ⟨current600_nonneg data i j, (current600_le data i j).trans (by norm_num)⟩

/-- A scaled value of twelve bits. -/
theorem scaled_mem {bits scale : Nat} {limit : ℚ} (twelve : bits < 4096) (small : (scale : ℚ) ≤ limit) :
    0 ≤ ((bits * scale / 4096 : Nat) : ℚ) ∧ ((bits * scale / 4096 : Nat) : ℚ) ≤ limit := by
  have whole : bits * scale / 4096 ≤ scale := by
    apply Nat.div_le_of_le_mul
    exact Nat.mul_le_mul_right scale (le_of_lt twelve)
  have cast : ((bits * scale / 4096 : Nat) : ℚ) ≤ scale := by exact_mod_cast whole
  exact ⟨Nat.cast_nonneg _, cast.trans small⟩

/-- A power that is computed fits an `int` and has no sign. -/
def Sound (raw : Option ℚ) : Prop :=
  ∃ power, raw = some power ∧ 0 ≤ power ∧ power ≤ 2147483647

theorem rawPower_sound {seconds curacctime : Int} {curgeneration panel : ℚ}
    (elapsed : curacctime > 600 → 0 < seconds) (energy : 0 ≤ curgeneration ∧ curgeneration ≤ 41)
    (shown : 0 ≤ panel ∧ panel ≤ 2147483647) : Sound (rawPower seconds curacctime curgeneration panel) := by
  unfold rawPower
  split_ifs with late zero
  · exact absurd zero (ne_of_gt (elapsed late))
  · have positive : (1 : ℚ) ≤ seconds := by exact_mod_cast elapsed late
    have whole : 0 ≤ curgeneration * 1000 * 3600 := by linarith [energy.1]
    refine ⟨_, rfl, div_nonneg whole (by linarith), ?_⟩
    calc curgeneration * 1000 * 3600 / seconds ≤ curgeneration * 1000 * 3600 := div_le_self whole positive
      _ ≤ 2147483647 := by linarith [energy.2]
  · exact ⟨panel, rfl, shown⟩

theorem rawPower_none {seconds curacctime : Int} {curgeneration panel : ℚ} :
    rawPower seconds curacctime curgeneration panel = none ↔ curacctime > 600 ∧ seconds = 0 := by
  unfold rawPower
  split_ifs with late zero
  · exact iff_of_true rfl ⟨late, zero⟩
  · exact iff_of_false not_false fun both => zero both.2
  · exact iff_of_false not_false fun both => late both.1

end Bounds

/-! ## Reports -/

/-- A YC600 report, later than ten minutes after the start, of the time that the report before had. -/
def Repeats (d : Decoder) (data : Frame) (before : Inverter) : Prop :=
  d ≠ .yc1000 ∧ 600 < data.acctime ∧ data.acctime = before.preacctime ∧ before.preaccgen ≤ data.accgen600 32 ∧
    before.preaccgenb ≤ data.accgen600 27

instance (d : Decoder) (data : Frame) (before : Inverter) : Decidable (Repeats d data before) :=
  inferInstanceAs (Decidable (_ ∧ _))

def Baseline.Nonneg (b : Baseline) : Prop :=
  0 ≤ b.preaccgen ∧ 0 ≤ b.preaccgenb ∧ 0 ≤ b.preaccgenc ∧ 0 ≤ b.preaccgend

namespace Decoder

variable {T : Target} {ecu : EcuInfo} {d : Decoder} {data : Frame} {before : Inverter}

theorem seconds600_eq (yc600 : d ≠ .yc1000) :
    d.seconds T data before =
      if before.preaccgen ≤ data.accgen600 32 ∧ before.preaccgenb ≤ data.accgen600 27 ∧
          before.preacctime ≤ data.acctime then data.acctime - before.preacctime
      else data.acctime := by
  cases d with
  | yc1000 => exact absurd rfl yc600
  | yc600 => rfl
  | yc600New => rfl

/-- Ten minutes after the start the seconds are zero for a repeated report only. -/
theorem seconds_zero_iff (late : data.acctime > 600) :
    d.seconds T data before = 0 ↔ Repeats d data before := by
  by_cases yc600 : d ≠ .yc1000
  · rw [seconds600_eq yc600]
    split_ifs with continued
    · constructor
      · intro zero
        exact ⟨yc600, late, by omega, continued.1, continued.2.1⟩
      · rintro ⟨-, -, same, -, -⟩
        omega
    · constructor
      · intro zero
        omega
      · rintro ⟨-, -, same, first, second⟩
        exact absurd ⟨first, second, same.ge⟩ continued
  · obtain rfl := not_not.1 yc600
    refine iff_of_false (ne_of_gt ?_) fun repeats => repeats.1 rfl
    change 0 < seconds1000 _
    unfold seconds1000
    split_ifs with continued
    · exact sub_pos.2 continued.2.2.2.2
    · exact lt_trans (by decide) late

theorem seconds_nonneg : 0 ≤ d.seconds T data before := by
  have started : 0 ≤ data.acctime := Int.natCast_nonneg _
  by_cases yc600 : d ≠ .yc1000
  · rw [seconds600_eq yc600]
    split_ifs with continued
    · omega
    · exact started
  · obtain rfl := not_not.1 yc600
    change 0 ≤ seconds1000 _
    unfold seconds1000
    split_ifs with continued
    · exact le_of_lt (sub_pos.2 continued.2.2.2.2)
    · exact started

theorem channels600_mem (nonneg : before.stored.Nonneg) {c : ℚ × ℚ} (mem : c ∈ channels T .yc600 data before) :
    (0 ≤ c.1 ∧ c.1 ≤ 41) ∧ 0 ≤ c.2 ∧ c.2 ≤ 270000 := by
  have energy (i : Nat) {pre : ℚ} {continued : Bool} (grown : continued = true → pre ≤ data.accgen600 i)
      (before : 0 ≤ pre) :=
    sinceLast_mem grown (accgen600_nonneg data i) before (accgen600_le data i)
  simp only [channels, List.mem_cons, List.not_mem_nil, or_false] at mem
  rcases mem with rfl | rfl
  · exact ⟨energy 32 (fun continued => (of_decide_eq_true continued).1) nonneg.1,
      panel_mem (voltage600_mem data 14 13) (current600_mem data 13 12)⟩
  · exact ⟨energy 27 (fun continued => (of_decide_eq_true continued).2.1) nonneg.2.1,
      panel_mem (voltage600_mem data 17 16) (current600_mem data 16 15)⟩

theorem channels1000_mem (nonneg : before.stored.Nonneg) {c : ℚ × ℚ} (mem : c ∈ channels T .yc1000 data before) :
    (0 ≤ c.1 ∧ c.1 ≤ 41) ∧ 0 ≤ c.2 ∧ c.2 ≤ 270000 := by
  obtain ⟨first, second, third, fourth⟩ := nonneg
  have energy (i : Nat) {pre : ℚ} {continued : Bool} (grown : continued = true → pre < data.accgen1000 i)
      (before : 0 ≤ pre) :=
    sinceLast_mem (fun goesOn => le_of_lt (grown goesOn)) (accgen1000_nonneg data i) before (accgen1000_le data i)
  have panel {di : ℚ} (current : 0 ≤ di ∧ di ≤ 300) :
      0 ≤ ((data.high12 9 * 825 / 4096 : Nat) : ℚ) * di / 100 ∧
        ((data.high12 9 * 825 / 4096 : Nat) : ℚ) * di / 100 ≤ 270000 := by
    have whole := panel_mem (scaled_mem (high12_lt data 9) (by norm_num : ((825 : Nat) : ℚ) ≤ 900)) current
    exact ⟨div_nonneg whole.1 (by norm_num), (div_le_self whole.1 (by norm_num)).trans whole.2⟩
  have high (i : Nat) := scaled_mem (high12_lt data i) (by norm_num : ((275 : Nat) : ℚ) ≤ 300)
  have low (i : Nat) := scaled_mem (low12_lt data i) (by norm_num : ((275 : Nat) : ℚ) ≤ 300)
  simp only [channels, List.mem_cons, List.not_mem_nil, or_false] at mem
  rcases mem with rfl | rfl | rfl | rfl
  · exact ⟨energy 27 (fun continued => (of_decide_eq_true continued).1) first, panel (high 12)⟩
  · exact ⟨energy 32 (fun continued => (of_decide_eq_true continued).2.1) second, panel (low 13)⟩
  · exact ⟨energy 37 (fun continued => (of_decide_eq_true continued).2.2.1) third, panel (high 15)⟩
  · exact ⟨energy 42 (fun continued => (of_decide_eq_true continued).2.2.2.1) fourth, panel (low 16)⟩

/-- The energies and panel powers of the channels. -/
theorem channels_mem (nonneg : before.stored.Nonneg) {c : ℚ × ℚ} (mem : c ∈ d.channels T data before) :
    (0 ≤ c.1 ∧ c.1 ≤ 41) ∧ 0 ≤ c.2 ∧ c.2 ≤ 270000 := by
  cases d with
  | yc600 => exact channels600_mem nonneg mem
  | yc600New => exact channels600_mem nonneg mem
  | yc1000 => exact channels1000_mem nonneg mem

theorem channels_ne_nil : d.channels T data before ≠ [] := by
  cases d <;> exact List.cons_ne_nil _ _

/-- The powers of a report are computed without a quotient by zero; they fit an `int` and none is negative. -/
structure Powered (T : Target) (ecu : EcuInfo) (d : Decoder) (data : Frame) (before : Inverter) : Prop where
  raw : ∀ raw ∈ d.rawPowers T data before, Sound raw
  powers : d.Takes T data before → ∀ power ∈ d.powers (d.resolve T ecu data before).2, 0 ≤ power

theorem powered_iff (nonneg : before.stored.Nonneg) : Powered T ecu d data before ↔ ¬ Repeats d data before := by
  constructor
  · intro powered repeats
    have takes : d.Takes T data before := by
      cases d with
      | yc600 => trivial
      | yc600New => trivial
      | yc1000 => exact absurd rfl repeats.1
    obtain ⟨c, rest, some⟩ : ∃ c rest, d.channels T data before = c :: rest :=
      List.exists_cons_of_ne_nil channels_ne_nil
    have none : rawPower (d.seconds T data before) data.acctime c.1 c.2 = none :=
      rawPower_none.2 ⟨repeats.2.1, (seconds_zero_iff repeats.2.1).2 repeats⟩
    obtain ⟨power, computed, -⟩ := powered.raw _ (by
      rw [rawPowers, if_pos takes, some]
      exact List.mem_cons_self)
    exact absurd (none.symm.trans computed) nofun
  · intro once
    refine ⟨?_, ?_⟩
    · intro raw mem
      unfold rawPowers at mem
      split_ifs at mem
      · obtain ⟨c, inChannels, rfl⟩ := List.mem_map.1 mem
        have bounds := channels_mem nonneg inChannels
        refine rawPower_sound (fun late => ?_) bounds.1 ⟨bounds.2.1, bounds.2.2.trans (by norm_num)⟩
        exact lt_of_le_of_ne seconds_nonneg fun zero => once ((seconds_zero_iff late).1 zero.symm)
      · exact absurd mem List.not_mem_nil
    · intro takes power mem
      rw [powers_eq takes] at mem
      obtain ⟨c, -, rfl⟩ := List.mem_map.1 mem
      exact le_clamp _ _ _

end Decoder

namespace Poll

/-! ## Reachable inverters -/

/-- The states of an inverter between the steps of its rounds. A start may bring back a baseline. -/
inductive Reached (T : Target) : InverterInfo → Prop
  | on {x : InverterInfo} (on : PowerOn x) (baseline : x.stored.Nonneg) : Reached T x
  | clear {x : InverterInfo} (reached : Reached T x) : Reached T (clearRound x)
  | prepare {x : InverterInfo} (a : Answers) (reached : Reached T x) : Reached T (prepared a x)
  | visit {x : InverterInfo} (ecu : EcuInfo) (a : Answers) (reached : Reached T x) :
    Reached T (visit T ecu false a x).1
  | missing {x : InverterInfo} (reached : Reached T x) : Reached T (countMissing x)

theorem Decoder.baseline_nonneg (d : Decoder) (data : Frame) {before : Baseline} (nonneg : before.Nonneg) :
    (d.baseline data before).Nonneg := by
  cases d with
  | yc600 => exact ⟨accgen600_nonneg data 32, accgen600_nonneg data 27, nonneg.2.2⟩
  | yc600New => exact ⟨accgen600_nonneg data 32, accgen600_nonneg data 27, nonneg.2.2⟩
  | yc1000 =>
    exact ⟨accgen1000_nonneg data 27, accgen1000_nonneg data 32, accgen1000_nonneg data 37, accgen1000_nonneg data 42⟩

/-- A frame leaves the baseline or reads the next one. -/
theorem resolveData_stored (T : Target) (ecu : EcuInfo) (h : Heard) :
    (resolveData T ecu h.asked h.data).stored = h.asked.stored ∨
      ∃ d : Decoder, (resolveData T ecu h.asked h.data).stored = d.baseline h.frame h.asked.stored := by
  cases known : h.decoder with
  | none =>
    rw [resolveData_unknown T ecu known]
    exact .inl rfl
  | some d =>
    obtain ⟨deputy, resolved⟩ := resolveData_decoded T ecu known
    rw [resolved]
    by_cases takes : d.Takes T h.frame h.before
    · exact .inr ⟨d, (Decoder.taken takes).stored⟩
    · exact .inl (congrArg Memory.baseline (Decoder.rejected takes).memory)

theorem Reached.nonneg {T : Target} {x : InverterInfo} (reached : Reached T x) : x.stored.Nonneg := by
  induction reached with
  | on on baseline => exact baseline
  | clear reached ih => exact ih
  | @prepare x a reached ih =>
    have same : (prepared a x).stored = x.stored := congrArg Memory.baseline (prepared_kept a x).1.memory
    rwa [same]
  | @visit x ecu a reached ih =>
    by_cases cleared : x.dataflag = 0
    · cases heard : hears a x with
      | none =>
        have same : (Poll.visit T ecu false a x).1.stored = x.stored :=
          congrArg Memory.baseline (visit_silent T ecu heard cleared).1.memory
        rwa [same]
      | some h =>
        obtain ⟨after, asked, -, -⟩ := visit_heard T ecu heard
        have same : h.asked.stored = x.stored := by
          rw [asked]
          exact congrArg Memory.baseline (prepared_kept a x).1.memory
        rw [after]
        rcases resolveData_stored T ecu h with kept | ⟨d, read⟩
        · rwa [kept, same]
        · rw [read, same]
          exact Decoder.baseline_nonneg d _ ih
    · rw [(visit_answered T ecu cleared).1]
      exact ih
  | @missing x reached ih =>
    obtain ⟨n, frame⟩ := countMissing_frame x
    rw [frame]
    exact ih

/-- A frame of a YC600 a thousand seconds after its start. -/
def lateReply : List Byte :=
  [0xFC, 0xFC, 0x12, 0x34, 0, 0, 0x70, 0x10, 0x00, 0x00, 0x00, 0x01] ++
    [0xFB, 0xFB, 0x06, 0xBB, 0, 0, 0, 0, 0, 0, 0, 0x03, 0xE8] ++ List.replicate 73 0 ++ [0xFE, 0xFE]

/-- The inverter after a round with this frame. -/
def lateInverter : InverterInfo :=
  (visit sampleTarget (sampleRound 0xBB).ecu false ⟨true, none, some lateReply⟩ sampleInverter).1

theorem late_reached : Reached sampleTarget lateInverter :=
  .visit _ _ (.on rfl ⟨le_refl _, le_refl _, le_refl _, le_refl _⟩)

end Poll

end Ecu
