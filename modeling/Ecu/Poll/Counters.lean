import Ecu.Poll.Decoder

/-!
# The counters and packed fields of a frame (`resolve.c`)

A channel counts in five bytes and the resolve functions convert the upper two and the lower three apart. The
three functions are compared with the number the five bytes are (`counter_lt_iff`), and the twelve bits of a
voltage or a current with the number of its byte and its nibble.
-/

namespace Ecu

namespace Frame

/-- The upper two bytes of a counter. -/
def word16 (data : Frame) (i : Nat) : Nat :=
  data.byte i * 256 + data.byte (i + 1)

/-- The five bytes of a counter, the first one highest. -/
def counter (data : Frame) (i : Nat) : Nat :=
  data.word16 i * 2 ^ 24 + data.word24 (i + 2)

/-- Twelve bits: a byte over the high nibble of another one. -/
def byteNibble (data : Frame) (i j : Nat) : Nat :=
  data.byte i * 16 + data.byte j / 16

/-- Twelve bits: the low nibble of a byte over another one. -/
def nibbleByte (data : Frame) (j i : Nat) : Nat :=
  data.byte j % 16 * 256 + data.byte i

theorem byte_lt (data : Frame) (i : Nat) : data.byte i < 256 :=
  (data.getD i nul).toNat_lt

theorem word24_lt (data : Frame) (i : Nat) : data.word24 i < 2 ^ 24 := by
  have high := data.byte_lt i
  have middle := data.byte_lt (i + 1)
  have low := data.byte_lt (i + 2)
  unfold word24
  omega

theorem byteNibble_lt (data : Frame) (i j : Nat) : data.byteNibble i j < 4096 := by
  have high := data.byte_lt i
  have low := data.byte_lt j
  unfold byteNibble
  omega

theorem nibbleByte_lt (data : Frame) (j i : Nat) : data.nibbleByte j i < 4096 := by
  have low := data.byte_lt i
  unfold nibbleByte
  omega

/-- The shifts and masks of `resolvedata_1000` keep the bits apart. -/
theorem high12_eq (data : Frame) (i : Nat) : data.high12 i = data.byteNibble i (i + 1) := by
  have low : data.byte (i + 1) / 16 < 2 ^ 4 := by
    have := data.byte_lt (i + 1)
    omega
  have shifted : data.byte i / 16 * 256 + data.byte i % 16 * 16 = 2 ^ 4 * data.byte i := by omega
  rw [high12, shifted, ← Nat.two_pow_add_eq_or_of_lt low, byteNibble, Nat.mul_comm]

end Frame

/-! ## The energy counters -/

/-- Two pairs compare alike. -/
theorem cmp_eq_cmp_iff {α β : Type} [LinearOrder α] [LinearOrder β] {a a' : α} {b b' : β} :
    cmp a a' = cmp b b' ↔ (a < a' ↔ b < b') ∧ (a' < a ↔ b' < b) := by
  constructor
  · intro same
    refine ⟨?_, ?_⟩
    · rw [← cmp_eq_lt_iff a a', same, cmp_eq_lt_iff]
    · rw [← cmp_eq_gt_iff a a', same, cmp_eq_gt_iff]
  · rintro ⟨less, greater⟩
    rcases lt_trichotomy b b' with below | equal | above
    · rw [(cmp_eq_lt_iff _ _).2 below, (cmp_eq_lt_iff _ _).2 (less.2 below)]
    · have notLess : ¬ a < a' := fun lt => (less.1 lt).ne equal
      have notGreater : ¬ a' < a := fun lt => (greater.1 lt).ne' equal
      rw [equal, cmp_self_eq_eq, (cmp_eq_eq_iff _ _).2 (le_antisymm (not_lt.1 notGreater) (not_lt.1 notLess))]
    · rw [(cmp_eq_gt_iff _ _).2 above, (cmp_eq_gt_iff _ _).2 (greater.2 above)]

section Counters

variable {data data' : Frame} {i : Nat}

/-- A YC1000 accumulator is its counter, scaled. -/
theorem accgen1000_eq (data : Frame) (i : Nat) :
    data.accgen1000 i = data.counter i * (220 / (1661900 * 1000 * 3600)) := by
  unfold Frame.accgen1000 Frame.counter Frame.word16
  push_cast
  ring

theorem accgen1000_lt_iff : data.accgen1000 i < data'.accgen1000 i ↔ data.counter i < data'.counter i := by
  rw [accgen1000_eq, accgen1000_eq, mul_lt_mul_iff_left₀ (by norm_num), Nat.cast_lt]

/-- What a YC600 accumulator scales: `10.095` stands for `2 ^ 24 / 1661900`. -/
theorem accgen600_eq (data : Frame) (i : Nat) :
    data.accgen600 i =
      (data.word16 i * 33553761 + 2 * data.word24 (i + 2) : Nat) * (220 / (2 * 1661900 * 1000 * 3600)) := by
  unfold Frame.accgen600 Frame.word16
  push_cast
  ring

theorem accgen600_lt_iff :
    data.accgen600 i < data'.accgen600 i ↔
      data.word16 i * 33553761 + 2 * data.word24 (i + 2) < data'.word16 i * 33553761 + 2 * data'.word24 (i + 2) := by
  rw [accgen600_eq, accgen600_eq, mul_lt_mul_iff_left₀ (by norm_num), Nat.cast_lt]

/-- From `data` to `data'` the upper part of a counter goes up by one and the lower part down by so much that the
YC600 constant for the upper part does not make up for it. -/
def RollsOver (i : Nat) (data data' : Frame) : Prop :=
  data'.word16 i = data.word16 i + 1 ∧ data'.word24 (i + 2) + 16776881 ≤ data.word24 (i + 2)

instance : Decidable (RollsOver i data data') :=
  inferInstanceAs (Decidable (_ ∧ _))

theorem RollsOver.counter_lt (rolls : RollsOver i data data') : data.counter i < data'.counter i := by
  have low := data.word24_lt (i + 2)
  obtain ⟨up, -⟩ := rolls
  unfold Frame.counter
  omega

/-- Two YC600 accumulators compare the way their counters do unless one rolls over to the other. -/
theorem accgen600_cmp :
    cmp (data.accgen600 i) (data'.accgen600 i) = cmp (data.counter i) (data'.counter i) ↔
      ¬ RollsOver i data data' ∧ ¬ RollsOver i data' data := by
  have low := data.word24_lt (i + 2)
  have low' := data'.word24_lt (i + 2)
  rw [cmp_eq_cmp_iff, accgen600_lt_iff, accgen600_lt_iff]
  unfold RollsOver Frame.counter
  omega

theorem accgen1000_cmp : cmp (data.accgen1000 i) (data'.accgen1000 i) = cmp (data.counter i) (data'.counter i) :=
  cmp_eq_cmp_iff.2 ⟨accgen1000_lt_iff, accgen1000_lt_iff⟩

end Counters

/-! ## The packed fields -/

/-- An integer quotient is the quotient where nothing is left over. -/
theorem quotient_eq_iff {k n v : Nat} (positive : 0 < n) : ((v * k / n : Nat) : ℚ) = k / n * v ↔ n ∣ v * k := by
  have nonzero : (n : ℚ) ≠ 0 := by exact_mod_cast positive.ne'
  have whole : (k : ℚ) / n * v = (v * k : Nat) / n := by
    push_cast
    ring
  rw [whole, eq_div_iff nonzero, ← Nat.cast_mul, Nat.cast_inj]
  exact Nat.dvd_iff_div_mul_eq (v * k) n |>.symm

/-- Twelve bits times an odd scale leave something over, zero apart. -/
theorem quotient12_eq_iff {k v : Nat} (odd : Nat.Coprime 4096 k) (twelve : v < 4096) :
    ((v * k / 4096 : Nat) : ℚ) = k / 4096 * v ↔ v = 0 := by
  have divides := quotient_eq_iff (k := k) (n := 4096) (v := v) (by decide)
  rw [Nat.cast_ofNat] at divides
  rw [divides, odd.dvd_mul_right]
  constructor
  · intro whole
    exact Nat.eq_zero_of_dvd_of_lt whole twelve
  · intro zero
    exact zero ▸ Nat.dvd_zero 4096

theorem quotient12_floor (k v : Nat) : ((v * k / 4096 : Nat) : ℚ) = ⌊(k / 4096 * v : ℚ)⌋₊ := by
  have whole : (k : ℚ) / 4096 * v = (v * k : Nat) / (4096 : Nat) := by
    push_cast
    ring
  rw [whole, Nat.floor_div_eq_div]

/-- A voltage of a YC600 report takes the nibble for sixteen times what it is. -/
theorem shifted_eq_iff {b c k : Nat} (positive : 0 < k) :
    ((b * 16 + c / 16 * 16 : Nat) : ℚ) * (k / 10) / 4096 = k / 10 / 4096 * (b * 16 + c / 16 : Nat) ↔ c / 16 = 0 := by
  have nonzero : (k : ℚ) / 10 / 4096 ≠ 0 := by positivity
  have turned :
      ((b * 16 + c / 16 * 16 : Nat) : ℚ) * (k / 10) / 4096 = k / 10 / 4096 * (b * 16 + c / 16 * 16 : Nat) := by
    ring
  rw [turned, mul_right_inj' nonzero, Nat.cast_inj]
  omega

/-! ## The decoders -/

namespace Decoder

/-- The measurements and accumulators that a resolve function starts from. -/
def decode (T : Target) : Decoder → Frame → Inverter → Inverter
  | yc600, data =>
    decode600 T ((((data.byte 0 * 256 + data.byte 1) * 330 : Nat) - 245760 : Int).tdiv 4096)
      ((data.byte 18 * 256 + data.byte 19 : Nat) / (13277 / 10000)) data
  | yc600New, data =>
    decode600 T (T.toInt ((((data.byte 0 * 256 + data.byte 1) * 3300 / 4092 : Nat) - 757 : Int) / (285 / 100)))
      ((data.byte 18 * 256 + data.byte 19 : Nat) / (133 / 100)) data
  | yc1000, data => decode1000 T data

/-- An energy channel: where its counter starts and the accumulator it is decoded to. -/
structure Channel where
  start : Nat
  acc : Inverter → ℚ

/-- The channels of a frame. -/
def meters : Decoder → List Channel
  | yc1000 => [⟨27, Inverter.curaccgen⟩, ⟨32, Inverter.curaccgenb⟩, ⟨37, Inverter.curaccgenc⟩,
      ⟨42, Inverter.curaccgend⟩]
  | _ => [⟨32, Inverter.curaccgen⟩, ⟨27, Inverter.curaccgenb⟩]

/-- A packed voltage or current: its twelve bits, the scale, and the field it is decoded to. -/
structure Packed where
  bits : Frame → Nat
  scale : ℚ
  field : Inverter → ℚ

/-- The packed fields of a frame. -/
def packed : Decoder → List Packed
  | yc1000 =>
    [⟨(·.byteNibble 9 10), 825 / 4096, Inverter.dv⟩, ⟨(·.byteNibble 9 10), 825 / 4096, Inverter.dvb⟩,
      ⟨(·.byteNibble 9 10), 825 / 4096, Inverter.dvc⟩, ⟨(·.byteNibble 9 10), 825 / 4096, Inverter.dvd⟩,
      ⟨(·.byteNibble 12 13), 275 / 4096, Inverter.di⟩, ⟨(·.nibbleByte 13 14), 275 / 4096, Inverter.dib⟩,
      ⟨(·.byteNibble 15 16), 275 / 4096, Inverter.dic⟩, ⟨(·.nibbleByte 16 17), 275 / 4096, Inverter.did⟩]
  | _ =>
    [⟨(·.byteNibble 14 13), 825 / 10 / 4096, Inverter.dv⟩, ⟨(·.byteNibble 17 16), 825 / 10 / 4096, Inverter.dvb⟩,
      ⟨(·.nibbleByte 13 12), 275 / 10 / 4096, Inverter.di⟩, ⟨(·.nibbleByte 16 15), 275 / 10 / 4096, Inverter.dib⟩]

variable (T : Target) (d : Decoder)

/-- The accumulators of two frames compare the way their counters do. -/
def KeepsOrder (data data' : Frame) (inverter inverter' : Inverter) : Prop :=
  ∀ c ∈ d.meters, cmp (c.acc (d.decode T data inverter)) (c.acc (d.decode T data' inverter')) =
    cmp (data.counter c.start) (data'.counter c.start)

/-- Every packed field is its scale times its twelve bits. -/
def Scales (data : Frame) (inverter : Inverter) : Prop :=
  ∀ p ∈ d.packed, p.field (d.decode T data inverter) = p.scale * p.bits data

/-- The packed fields of two frames compare the way their twelve bits do. -/
def Monotone (data data' : Frame) (inverter inverter' : Inverter) : Prop :=
  ∀ p ∈ d.packed, p.bits data ≤ p.bits data' →
    p.field (d.decode T data inverter) ≤ p.field (d.decode T data' inverter')

/-- The decoder reads a pair of frames in order and to scale. -/
structure Lawful (data data' : Frame) (inverter inverter' : Inverter) : Prop where
  order : d.KeepsOrder T data data' inverter inverter'
  scales : d.Scales T data inverter
  scales' : d.Scales T data' inverter'
  monotone : d.Monotone T data data' inverter inverter'

/-- No counter rolls over from one frame to the other, as far as the decoder takes the two parts of it apart. -/
def NoRollOver (data data' : Frame) : Prop :=
  d = yc1000 ∨ ∀ c ∈ d.meters, ¬ RollsOver c.start data data' ∧ ¬ RollsOver c.start data' data

/-- The frames whose packed fields are read to scale: on a YC600 the nibbles of the voltages are zero; the integer
quotients of a YC1000 are whole for zero only. -/
def Plain : Decoder → Frame → Prop
  | yc1000, data => data.byteNibble 9 10 = 0 ∧ data.byteNibble 12 13 = 0 ∧ data.nibbleByte 13 14 = 0 ∧
      data.byteNibble 15 16 = 0 ∧ data.nibbleByte 16 17 = 0
  | _, data => data.byte 13 / 16 = 0 ∧ data.byte 16 / 16 = 0

variable {T : Target} {d : Decoder} {data data' : Frame} {inverter inverter' : Inverter}

theorem keepsOrder_iff : d.KeepsOrder T data data' inverter inverter' ↔ d.NoRollOver data data' := by
  cases d with
  | yc600 => simp [KeepsOrder, NoRollOver, meters, decode, decode600, accgen600_cmp]
  | yc600New => simp [KeepsOrder, NoRollOver, meters, decode, decode600, accgen600_cmp]
  | yc1000 => simp [KeepsOrder, NoRollOver, meters, decode, decode1000, accgen1000_cmp]

theorem scales600_iff {it : Int} {gv : ℚ} :
    (∀ p ∈ packed yc600, p.field (decode600 T it gv data inverter) = p.scale * p.bits data) ↔
      data.byte 13 / 16 = 0 ∧ data.byte 16 / 16 = 0 := by
  have dv := shifted_eq_iff (b := data.byte 14) (c := data.byte 13) (k := 825) (by decide)
  have dvb := shifted_eq_iff (b := data.byte 17) (c := data.byte 16) (k := 825) (by decide)
  have current (v : Nat) : (v : ℚ) * (275 / 10) / 4096 = 275 / 10 / 4096 * v := by ring
  rw [Nat.cast_ofNat] at dv dvb
  simp only [packed, List.forall_mem_cons, List.not_mem_nil, false_implies, implies_true, and_true, decode600,
    Frame.byteNibble, Frame.nibbleByte, dv, dvb, current]

theorem scales1000_iff :
    (∀ p ∈ packed yc1000, p.field (decode1000 T data inverter) = p.scale * p.bits data) ↔ Plain yc1000 data := by
  have voltage (i j : Nat) := quotient12_eq_iff (k := 825) (by decide) (data.byteNibble_lt i j)
  have high (i j : Nat) := quotient12_eq_iff (k := 275) (by decide) (data.byteNibble_lt i j)
  have low (j i : Nat) := quotient12_eq_iff (k := 275) (by decide) (data.nibbleByte_lt j i)
  rw [Nat.cast_ofNat] at voltage high low
  have last (i : Nat) : data.low12 i = data.nibbleByte i (i + 1) := rfl
  simp only [packed, List.forall_mem_cons, List.not_mem_nil, false_implies, implies_true, and_true, decode1000,
    Frame.high12_eq, last, voltage, high, low, and_self_left, Plain]

theorem scales_iff : d.Scales T data inverter ↔ d.Plain data := by
  cases d with
  | yc600 => exact scales600_iff
  | yc600New => exact scales600_iff
  | yc1000 => exact scales1000_iff

/-- A YC1000 field is the whole part of its scale times its twelve bits. -/
theorem floor1000 (T : Target) (data : Frame) (inverter : Inverter) :
    ∀ p ∈ packed yc1000, p.field (decode1000 T data inverter) = ⌊p.scale * p.bits data⌋₊ := by
  have voltage (v : Nat) := quotient12_floor 825 v
  have current (v : Nat) := quotient12_floor 275 v
  rw [Nat.cast_ofNat] at voltage current
  have last (i : Nat) : data.low12 i = data.nibbleByte i (i + 1) := rfl
  simp only [packed, List.forall_mem_cons, List.not_mem_nil, false_implies, implies_true, and_true, decode1000,
    Frame.high12_eq, last, voltage, current]

theorem packed_scale_nonneg (d : Decoder) : ∀ p ∈ d.packed, 0 ≤ p.scale := by
  cases d <;> simp [packed] <;> norm_num

/-- What is read to scale is in order. -/
theorem Scales.monotone (scales : d.Scales T data inverter) (scales' : d.Scales T data' inverter') :
    d.Monotone T data data' inverter inverter' := by
  intro p mem ordered
  rw [scales p mem, scales' p mem]
  exact mul_le_mul_of_nonneg_left (Nat.cast_le.2 ordered) (packed_scale_nonneg d p mem)

/-- Whole parts are in order too. -/
theorem monotone1000 : yc1000.Monotone T data data' inverter inverter' := by
  intro p mem ordered
  have whole := floor1000 T data inverter p mem
  have whole' := floor1000 T data' inverter' p mem
  change p.field (decode1000 T data inverter) ≤ p.field (decode1000 T data' inverter')
  rw [whole, whole', Nat.cast_le]
  exact Nat.floor_le_floor (mul_le_mul_of_nonneg_left (Nat.cast_le.2 ordered) (packed_scale_nonneg yc1000 p mem))

/-- The resolve functions keep the accumulators that they decode. -/
theorem resolve_acc (T : Target) (ecu : EcuInfo) (d : Decoder) (data : Frame) (inverter : Inverter) :
    ∀ c ∈ d.meters, c.acc (d.resolve T ecu data inverter).2 = c.acc (d.decode T data inverter) := by
  have first (it : Int) (gv : ℚ) (web : List Byte) (high low : Nat) :
      ∀ c ∈ meters yc600, c.acc (resolve600 T ecu it gv web high low data inverter).2 =
        c.acc (decode600 T it gv data inverter) := by
    obtain ⟨ema, flag, frame⟩ := yc600Status_frame _
    rw [resolve600, frame]
    simp only [meters, List.forall_mem_cons, List.not_mem_nil, false_implies, implies_true, and_true]
    exact ⟨rfl, rfl⟩
  cases d with
  | yc600 => exact first _ _ _ _ _
  | yc600New => exact first _ _ _ _ _
  | yc1000 =>
    change ∀ c ∈ meters yc1000, c.acc (resolvedata1000 T ecu data inverter).2 = c.acc (decode1000 T data inverter)
    simp only [meters, List.forall_mem_cons, List.not_mem_nil, false_implies, implies_true, and_true]
    by_cases jumped : Jumped (decode1000 T data inverter)
    · rw [resolvedata1000]
      dsimp only
      rw [if_pos jumped]
      exact ⟨rfl, rfl, rfl, rfl⟩
    · obtain ⟨ema, flag, frame⟩ := yc1000Status_frame _
      rw [resolvedata1000]
      dsimp only
      rw [if_neg jumped, frame]
      exact ⟨rfl, rfl, rfl, rfl⟩

/-- A decoder reads two frames lawfully exactly when no counter rolls over between them and their packed fields are
plain; a YC1000 reads the whole part of a field in any case. -/
theorem lawful_iff (T : Target) (d : Decoder) (data data' : Frame) (inverter inverter' : Inverter) :
    (d.Lawful T data data' inverter inverter' ↔ d.NoRollOver data data' ∧ d.Plain data ∧ d.Plain data') ∧
      (∀ p ∈ yc1000.packed, p.field (yc1000.decode T data inverter) = ⌊p.scale * p.bits data⌋₊) ∧
      yc1000.Monotone T data data' inverter inverter' := by
  refine ⟨?_, floor1000 T data inverter, monotone1000⟩
  constructor
  · intro lawful
    exact ⟨keepsOrder_iff.1 lawful.order, scales_iff.1 lawful.scales, scales_iff.1 lawful.scales'⟩
  · rintro ⟨noRollOver, plain, plain'⟩
    have scales : d.Scales T data inverter := scales_iff.2 plain
    have scales' : d.Scales T data' inverter' := scales_iff.2 plain'
    exact ⟨keepsOrder_iff.2 noRollOver, scales, scales', scales.monotone scales'⟩

/-- A YC600 frame with this counter on the first channel and zeros elsewhere. -/
def countFrame (counter : List Byte) : Frame :=
  List.replicate 32 nul ++ counter ++ List.replicate 51 nul

/-- The counter goes from `00 00 FF FF FF` to `00 01 00 00 00` and the accumulator of `resolvedata_600` goes down. -/
theorem counter_rolls_over :
    ¬ ∀ (T : Target) (d : Decoder) (data data' : Frame) (inverter inverter' : Inverter),
      d.Lawful T data data' inverter inverter' := by
  intro all
  have lawful := all sampleTarget yc600 (countFrame [0, 0, 255, 255, 255]) (countFrame [0, 1, 0, 0, 0])
    { id := [], model := 7 } { id := [], model := 7 }
  have none : yc600.NoRollOver (countFrame [0, 0, 255, 255, 255]) (countFrame [0, 1, 0, 0, 0]) :=
    keepsOrder_iff.1 lawful.order
  rcases none with other | none
  · cases other
  · exact (none ⟨32, Inverter.curaccgen⟩ (.head _)).1 (by decide)

end Decoder

end Ecu
