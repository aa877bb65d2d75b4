import Ecu.Protection.Agree

/-!
# The frames of five parameters (`set_protection_parameters.c`, `set_protection_parameters_inverter.c`)

Older YC1000 take five parameters in one frame: the new value and, from the table of the settings, the other four. The
table is opened and its lines are counted through, but what is split is the buffer for the result, and for a single
inverter no row is ever found. So the other four are sent as zero, whatever is stored (`grouped_frames_iff`).
-/

namespace Ecu.Protection

/-! ## The five parameters -/

/-- The parameters of one frame, in their order. -/
inductive Grouped where
  | underVoltageSlow | overVoltageSlow | underFrequencySlow | overFrequencySlow | gridRecoveryTime
deriving DecidableEq

namespace Grouped

def param : Grouped → Param
  | underVoltageSlow => .underVoltageSlow
  | overVoltageSlow => .overVoltageSlow
  | underFrequencySlow => .underFrequencySlow
  | overFrequencySlow => .overFrequencySlow
  | gridRecoveryTime => .gridRecoveryTime

/-- Where it stands in the frame. -/
def offset : Grouped → Nat
  | underVoltageSlow => 4
  | overVoltageSlow => 7
  | underFrequencySlow => 10
  | overFrequencySlow => 12
  | gridRecoveryTime => 14

def width : Grouped → Nat
  | underVoltageSlow | overVoltageSlow => 3
  | underFrequencySlow | overFrequencySlow | gridRecoveryTime => 2

/-- Its column in the table `proparas`. -/
def column : Grouped → Nat
  | underVoltageSlow => 4
  | overVoltageSlow => 5
  | underFrequencySlow => 8
  | overFrequencySlow => 9
  | gridRecoveryTime => 14

/-- The number that an inverter takes for a value. -/
def encode (T : Target) (value : List Byte) : Grouped → Int
  | underVoltageSlow | overVoltageSlow => scaled T value (1161445 / 100)
  | underFrequencySlow | overFrequencySlow => inverse T value 256000
  | gridRecoveryTime => scaled T value 1

end Grouped

/-- `set_*_yc1000_5` -/
def frameAll (T : Target) (file value : List Byte) : Grouped → List Byte
  | .underVoltageSlow => setUndervoltageSlowYc10005 T file value
  | .overVoltageSlow => setOvervoltageSlowYc10005 T file value
  | .underFrequencySlow => setUnderfrequencySlowYc10005 T file value
  | .overFrequencySlow => setOverfrequencySlowYc10005 T file value
  | .gridRecoveryTime => setGridRecoveryTimeYc10005 T file value

/-- `set_*_yc1000_one_5` -/
def frameOne (T : Target) (value : List Byte) : Grouped → List Byte
  | .underVoltageSlow => setUndervoltageSlowYc1000One5 T value
  | .overVoltageSlow => setOvervoltageSlowYc1000One5 T value
  | .underFrequencySlow => setUnderfrequencySlowYc1000One5 T value
  | .overFrequencySlow => setOverfrequencySlowYc1000One5 T value
  | .gridRecoveryTime => setGridRecoveryTimeYc1000One5 T value

/-! ## What is stored -/

/-- The value in the last row of `setpropa` that has the name. -/
def storedAll (file : List Byte) (g : Grouped) : Option (List Byte) :=
  let rows := (Lines.readLines newline 200 file).map splitString
  (rows.reverse.find? fun splitdata => splitdata.getD 0 [] = g.param.text).map fun splitdata => splitdata.getD 1 []

/-- The value in the first row of `proparas` that has the id, unless its column is empty. -/
def storedOne (file id : List Byte) (g : Grouped) : Option (List Byte) :=
  let rows := (Lines.readLines newline 200 file).map splitString
  ((rows.find? fun splitdata => splitdata.getD 0 [] = cstr id).map fun splitdata => splitdata.getD g.column []).filter
    fun value => value ≠ []

/-! ## What a frame should be -/

/-- The number in some bytes, the highest one first. -/
def bigEndian (bytes : List Byte) : Nat :=
  bytes.foldl (fun n b => n * 256 + b.toNat) 0

def Grouped.field (frame : List Byte) (g : Grouped) : Int :=
  bigEndian ((frame.drop g.offset).take g.width)

/-- The number of a stored value; a parameter that is not in the table is zero. -/
def Grouped.kept (T : Target) (stored : Grouped → Option (List Byte)) (g : Grouped) : Int :=
  ((stored g).map fun value => g.encode T value).getD 0

/-- A frame for a parameter: the new value, the stored values of the others, fixed bytes, and the sum. -/
structure Carries (T : Target) (stored : Grouped → Option (List Byte)) (value : List Byte) (order : Byte) (g : Grouped)
    (frame : List Byte) : Prop where
  head : frame.take 4 = [0xFB, 0xFB, 0x10, order]
  unused : (frame.drop 16).take 3 = [0, 0, 0]
  ending : frame.drop 21 = [0xFE, 0xFE]
  sum : bigEndian ((frame.drop 19).take 2) = (((frame.drop 2).take 17).map UInt8.toNat).sum
  new : g.field frame = g.encode T value
  others : ∀ h ≠ g, Grouped.field frame h = h.kept T stored

/-- The number has room in its field. -/
def Grouped.Fits (g : Grouped) (v : Int) : Prop :=
  0 ≤ v ∧ v < 256 ^ g.width

/-! ## What the loop would take -/

/-- The member of a parameter. -/
def Five.number (five : Five) : Grouped → Int
  | .underVoltageSlow => five.underVoltageSlow
  | .overVoltageSlow => five.overVoltageSlow
  | .underFrequencySlow => five.underFrequencySlow
  | .overFrequencySlow => five.overFrequencySlow
  | .gridRecoveryTime => five.gridRecoveryTime

theorem Grouped.text_eq_iff {g h : Grouped} : g.param.text = h.param.text ↔ g = h := by
  constructor
  · intro same
    have param := Param.text_injective same
    cases g <;> cases h <;> first | rfl | cases param
  · rintro rfl
    rfl

/-- A row sets the member of its name. -/
theorem Five.take_number (T : Target) (splitdata : List (List Byte)) (five : Five) (g : Grouped) :
    (five.take T splitdata).number g =
      if splitdata.getD 0 [] = g.param.text then g.encode T (splitdata.getD 1 []) else five.number g := by
  have time (x : ℚ) : T.toInt (x * 1) = T.toInt x := by rw [mul_one]
  change Five.number (if splitdata.getD 0 [] = Grouped.underVoltageSlow.param.text then _
    else if splitdata.getD 0 [] = Grouped.overVoltageSlow.param.text then _
    else if splitdata.getD 0 [] = Grouped.underFrequencySlow.param.text then _
    else if splitdata.getD 0 [] = Grouped.overFrequencySlow.param.text then _
    else if splitdata.getD 0 [] = Grouped.gridRecoveryTime.param.text then _ else five) g = _
  by_cases known : ∃ h : Grouped, splitdata.getD 0 [] = h.param.text
  · obtain ⟨h, name⟩ := known
    simp only [name, Grouped.text_eq_iff]
    cases h <;> cases g <;> simp [Five.number, Grouped.encode, scaled, inverse]
  · have none (h : Grouped) : ¬ splitdata.getD 0 [] = h.param.text := fun name => known ⟨h, name⟩
    simp only [none, if_false]

/-- Were the line split that is read, the last row of each name would be taken. -/
theorem taken_kept (T : Target) (file : List Byte) (g : Grouped) :
    ((Lines.readLines newline 200 file).foldl (fun (five : Five) line => five.take T (splitString line)) {}).number g =
      g.kept T (storedAll file) := by
  rw [Grouped.kept, storedAll]
  induction Lines.readLines newline 200 file using List.reverseRecOn with
  | nil => cases g <;> rfl
  | append_singleton lines line ih =>
    rw [List.foldl_append, List.foldl_cons, List.foldl_nil, Five.take_number, ih, List.map_append, List.map_singleton,
      List.reverse_append, List.reverse_singleton, List.singleton_append]
    split_ifs with name
    · rw [List.find?_cons_of_pos (by simpa using name)]
      rfl
    · rw [List.find?_cons_of_neg (by simpa using name)]
/-! ## Bytes -/

theorem bigEndian_snoc (bytes : List Byte) (b : Byte) : bigEndian (bytes ++ [b]) = bigEndian bytes * 256 + b.toNat := by
  rw [bigEndian, List.foldl_append]
  rfl

theorem bigEndian_lt (bytes : List Byte) : bigEndian bytes < 256 ^ bytes.length := by
  induction bytes using List.reverseRecOn with
  | nil => exact Nat.one_pos
  | append_singleton bytes b ih =>
    have low := b.toNat_lt
    rw [bigEndian_snoc, List.length_append, List.length_singleton, Nat.pow_succ]
    omega

theorem toNat_ofInt (v : Int) : ((UInt8.ofInt v).toNat : Int) = v % 256 := by
  rw [UInt8.ofInt, UInt8.toNat_ofNat']
  omega

theorem bigEndian_threeBytes {v : Int} (nonneg : 0 ≤ v) (small : v < 256 ^ 3) :
    (bigEndian (threeBytes v) : Int) = v := by
  have shape : (bigEndian (threeBytes v) : Int) =
      (((UInt8.ofInt (v.tdiv 65536)).toNat : Int) * 256 + (UInt8.ofInt ((v.tmod 65536).tdiv 256)).toNat) * 256 +
        (UInt8.ofInt (v.tmod 256)).toNat := by
    simp [bigEndian, threeBytes]
  rw [shape, toNat_ofInt, toNat_ofInt, toNat_ofInt, Int.tdiv_eq_ediv_of_nonneg nonneg,
    Int.tmod_eq_emod_of_nonneg nonneg,
    Int.tmod_eq_emod_of_nonneg nonneg, Int.tdiv_eq_ediv_of_nonneg (Int.emod_nonneg v (by decide))]
  omega

theorem bigEndian_twoBytes {v : Int} (nonneg : 0 ≤ v) (small : v < 256 ^ 2) : (bigEndian (twoBytes v) : Int) = v := by
  have shape : (bigEndian (twoBytes v) : Int) =
      ((UInt8.ofInt (v.tdiv 256)).toNat : Int) * 256 + (UInt8.ofInt (v.tmod 256)).toNat := by
    simp [bigEndian, twoBytes]
  rw [shape, toNat_ofInt, toNat_ofInt, Int.tdiv_eq_ediv_of_nonneg nonneg, Int.tmod_eq_emod_of_nonneg nonneg]
  omega

/-- The bytes of a parameter's number. -/
def Grouped.bytes (v : Int) : Grouped → List Byte
  | underVoltageSlow | overVoltageSlow => threeBytes v
  | underFrequencySlow | overFrequencySlow | gridRecoveryTime => twoBytes v

theorem Grouped.bytes_length (g : Grouped) (v : Int) : (g.bytes v).length = g.width := by
  cases g <;> rfl

theorem Grouped.bigEndian_bytes (g : Grouped) (v : Int) : (bigEndian (g.bytes v) : Int) = v ↔ g.Fits v := by
  constructor
  · intro same
    have small := bigEndian_lt (g.bytes v)
    rw [g.bytes_length] at small
    have nonneg : 0 ≤ v := same ▸ Int.natCast_nonneg _
    exact ⟨nonneg, same ▸ by exact_mod_cast small⟩
  · rintro ⟨nonneg, small⟩
    cases g
    · exact bigEndian_threeBytes nonneg small
    · exact bigEndian_threeBytes nonneg small
    · exact bigEndian_twoBytes nonneg small
    · exact bigEndian_twoBytes nonneg small
    · exact bigEndian_twoBytes nonneg small

/-! ## The frames -/

/-- All fifteen bytes are zero but those of the parameter. -/
def Grouped.frame (order : Byte) (v : Int) (g : Grouped) : List Byte :=
  five1000 (List.replicate 15 0) order (g.offset - 4) (g.bytes v)

theorem bytes_zero : Five.bytes {} = List.replicate 15 0 := by
  decide

theorem frameAll_eq (T : Target) (file value : List Byte) (g : Grouped) :
    frameAll T file value g = g.frame 0xAC (g.encode T value) := by
  have zero : protectionData T file = List.replicate 15 0 := (protectionData_eq T file).trans bytes_zero
  rw [Grouped.frame, ← zero]
  cases g <;> rfl

theorem frameOne_eq (T : Target) (value : List Byte) (g : Grouped) :
    frameOne T value g = g.frame 0xCC (g.encode T value) := by
  have zero : readProtectionParametersOne5 = List.replicate 15 0 := bytes_zero
  rw [Grouped.frame, ← zero]
  cases g <;> rfl

theorem sum_le (bytes : List Byte) : (bytes.map UInt8.toNat).sum ≤ 255 * bytes.length := by
  induction bytes with
  | nil => exact Nat.le_refl 0
  | cons b bytes ih =>
    have low := b.toNat_lt
    rw [List.map_cons, List.sum_cons, List.length_cons]
    omega

/-- A frame with fifteen bytes of data: what is around them, and the sum. -/
theorem command_around (order : Byte) {data : List Byte} (fifteen : data.length = 15) :
    (command 0x10 order data).take 4 = [0xFB, 0xFB, 0x10, order] ∧
      (command 0x10 order data).drop 21 = [0xFE, 0xFE] ∧
      bigEndian (((command 0x10 order data).drop 19).take 2) =
        ((((command 0x10 order data).drop 2).take 17).map UInt8.toNat).sum := by
  let check := ((0x10 :: order :: data).map UInt8.toNat).sum
  have shape : command 0x10 order data = [0xFB, 0xFB] ++ ((0x10 :: order :: data) ++
      [UInt8.ofNat (check / 256), UInt8.ofNat check, 0xFE, 0xFE]) := List.append_assoc _ _ _
  have body : (0x10 :: order :: data).length = 17 := congrArg (· + 2) fifteen
  have most := sum_le (0x10 :: order :: data)
  rw [body] at most
  have behind (n : Nat) : (command 0x10 order data).drop (19 + n) =
      [UInt8.ofNat (check / 256), UInt8.ofNat check, 0xFE, 0xFE].drop n := by
    rw [shape, ← List.append_assoc, ← List.drop_drop]
    refine congrArg (List.drop n) (List.drop_left' ?_)
    rw [List.length_append, body]
    rfl
  have sum : bigEndian [UInt8.ofNat (check / 256), UInt8.ofNat check] = check := by
    change (0 * 256 + (UInt8.ofNat (check / 256)).toNat) * 256 + (UInt8.ofNat check).toNat = check
    rw [UInt8.toNat_ofNat', UInt8.toNat_ofNat']
    omega
  refine ⟨by rw [shape]; rfl, behind 2, ?_⟩
  have start : ([0xFB, 0xFB] : List Byte).length = 2 := rfl
  rw [behind 0, shape, List.drop_left' start, List.take_left' body]
  exact sum

/-- What stands in the places of the fifteen bytes. -/
theorem command_part (order : Byte) {data : List Byte} (fifteen : data.length = 15) {p n : Nat} (inside : p + n ≤ 15) :
    ((command 0x10 order data).drop (4 + p)).take n = (data.drop p).take n := by
  have shape : command 0x10 order data = [0xFB, 0xFB, 0x10, order] ++ (data ++
      (command 0x10 order data).drop 19) := by
    rw [command]
    simp [fifteen]
  have start : ([0xFB, 0xFB, 0x10, order] : List Byte).length = 4 := rfl
  rw [shape, ← List.drop_drop, List.drop_left' start, List.drop_append_of_le_length (by omega),
    List.take_append_of_le_length (by rw [List.length_drop]; omega)]

namespace Grouped

variable (g : Grouped) (order : Byte) (v : Int)

/-- The data of the frame. -/
def data : List Byte :=
  (List.replicate 15 0).take (g.offset - 4) ++ g.bytes v ++
    ((List.replicate 15 0).take 15).drop (g.offset - 4 + (g.bytes v).length)

theorem data_length : (g.data v).length = 15 := by
  rw [data, List.length_append, List.length_append, g.bytes_length]
  cases g <;> rfl

/-- The bytes of the parameter are in its field, all others are zero. -/
theorem part_data : (∀ h : Grouped, ((g.data v).drop (h.offset - 4)).take h.width =
    if h = g then g.bytes v else List.replicate h.width 0) ∧ ((g.data v).drop 12).take 3 = [0, 0, 0] := by
  have length := g.bytes_length v
  rw [data]
  generalize g.bytes v = bytes at length
  cases g with
  | underVoltageSlow | overVoltageSlow =>
    obtain ⟨a, b, c, rfl⟩ := List.length_eq_three.1 length
    refine ⟨fun h => ?_, rfl⟩
    cases h <;> rfl
  | underFrequencySlow | overFrequencySlow | gridRecoveryTime =>
    obtain ⟨a, b, rfl⟩ := List.length_eq_two.1 length
    refine ⟨fun h => ?_, rfl⟩
    cases h <;> rfl

theorem bigEndian_zero (n : Nat) : bigEndian (List.replicate n 0) = 0 := by
  induction n with
  | zero => rfl
  | succ n ih =>
    rw [List.replicate_succ', bigEndian_snoc, ih]
    rfl

theorem field_frame (h : Grouped) : field (g.frame order v) h = if h = g then (bigEndian (g.bytes v) : Int) else 0 := by
  have place : 4 + (h.offset - 4) = h.offset := by cases h <;> rfl
  have inside : h.offset - 4 + h.width ≤ 15 := by cases h <;> decide
  have part := command_part order (g.data_length v) inside
  rw [place, (g.part_data v).1 h] at part
  rw [field, frame, five1000]
  change ((bigEndian (((command 0x10 order (g.data v)).drop h.offset).take h.width) : Nat) : Int) = _
  rw [part]
  split_ifs
  · rfl
  · rw [bigEndian_zero]
    rfl

/-- A frame carries what it should when the new value has room and the others are zero, and only then. -/
theorem frame_carries_iff (T : Target) (stored : Grouped → Option (List Byte)) (value : List Byte) :
    Carries T stored value order g (g.frame order (g.encode T value)) ↔
      g.Fits (g.encode T value) ∧ ∀ h ≠ g, h.kept T stored = 0 := by
  have fields := g.field_frame order (g.encode T value)
  have own := fields g
  rw [if_pos rfl] at own
  constructor
  · intro carries
    refine ⟨(g.bigEndian_bytes _).1 (own.symm.trans carries.new), fun h other => ?_⟩
    rw [← carries.others h other, fields h, if_neg other]
  · rintro ⟨fits, none⟩
    obtain ⟨head, ending, sum⟩ := command_around order (g.data_length (g.encode T value))
    refine ⟨head, ?_, ending, sum, own.trans ((g.bigEndian_bytes _).2 fits), fun h other => ?_⟩
    · exact (command_part order (g.data_length _) (show 12 + 3 ≤ 15 by decide)).trans (g.part_data _).2
    · rw [fields h, if_neg other, none h other]

end Grouped

/-- **Both families**: a frame has the new value if there is room for it, and of the other four the stored values only
where these are zero. -/
theorem grouped_frames_iff (T : Target) (setpropa proparas id value : List Byte) (g : Grouped) :
    (Carries T (storedAll setpropa) value 0xAC g (frameAll T setpropa value g) ↔
        g.Fits (g.encode T value) ∧ ∀ h ≠ g, h.kept T (storedAll setpropa) = 0) ∧
      (Carries T (storedOne proparas id) value 0xCC g (frameOne T value g) ↔
        g.Fits (g.encode T value) ∧ ∀ h ≠ g, h.kept T (storedOne proparas id) = 0) := by
  rw [frameAll_eq, frameOne_eq]
  exact ⟨g.frame_carries_iff 0xAC T (storedAll setpropa) value,
    g.frame_carries_iff 0xCC T (storedOne proparas id) value⟩

/-- A table with an overvoltage: it is not in the frame of a new undervoltage. -/
def storedSettings : List Byte :=
  str "over_voltage_slow,260,1" ++ [newline]

theorem stored_dropped :
    ((storedAll storedSettings .overVoltageSlow).map fun value => Grouped.encode sampleTarget value .overVoltageSlow) =
        some 3019757 ∧
      Grouped.field (frameAll sampleTarget storedSettings (str "180") .underVoltageSlow) .overVoltageSlow = 0 := by
  decide +kernel

end Ecu.Protection
