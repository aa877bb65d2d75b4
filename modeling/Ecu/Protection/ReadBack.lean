import Ecu.Protection.Answer

/-!
# What the answer shows after A132

A132 for all inverters writes the table anew, and `clear_flag` keeps only the whole part of a value. So the answer
shows what was sent, and before where nothing was sent, exactly when there was nothing before and no value that has
been applied has decimals (`readBack_iff`).
-/

namespace Ecu.Protection

open Param Socket

/-! ## The fields of a message -/

/-- All characters are `A`: the parameter is not in the message. -/
def Absent (field : Field) (msg : List Byte) : Prop :=
  field.cut msg = List.replicate field.len letterA

instance (field : Field) (msg : List Byte) : Decidable (Absent field msg) :=
  inferInstanceAs (Decidable (_ = _))

/-- A field of digits. -/
def Shows (field : Field) (msg : List Byte) : Prop :=
  (field.cut msg).length = field.len ∧ ∀ b ∈ field.cut msg, Decimal.IsDigit b

instance (field : Field) (msg : List Byte) : Decidable (Shows field msg) :=
  inferInstanceAs (Decidable (_ ∧ _))

/-- A message for all inverters whose fields are absent or have digits. -/
structure WellFormed132 (msg : List Byte) : Prop where
  all : msgGetInt (msg.drop 44) 3 = 0
  fields : ∀ field ∈ fields132, Absent field msg ∨ Shows field msg

/-- The number in a field. -/
def Field.number (field : Field) (msg : List Byte) : Nat :=
  Decimal.value (field.cut msg)

theorem take_cstr {s : List Byte} {n : Nat} (clean : ∀ b ∈ s.take n, b ≠ nul) : (cstr s).take n = s.take n := by
  induction s generalizing n with
  | nil => rfl
  | cons b s ih =>
    cases n with
    | zero => rfl
    | succ n =>
      rw [List.take_succ_cons] at clean ⊢
      have first : (b != nul) = true := bne_iff_ne.2 (clean b List.mem_cons_self)
      rw [cstr, List.takeWhile_cons_of_pos (p := fun x => x != nul) first, List.take_succ_cons]
      congr 1
      exact ih fun c mem => clean c (List.mem_cons_of_mem b mem)

theorem digit_ne {b : Byte} (digit : Decimal.IsDigit b) : b ≠ nul ∧ b ≠ letterA := by
  constructor
  · rintro rfl
    exact absurd digit (by decide)
  · rintro rfl
    exact absurd digit (by decide)

theorem atoi_of_digits {s : List Byte} (some : s ≠ []) (digits : ∀ b ∈ s, Decimal.IsDigit b) :
    atoi s = Decimal.value s := by
  have read := atoi_unsigned some digits stops_nil
  rwa [List.append_nil] at read

/-- A field of `A` reads as -1. -/
theorem msgGetInt_letters (len : Nat) (rest : List Byte) : msgGetInt (List.replicate len letterA ++ rest) len = -1 := by
  have front : (List.replicate len letterA ++ rest).take len = List.replicate len letterA :=
    List.take_left' List.length_replicate
  have clean : ∀ b ∈ (List.replicate len letterA ++ rest).take len, b ≠ nul := by
    intro b mem
    rw [front] at mem
    rw [List.eq_of_mem_replicate mem]
    decide
  rw [msgGetInt, take_cstr clean, front, List.count_replicate_self]
  exact if_pos (Nat.le_refl len)

/-- A field of digits reads as their number. -/
theorem msgGetInt_digits {s : List Byte} (some : s ≠ []) (digits : ∀ b ∈ s, Decimal.IsDigit b) (rest : List Byte) :
    msgGetInt (s ++ rest) s.length = Decimal.value s := by
  have front : (s ++ rest).take s.length = s := List.take_left' rfl
  have clean : ∀ b ∈ (s ++ rest).take s.length, b ≠ nul := by
    rw [front]
    exact fun b mem => (digit_ne (digits b mem)).1
  have none : letterA ∉ s := fun mem => (digit_ne (digits letterA mem)).2 rfl
  have same : unpadded s = s := by
    have kept : s.map (fun b => if b = letterA then digit 0 else b) = s.map id :=
      List.map_congr_left fun b mem => if_neg (digit_ne (digits b mem)).2
    rw [unpadded, kept, List.map_id]
  have width : 0 < s.length := List.length_pos_iff.2 some
  rw [msgGetInt, take_cstr clean, front, List.count_eq_zero.2 none, if_neg (Nat.not_le.2 width), same,
    atoi_of_digits some digits]

theorem msgGetInt_absent {field : Field} {msg : List Byte} (absent : Absent field msg) :
    msgGetInt (msg.drop field.place) field.len = -1 := by
  have split : msg.drop field.place = List.replicate field.len letterA ++ (msg.drop field.place).drop field.len := by
    rw [← absent, Field.cut, List.take_append_drop]
  rw [split]
  exact msgGetInt_letters field.len _

theorem msgGetInt_shows {field : Field} {msg : List Byte} (width : 0 < field.len) (shows : Shows field msg) :
    msgGetInt (msg.drop field.place) field.len = field.number msg := by
  have some : field.cut msg ≠ [] := List.length_pos_iff.1 (shows.1 ▸ width)
  have read := msgGetInt_digits some shows.2 ((msg.drop field.place).drop field.len)
  rwa [shows.1, Field.cut, List.take_append_drop] at read

/-! ## The parameters of a message -/

theorem foldl_getAcProtection (msg : List Byte) {fields : List Field} (distinct : (fields.map Field.name).Nodup)
    (settings : Settings) {field : Field} (mem : field ∈ fields) :
    fields.foldl (getAcProtection msg) settings field.name =
      if 0 ≤ msgGetInt (msg.drop field.place) field.len then
        some ((msgGetInt (msg.drop field.place) field.len : ℚ) / 10 ^ field.decimal)
      else settings field.name := by
  induction fields generalizing settings with
  | nil => exact absurd mem List.not_mem_nil
  | cons first fields ih =>
    rw [List.map_cons, List.nodup_cons] at distinct
    rw [List.foldl_cons]
    rcases List.mem_cons.1 mem with rfl | later
    · have kept : ∀ settings, fields.foldl (getAcProtection msg) settings field.name = settings field.name := by
        intro settings
        apply List.foldlRecOn (motive := fun after : Settings => after field.name = settings field.name) _ _ rfl
        intro before same other inFields
        have different : field.name ≠ other.name := by
          intro here
          exact distinct.1 (here ▸ List.mem_map_of_mem inFields)
        unfold getAcProtection
        split_ifs
        · rw [Function.update_of_ne different, same]
        · exact same
      rw [kept]
      unfold getAcProtection
      split_ifs
      · rw [Function.update_self]
      · rfl
    · have different : field.name ≠ first.name := by
        intro here
        exact distinct.1 (here ▸ List.mem_map_of_mem later)
      have before : getAcProtection msg settings first field.name = settings field.name := by
        unfold getAcProtection
        split_ifs
        · rw [Function.update_of_ne different]
        · rfl
      rw [ih distinct.2 _ later, before]

theorem settings132_field {msg : List Byte} (wf : WellFormed132 msg) {field : Field} (mem : field ∈ fields132) :
    settings132 msg field.name =
      if Absent field msg then none else some ((field.number msg : ℚ) / 10 ^ field.decimal) := by
  have width := (fields132_len field mem).1
  rw [settings132, foldl_getAcProtection msg (by decide) _ mem]
  rcases wf.fields field mem with absent | shows
  · rw [msgGetInt_absent absent, if_pos absent]
    rfl
  · have present : ¬ Absent field msg := by
      intro absent
      have here : letterA ∈ field.cut msg := by
        rw [absent]
        exact List.mem_replicate.2 ⟨width.ne', rfl⟩
      exact (digit_ne (shows.2 letterA here)).2 rfl
    rw [msgGetInt_shows width shows, if_neg present, if_pos (Int.natCast_nonneg _), Int.cast_natCast]

/-! ## The rows of a name -/

/-- The rows of a name in a table. -/
def Setpropa.rowsOf (table : Setpropa) (p : Param) : List Row :=
  table.rows.filter fun row => row.name = p

/-- The rows that a function makes of distinct names. -/
theorem filter_filterMap {f : Param → Option Row} (names : ∀ p row, f p = some row → row.name = p) (p : Param)
    {ps : List Param} (distinct : ps.Nodup) :
    (ps.filterMap f).filter (fun row => row.name = p) = if p ∈ ps then (f p).toList else [] := by
  induction ps with
  | nil => rfl
  | cons q ps ih =>
    rw [List.nodup_cons] at distinct
    have later := ih distinct.2
    rw [List.filterMap_cons]
    by_cases same : p = q
    · subst same
      rw [if_neg distinct.1] at later
      rw [if_pos List.mem_cons_self]
      cases made : f p with
      | none => exact later
      | some row =>
        have own : decide (row.name = p) = true := decide_eq_true (names p row made)
        dsimp only
        rw [List.filter_cons_of_pos (p := fun row : Row => decide (row.name = p)) own, later]
        rfl
    · have other : p ∈ q :: ps ↔ p ∈ ps := by
        rw [List.mem_cons, or_iff_right same]
      rw [if_congr other rfl rfl, ← later]
      cases made : f q with
      | none => rfl
      | some row =>
        have own : ¬ decide (row.name = p) = true := by
          rw [decide_eq_true_iff, names q row made]
          exact Ne.symm same
        dsimp only
        rw [List.filter_cons_of_neg (p := fun row : Row => decide (row.name = p)) own]

/-- What A132 and some calls of `clear_flag` leave of each parameter. -/
structure Leaves (values : Param → Option Nat) (cleared : List Param) (table : Setpropa) : Prop where
  ended : table.last = none
  rows : ∀ p, table.rowsOf p =
    ((values p).map fun v => if p ∈ cleared then Row.done p (v / 100 : Nat) else Row.fresh p v).toList

/-- The values of a message, in hundredths. -/
def hundredths (msg : List Byte) (p : Param) : Option Nat :=
  (settings132 msg p).map fun v => (FixedPoint.halfEven (v * 10 ^ 2)).natAbs

theorem leaves_ofSettings (msg : List Byte) : Leaves (hundredths msg) [] (Setpropa.ofSettings msg) := by
  refine ⟨rfl, fun p => ?_⟩
  have names : ∀ p row, (settings132 msg p).map
      (fun v => Row.fresh p (FixedPoint.halfEven (v * 10 ^ 2)).natAbs) = some row → row.name = p := by
    intro p row made
    obtain ⟨v, -, rfl⟩ := Option.map_eq_some_iff.1 made
    rfl
  have own := filter_filterMap names p (show proName.Nodup by decide)
  change (freshRows (settings132 msg)).filter _ = _
  rw [freshRows, own, hundredths, Option.map_map]
  by_cases inNames : p ∈ proName
  · rw [if_pos inNames]
    rfl
  · rw [if_neg inNames]
    cases set : settings132 msg p with
    | none => rfl
    | some v =>
      obtain ⟨field, mem, rfl, -⟩ := settings132_some set
      have all : ∀ field ∈ fields132, field.name ∈ proName := by decide
      exact absurd (all field mem) inNames

theorem Leaves.find {values : Param → Option Nat} {cleared : List Param} {table : Setpropa}
    (leaves : Leaves values cleared table) (p : Param) :
    table.find p = (values p).map fun v => ((v / 100 : Nat) : Int) := by
  have first : (table.rows.find? fun row => row.name = p) = (table.rowsOf p).head? := List.head?_filter.symm
  rw [Setpropa.find, first, leaves.rows, leaves.ended]
  cases values p with
  | none => simp
  | some v =>
    rw [Option.map_some, Option.map_some, Option.toList_some, List.head?_cons, Option.map_some, Option.some_or]
    split_ifs <;> rfl

theorem Leaves.clear {values : Param → Option Nat} {cleared : List Param} {table : Setpropa}
    (leaves : Leaves values cleared table) (p : Param) : Leaves values (cleared ++ [p]) (table.clear p) := by
  have found := leaves.find p
  cases value : values p with
  | none =>
    rw [value, Option.map_none] at found
    have same : table.clear p = table := if_pos found
    rw [same]
    refine ⟨leaves.ended, fun q => ?_⟩
    rw [leaves.rows q]
    by_cases here : q = p
    · rw [here, value]
      rfl
    · simp [here]
  | some v =>
    rw [value, Option.map_some] at found
    have none : ¬ table.find p = none := found ▸ Option.some_ne_none _
    unfold Setpropa.clear
    rw [if_neg none]
    refine ⟨rfl, fun q => ?_⟩
    have joined : table.joined p ((table.find p).getD 0) = [] := by
      unfold Setpropa.joined
      rw [leaves.ended]
      split_ifs <;> rfl
    unfold Setpropa.rowsOf
    dsimp only
    rw [joined, List.append_nil, List.filter_append, List.filter_filter, found]
    by_cases here : q = p
    · subst here
      have others : (table.rows.filter fun row => decide (row.name = q) && decide (row.name ≠ q)) = [] := by
        apply List.filter_eq_nil_iff.2
        intro row _
        simp
      rw [others, value]
      simp [Row.name]
    · have others : (table.rows.filter fun row => decide (row.name = q) && decide (row.name ≠ p)) = table.rowsOf q := by
        apply List.filter_congr
        intro row _
        by_cases name : row.name = q
        · simp [name, here]
        · simp [name]
      have last : [Row.done p (((v / 100 : Nat) : Int))].filter (fun row => decide (row.name = q)) = [] := by
        simp [Row.name, Ne.symm here]
      rw [others, Option.getD_some, last, List.append_nil, leaves.rows q]
      simp [here]

/-! ## Reading the rows -/

theorem readSetting_text (settings : Settings) (row : Row) : readSetting settings row.text =
    if row.name ∈ proName then Function.update settings row.name (some (atof row.value)) else settings := by
  have search : (proName.find? fun p => row.name.text <+: p.text) =
      if row.name ∈ proName then some row.name else none := by
    have same : (proName.find? fun p => row.name.text <+: p.text) = proName.find? fun p => p = row.name := by
      apply List.find?_congr
      intro p _
      apply decide_eq_decide.2
      exact ⟨fun part => (eq_of_starts part).symm, fun same => same ▸ List.prefix_rfl⟩
    rw [same]
    split_ifs with mem
    · cases found : proName.find? fun p => p = row.name with
      | none => exact absurd (decide_eq_true rfl) (List.find?_eq_none.1 found row.name mem)
      | some p =>
        have own : p = row.name := by simpa using List.find?_some found
        rw [own]
    · apply List.find?_eq_none.2
      intro p inNames same
      exact mem (of_decide_eq_true same ▸ inNames)
  unfold readSetting
  dsimp only
  rw [row.splitString_name, row.splitString_value, search]
  split_ifs <;> rfl

/-- The last row of a name counts. -/
theorem foldl_readSetting (rows : List Row) (settings : Settings) {p : Param} (mem : p ∈ proName) :
    (rows.map Row.text).foldl readSetting settings p =
      (((rows.filter fun row => row.name = p).getLast?).map fun row => atof row.value).or (settings p) := by
  induction rows using List.reverseRecOn with
  | nil => rfl
  | append_singleton rows row ih =>
    rw [List.map_append, List.foldl_append, List.map_singleton, List.foldl_cons, List.foldl_nil, readSetting_text,
      List.filter_append]
    by_cases same : row.name = p
    · have last : [row].filter (fun row => decide (row.name = p)) = [row] := by simp [same]
      rw [last, List.getLast?_concat, same, if_pos mem, Function.update_self]
      rfl
    · have last : [row].filter (fun row => decide (row.name = p)) = [] := by simp [same]
      rw [last, List.append_nil, ← ih]
      split_ifs
      · rw [Function.update_of_ne (Ne.symm same)]
      · rfl

theorem getProtectionFromFile_text (table : Setpropa) (ended : table.last = none) {p : Param} (mem : p ∈ proName) :
    getProtectionFromFile table.text p = ((table.rowsOf p).getLast?).map fun row => atof row.value := by
  rw [getProtectionFromFile, table.readLines_text (by decide), Setpropa.lines, ended]
  simp only [Option.map_none, Option.toList_none, List.append_nil]
  rw [foldl_readSetting table.rows _ mem]
  exact Option.or_none

/-! ## What the answer shows -/

theorem toInt_natCast (T : Target) {n : Nat} (small : n ≤ 2147483647) : T.toInt (n : ℚ) = n := by
  have whole : truncate (n : ℚ) = n := by
    rw [truncate_nonneg n.cast_nonneg, Int.floor_natCast]
  unfold Target.toInt
  rw [whole]
  exact if_pos ⟨by omega, by omega⟩

/-- The value of a field in hundredths. -/
theorem hundredths_field {msg : List Byte} (wf : WellFormed132 msg) {field : Field} (mem : field ∈ fields132) :
    hundredths msg field.name =
      if Absent field msg then none else some (field.number msg * 10 ^ (2 - field.decimal)) := by
  have decimals := (fields132_len field mem).2.2
  rw [hundredths, settings132_field wf mem]
  split_ifs
  · rfl
  · have power : (10 : ℚ) ^ 2 = 10 ^ (2 - field.decimal) * 10 ^ field.decimal := by
      rw [← pow_add, Nat.sub_add_cancel decimals]
    have whole : (field.number msg : ℚ) / 10 ^ field.decimal * 10 ^ 2 =
        (field.number msg * 10 ^ (2 - field.decimal) : Nat) := by
      rw [power]
      push_cast
      field_simp
    rw [Option.map_some, whole, FixedPoint.halfEven_natCast, Int.natAbs_natCast]

/-- The number that is shown of a parameter: all of it while its row is fresh, the whole part once it was applied. -/
theorem format_leaves (T : Target) {cleared : List Param} {table : Setpropa} {p : Param} {n d : Nat} (decimals : d ≤ 2)
    (small : n < 10 ^ 6) {values : Param → Option Nat} (leaves : Leaves values cleared table) (inNames : p ∈ proName)
    (value : values p = some (n * 10 ^ (2 - d))) :
    formatEcuAcProtection T (getProtectionFromFile table.text) p d =
      ((if p ∈ cleared then n / 10 ^ d * 10 ^ d else n : Nat) : Int) := by
  have power : 100 = 10 ^ (2 - d) * 10 ^ d := by
    rw [← pow_add, Nat.sub_add_cancel decimals]
    rfl
  have rows := leaves.rows p
  rw [value, Option.map_some, Option.toList_some] at rows
  rw [formatEcuAcProtection, getProtectionFromFile_text table leaves.ended inNames, rows, List.getLast?_singleton,
    Option.map_some]
  dsimp only
  split_ifs with applied
  · have whole : n * 10 ^ (2 - d) / 100 = n / 10 ^ d := by
      rw [power, Nat.mul_comm n, Nat.mul_div_mul_left _ _ (pow_pos (by decide) _)]
    have shown : atof (Row.done p ((n * 10 ^ (2 - d) / 100 : Nat) : Int)).value = (n / 10 ^ d : Nat) := by
      rw [whole, Row.value, Decimal.intText, if_neg (Int.not_lt.2 (Int.natCast_nonneg _)),
        Int.natAbs_natCast, atof_text]
    have product : ((n / 10 ^ d : Nat) : ℚ) * 10 ^ d = (n / 10 ^ d * 10 ^ d : Nat) := by push_cast; rfl
    have less : n / 10 ^ d * 10 ^ d ≤ n := Nat.div_mul_le_self _ _
    rw [shown, product]
    exact toInt_natCast T (by omega)
  · have shown : atof (Row.fresh p (n * 10 ^ (2 - d))).value * 10 ^ d = n := by
      rw [Row.value, ← FixedPoint.print_exact, atof_print_exact 2 _ (by decide)]
      have scale : (10 : ℚ) ^ 2 = 10 ^ (2 - d) * 10 ^ d := by
        rw [← pow_add, Nat.sub_add_cancel decimals]
      rw [scale]
      push_cast
      field_simp
    rw [shown]
    exact toInt_natCast T (by omega)

/-- The table after A132 and some calls of `clear_flag`. -/
theorem applied_leaves {msg : List Byte} (wf : WellFormed132 msg) (tables : Tables) (cleared : List Param) :
    ∃ table : Setpropa, cleared.foldl (fun file p => clearFlag file p.text)
      (setInverterAcProtection17 msg tables).setpropa = table.text ∧ Leaves (hundredths msg) cleared table := by
  induction cleared using List.reverseRecOn with
  | nil =>
    refine ⟨Setpropa.ofSettings msg, ?_, leaves_ofSettings msg⟩
    rw [List.foldl_nil, setInverterAcProtection17, if_pos wf.all]
    exact saveAcProtectionAll_text msg
  | append_singleton cleared p ih =>
    obtain ⟨table, file, leaves⟩ := ih
    refine ⟨table.clear p, ?_, leaves.clear p⟩
    rw [List.foldl_append, List.foldl_cons, List.foldl_nil, file, table.clearFlag_text]

/-- The fields of a parameter in the message and in the answer. -/
def fieldPairs : List (Field × Field) :=
  fields132.zip fields130

theorem fieldPairs_same : ∀ pair ∈ fieldPairs, pair.1.name = pair.2.name ∧ pair.1.len = pair.2.len ∧
    pair.1.decimal = pair.2.decimal ∧ pair.2.name ∈ proName := by
  decide

section Shown

variable (T : Target) (ecuId recvbuffer : List Byte)

/-- The field of a parameter in the answer about a table. -/
def shown (file : List Byte) (field : Field) : List Byte :=
  field.cut (responseEcuAcProtection17 T ecuId recvbuffer file)

/-- What the answer shows after the message and some calls of `clear_flag`. -/
theorem shown_after {msg : List Byte} (wf : WellFormed132 msg) (tables : Tables) (cleared : List Param)
    {pair : Field × Field} (mem : pair ∈ fieldPairs) :
    shown T ecuId recvbuffer (cleared.foldl (fun file p => clearFlag file p.text)
        (setInverterAcProtection17 msg tables).setpropa) pair.2 =
      if Absent pair.1 msg then List.replicate pair.1.len letterA
      else if pair.1.name ∈ cleared then
        Decimal.fixed pair.1.len ((pair.1.number msg / 10 ^ pair.1.decimal * 10 ^ pair.1.decimal : Nat) : Int)
      else pair.1.cut msg := by
  obtain ⟨sent, answer⟩ := pair
  obtain ⟨name, len, decimal, inNames⟩ := fieldPairs_same _ mem
  obtain ⟨inSent, inAnswer⟩ := List.of_mem_zip mem
  obtain ⟨table, file, leaves⟩ := applied_leaves wf tables cleared
  dsimp only at name len decimal inNames ⊢
  have bounds := fields132_len sent inSent
  have value := hundredths_field wf inSent
  rw [shown, file, cut_answer T ecuId recvbuffer _ inAnswer, Field.show, ← len, ← decimal, ← name]
  rw [← name] at inNames
  by_cases absent : Absent sent msg
  · have rows := leaves.rows sent.name
    rw [value, if_pos absent] at rows
    rw [if_pos absent, formatEcuAcProtection, getProtectionFromFile_text table leaves.ended inNames, rows]
    rfl
  · have shows := (wf.fields sent inSent).resolve_left absent
    have small : sent.number msg < 10 ^ 6 := by
      have below := Decimal.value_lt (sent.cut msg) shows.2
      rw [shows.1] at below
      exact Nat.lt_of_lt_of_le below (Nat.pow_le_pow_right (by decide) bounds.2.1)
    rw [if_neg absent] at value
    rw [if_neg absent, format_leaves T bounds.2.2 small leaves inNames value]
    unfold msgcatD
    rw [if_neg (Int.not_lt.2 (Int.natCast_nonneg _))]
    split_ifs with applied
    · rfl
    · have printed := Decimal.fixed_value shows.2 (by rw [shows.1]; exact bounds.1)
      rwa [shows.1] at printed

/-- The answer shows what was sent, and where nothing was sent what it showed before, exactly when nothing was shown
before where nothing was sent and the values that have been applied have no decimals. -/
theorem readBack_iff {msg : List Byte} (wf : WellFormed132 msg) (tables : Tables) (cleared : List Param) :
    (∀ pair ∈ fieldPairs, shown T ecuId recvbuffer (cleared.foldl (fun file p => clearFlag file p.text)
        (setInverterAcProtection17 msg tables).setpropa) pair.2 =
      if Absent pair.1 msg then shown T ecuId recvbuffer tables.setpropa pair.2 else pair.1.cut msg) ↔
    ∀ pair ∈ fieldPairs,
      (Absent pair.1 msg → shown T ecuId recvbuffer tables.setpropa pair.2 = List.replicate pair.1.len letterA) ∧
      (¬ Absent pair.1 msg → pair.1.name ∈ cleared → pair.1.number msg % 10 ^ pair.1.decimal = 0) := by
  apply forall₂_congr
  intro pair mem
  have inSent := (List.of_mem_zip (show (pair.1, pair.2) ∈ fieldPairs from mem)).1
  have bounds := fields132_len pair.1 inSent
  rw [shown_after T ecuId recvbuffer wf tables cleared mem]
  by_cases absent : Absent pair.1 msg
  · rw [if_pos absent, if_pos absent]
    exact ⟨fun same => ⟨fun _ => same.symm, fun present => absurd absent present⟩, fun both => (both.1 absent).symm⟩
  · have shows := (wf.fields pair.1 inSent).resolve_left absent
    have printed := Decimal.fixed_value shows.2 (by rw [shows.1]; exact bounds.1)
    rw [shows.1] at printed
    have below := Decimal.value_lt (pair.1.cut msg) shows.2
    rw [shows.1] at below
    rw [if_neg absent, if_neg absent]
    by_cases applied : pair.1.name ∈ cleared
    · rw [if_pos applied]
      have less := Nat.div_mul_le_self (pair.1.number msg) (10 ^ pair.1.decimal)
      constructor
      · intro same
        refine ⟨fun is => absurd is absent, fun _ _ => ?_⟩
        rw [← printed] at same
        have whole := Decimal.fixed_injective bounds.1 (Nat.lt_of_le_of_lt less below) below same
        have split := Nat.div_add_mod' (pair.1.number msg) (10 ^ pair.1.decimal)
        change pair.1.number msg / 10 ^ pair.1.decimal * 10 ^ pair.1.decimal = pair.1.number msg at whole
        omega
      · intro condition
        have none := condition.2 absent applied
        have split := Nat.div_add_mod' (pair.1.number msg) (10 ^ pair.1.decimal)
        have whole : pair.1.number msg / 10 ^ pair.1.decimal * 10 ^ pair.1.decimal = pair.1.number msg := by omega
        rw [whole]
        exact printed
    · rw [if_neg applied]
      exact ⟨fun _ => ⟨fun is => absurd is absent, fun _ is => absurd is applied⟩, fun _ => rfl⟩

end Shown

/-- A132 for all inverters, with a frequency of 49.8 Hz only. -/
def sampleFrequency : List Byte :=
  str "APS1300123A132AAA0216000000001" ++ str "20170101120000000END" ++ List.replicate 6 letterA ++ str "498" ++
    List.replicate 61 letterA ++ str "END"

theorem sampleFrequency_wellFormed : WellFormed132 sampleFrequency := by
  rw [sampleFrequency, str_ofList, str_ofList, str_ofList, str_ofList]
  exact ⟨by decide +kernel, by decide +kernel⟩

theorem sampleFrequency_readBack :
    (∀ pair ∈ fieldPairs, shown sampleTarget [] [] (([] : List Param).foldl (fun file p => clearFlag file p.text)
        (setInverterAcProtection17 sampleFrequency ⟨[], []⟩).setpropa) pair.2 =
      if Absent pair.1 sampleFrequency then shown sampleTarget [] [] [] pair.2 else pair.1.cut sampleFrequency) ↔
    ∀ pair ∈ fieldPairs,
      (Absent pair.1 sampleFrequency → shown sampleTarget [] [] [] pair.2 = List.replicate pair.1.len letterA) ∧
      (¬ Absent pair.1 sampleFrequency → pair.1.name ∈ ([] : List Param) →
        pair.1.number sampleFrequency % 10 ^ pair.1.decimal = 0) :=
  readBack_iff sampleTarget [] [] sampleFrequency_wellFormed ⟨[], []⟩ []

/-- Once it is applied, 49.8 Hz is shown as 49.0 Hz. -/
theorem decimals_lost : ¬ ∀ (T : Target) (ecuId recvbuffer msg : List Byte) (tables : Tables) (cleared : List Param),
    WellFormed132 msg → ∀ pair ∈ fieldPairs,
      shown T ecuId recvbuffer (cleared.foldl (fun file p => clearFlag file p.text)
          (setInverterAcProtection17 msg tables).setpropa) pair.2 =
        if Absent pair.1 msg then shown T ecuId recvbuffer tables.setpropa pair.2 else pair.1.cut msg := by
  intro all
  let pair : Field × Field := (⟨underFrequencySlow, 56, 3, 1⟩, ⟨underFrequencySlow, 53, 3, 1⟩)
  have mem : pair ∈ fieldPairs := by decide
  have same := all sampleTarget [] [] sampleFrequency ⟨[], []⟩ [underFrequencySlow] sampleFrequency_wellFormed pair mem
  rw [shown_after sampleTarget [] [] sampleFrequency_wellFormed ⟨[], []⟩ [underFrequencySlow] mem] at same
  have field : pair.1.cut sampleFrequency = [0x34, 0x39, 0x38] := by
    rw [sampleFrequency, str_ofList, str_ofList, str_ofList, str_ofList]
    decide +kernel
  have present : ¬ Absent pair.1 sampleFrequency := by
    rw [Absent, field]
    decide
  rw [if_neg present, if_neg present, if_pos (List.mem_singleton_self _), Field.number, field] at same
  exact absurd same (by decide +kernel)

end Ecu.Protection
