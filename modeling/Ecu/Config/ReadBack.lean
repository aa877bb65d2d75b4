import Ecu.Command.Pending
import Ecu.Config.Comm

/-!
# Settings are reported as they were set

A section of A107 changes the values of the names that stand in the array, and A106 reads them. So a setting is
reported if its name stands there; an address that is set as IP is read only where no domain is stored.
-/

namespace Ecu.Config

open Socket Command Protection

/-! ## The files -/

/-- A line that is read as it was written. -/
structure Proper (entry : MyArray) : Prop where
  named : entry.name ≠ []
  nameShort : entry.name.length < 32
  nameText : ∀ b ∈ entry.name, b ≠ nul ∧ b ≠ newline ∧ b ≠ equals
  valueShort : entry.value.length ≤ 62
  valueText : ∀ b ∈ entry.value, b ≠ nul ∧ b ≠ newline

theorem readEntry_text {name value : List Byte} (nameShort : name.length < 32)
    (nameText : ∀ b ∈ name, b ≠ nul ∧ b ≠ newline ∧ b ≠ equals) (valueShort : value.length ≤ 62)
    (valueText : ∀ b ∈ value, b ≠ nul ∧ b ≠ newline) :
    Lines.IsLine newline 128 (MyArray.text ⟨name, value⟩) ∧ strlen (MyArray.text ⟨name, value⟩) ≠ 0 ∧
      readEntry (MyArray.text ⟨name, value⟩) = some ⟨name, value⟩ := by
  have clean : ∀ b ∈ MyArray.text ⟨name, value⟩, b ≠ nul := by
    intro b mem
    rw [MyArray.text, List.mem_append, List.mem_cons, List.mem_append, List.mem_singleton] at mem
    rcases mem with inName | rfl | inValue | rfl
    · exact (nameText b inName).1
    · decide
    · exact (valueText b inValue).1
    · decide
  have length : (MyArray.text ⟨name, value⟩).length = name.length + value.length + 2 := by
    change (name ++ equals :: (value ++ [newline])).length = _
    rw [List.length_append, List.length_cons, List.length_append, List.length_singleton]
    omega
  refine ⟨⟨⟨name ++ equals :: value, ?_, ?_⟩, ?_⟩, ?_, ?_⟩
  · rw [MyArray.text, List.append_assoc, List.cons_append]
  · intro mem
    rw [List.mem_append, List.mem_cons] at mem
    rcases mem with inName | same | inValue
    · exact (nameText _ inName).2.1 rfl
    · exact absurd same (by decide)
    · exact (valueText _ inValue).2 rfl
  · omega
  · rw [strlen, cstr_of_clean clean, length]
    omega
  · have taken : (MyArray.text ⟨name, value⟩).takeWhile (· ≠ equals) = name := by
      have all : ∀ b ∈ name, decide (b ≠ equals) = true := fun b mem => by simpa using (nameText b mem).2.2
      rw [MyArray.text, List.takeWhile_append_of_pos all, List.takeWhile_cons_of_neg (by simp), List.append_nil]
    have behind : (MyArray.text ⟨name, value⟩).drop (name.length + 1) = value ++ [newline] := by
      rw [MyArray.text, List.append_cons, List.drop_left']
      rw [List.length_append, List.length_singleton]
    have cleanBehind : ∀ b ∈ value ++ [newline], b ≠ nul :=
      fun b mem => clean b (List.mem_of_mem_drop (behind ▸ mem))
    rw [readEntry, cstr_of_clean clean, taken, behind, cstr_of_clean cleanBehind, List.length_append,
      List.length_singleton, if_pos (by omega), deleteNewline,
      List.getLast?_concat, if_pos rfl, List.dropLast_concat]

/-- What `file_set_array` writes `file_get_array` reads. -/
theorem fileGetArray_set {entries : List MyArray} (proper : ∀ entry ∈ entries, Proper entry) {k num : Nat}
    (inside : entries.length + k ≤ num) :
    fileGetArray num (some (fileSetArray (entries ++ List.replicate k blank))) =
      some (true, entries ++ List.replicate (num - entries.length) blank) := by
  have each : ∀ entry ∈ entries ++ List.replicate k blank, Lines.IsLine newline 128 entry.text ∧ strlen entry.text ≠ 0 ∧
      readEntry entry.text = some entry := by
    intro entry mem
    rcases List.mem_append.1 mem with stored | zeroed
    · have good := proper entry stored
      exact readEntry_text good.nameShort good.nameText good.valueShort good.valueText
    · rw [List.eq_of_mem_replicate zeroed]
      exact readEntry_text (by decide) (by simp) (by decide) (by simp)
  have isLine : ∀ line ∈ (entries ++ List.replicate k blank).map MyArray.text, Lines.IsLine newline 128 line := by
    intro line mem
    obtain ⟨entry, inArray, rfl⟩ := List.mem_map.1 mem
    exact (each entry inArray).1
  have read (array : List MyArray) (each : ∀ entry ∈ array, readEntry entry.text = some entry) :
      (array.map MyArray.text).mapM readEntry = some array := by
    induction array with
    | nil => rfl
    | cons entry array ih =>
      rw [List.map_cons, List.mapM_cons, each entry List.mem_cons_self, ih fun e mem =>
        each e (List.mem_cons_of_mem entry mem)]
      rfl
  have few : ((entries ++ List.replicate k blank).map MyArray.text).length ≤ num := by
    rw [List.length_map, List.length_append, List.length_replicate]
    exact inside
  rw [fileGetArray, fileSetArray, List.flatMap_def, Lines.readLines_flatten isLine, List.filter_eq_self.2,
    List.take_of_length_le few]
  · rw [read _ fun entry mem => (each entry mem).2.2, Option.map_some, List.append_assoc,
      List.replicate_append_replicate,
      List.length_append, List.length_replicate]
    congr 4
    omega
  · intro line mem
    obtain ⟨entry, inArray, rfl⟩ := List.mem_map.1 mem
    simpa using (each entry inArray).2.1

theorem getCfg_entries {entries : List MyArray} (named : ∀ entry ∈ entries, entry.name ≠ []) (cfg : CommCfg) (k : Nat) :
    getCfg cfg (entries ++ List.replicate k blank) = entries.foldl getEntry cfg := by
  induction entries generalizing cfg with
  | nil =>
    cases k with
    | zero => rfl
    | succ k =>
      rw [List.nil_append, List.replicate_succ, getCfg, if_pos (show blank.name = [] from rfl), List.foldl_nil]
  | cons entry entries ih =>
    rw [List.cons_append, getCfg, if_neg (named entry List.mem_cons_self), List.foldl_cons,
      ih fun e mem => named e (List.mem_cons_of_mem entry mem)]

/-! ## The settings that are read -/

theorem keys_nodup :
    [str "Timeout", str "Report_Interval", str "Domain", str "IP", str "Port1", str "Port2"].Nodup := by
  iterate 6 rw [str_ofList]
  decide

/-- A field that one name sets is that of the last entry with the name. -/
theorem foldl_field {field : CommCfg → Int} {key : List Byte}
    (step : ∀ cfg entry, field (getEntry cfg entry) = if entry.name =
      key then atoi entry.value else field cfg) {v : Int}
    {entries : List MyArray} (same : ∀ entry ∈ entries, entry.name = key → atoi entry.value = v) (cfg : CommCfg) :
    field (entries.foldl getEntry cfg) = if key ∈ entries.map MyArray.name then v else field cfg := by
  induction entries generalizing cfg with
  | nil => rfl
  | cons entry entries ih =>
    rw [List.foldl_cons, ih fun e mem => same e (List.mem_cons_of_mem entry mem), step, List.map_cons]
    by_cases own : entry.name = key
    · rw [if_pos own, same entry List.mem_cons_self own, ite_self, if_pos (own ▸ List.mem_cons_self)]
    · rw [if_neg own]
      simp only [List.mem_cons, Ne.symm own, false_or]

theorem timeout_step (cfg : CommCfg) (entry : MyArray) :
    (getEntry cfg entry).timeout = if entry.name = str "Timeout" then atoi entry.value else cfg.timeout := by
  unfold getEntry
  split_ifs <;> rfl

theorem reportInterval_step (cfg : CommCfg) (entry : MyArray) : (getEntry cfg entry).reportInterval =
    if entry.name = str "Report_Interval" then atoi entry.value else cfg.reportInterval := by
  have keys := keys_nodup
  simp only [List.nodup_cons, List.mem_cons, List.not_mem_nil, or_false, not_or] at keys
  unfold getEntry
  split_ifs <;> simp_all

theorem port1_step (cfg : CommCfg) (entry : MyArray) :
    (getEntry cfg entry).port1 = if entry.name = str "Port1" then atoi entry.value else cfg.port1 := by
  have keys := keys_nodup
  simp only [List.nodup_cons, List.mem_cons, List.not_mem_nil, or_false, not_or] at keys
  unfold getEntry
  split_ifs <;> simp_all

theorem port2_step (cfg : CommCfg) (entry : MyArray) :
    (getEntry cfg entry).port2 = if entry.name = str "Port2" then atoi entry.value else cfg.port2 := by
  have keys := keys_nodup
  simp only [List.nodup_cons, List.mem_cons, List.not_mem_nil, or_false, not_or] at keys
  unfold getEntry
  split_ifs <;> simp_all

/-- What an entry does to the type and the address. -/
theorem address_step (cfg : CommCfg) (entry : MyArray) :
    ((getEntry cfg entry).socketType, (getEntry cfg entry).socketAddr) =
      if entry.name = str "Domain" then
        if entry.value = [] then (0, cfg.socketAddr) else (1, entry.value.take 32)
      else if entry.name = str "IP" ∧ cfg.socketType ≠ 1 then (cfg.socketType, entry.value.take 32)
      else (cfg.socketType, cfg.socketAddr) := by
  have keys := keys_nodup
  simp only [List.nodup_cons, List.mem_cons, List.not_mem_nil, or_false, not_or] at keys
  unfold getEntry
  split_ifs <;> simp_all

/-- Where a domain is stored, the addresses behind it are passed over. -/
theorem foldl_domain {addr : List Byte} (some : addr ≠ []) (ends : addr.length < 32) {entries : List MyArray}
    (same : ∀ entry ∈ entries, entry.name = str "Domain" → entry.value = addr) {cfg : CommCfg}
    (start : cfg.socketType = 1 ∧ cfg.socketAddr = addr ∨ cfg.socketType = 0) :
    if cfg.socketType = 1 ∨ str "Domain" ∈ entries.map MyArray.name then
      (entries.foldl getEntry cfg).socketType = 1 ∧ (entries.foldl getEntry cfg).socketAddr = addr
    else (entries.foldl getEntry cfg).socketType = 0 := by
  induction entries generalizing cfg with
  | nil =>
    rcases start with ⟨one, own⟩ | zero
    · rw [if_pos (.inl one)]
      exact ⟨one, own⟩
    · rw [if_neg (by rw [zero]; simp)]
      exact zero
  | cons entry entries ih =>
    have step := address_step cfg entry
    by_cases domain : entry.name = str "Domain"
    · have value := same entry List.mem_cons_self domain
      rw [if_pos domain, if_neg (by rwa [value]), value, List.take_of_length_le (Nat.le_of_lt ends),
        Prod.mk.injEq] at step
      have later := ih (fun e mem => same e (List.mem_cons_of_mem entry mem)) (.inl step)
      rw [if_pos (.inl step.1)] at later
      rw [if_pos (.inr (domain ▸ List.mem_cons_self))]
      exact later
    · rw [if_neg domain] at step
      have type : (getEntry cfg entry).socketType = cfg.socketType := by
        split_ifs at step
        · exact (Prod.mk.inj step).1
        · exact (Prod.mk.inj step).1
      have next : (getEntry cfg entry).socketType = 1 ∧ (getEntry cfg entry).socketAddr = addr ∨
          (getEntry cfg entry).socketType = 0 := by
        rcases start with ⟨one, own⟩ | zero
        · rw [if_neg fun ip => ip.2 one, Prod.mk.injEq] at step
          exact .inl ⟨step.1.trans one, step.2.trans own⟩
        · exact .inr (type.trans zero)
      have later := ih (fun e mem => same e (List.mem_cons_of_mem entry mem)) next
      rw [type] at later
      simp only [List.map_cons, List.mem_cons, Ne.symm domain, false_or, List.foldl_cons]
      exact later

theorem foldl_type {entries : List MyArray} (empty : ∀ entry ∈ entries, entry.name = str "Domain" → entry.value = [])
    {cfg : CommCfg} (start : cfg.socketType = 0) : (entries.foldl getEntry cfg).socketType = 0 := by
  induction entries generalizing cfg with
  | nil => exact start
  | cons entry entries ih =>
    have step := congrArg Prod.fst (address_step cfg entry)
    apply ih fun e mem => empty e (List.mem_cons_of_mem entry mem)
    by_cases domain : entry.name = str "Domain"
    · rw [if_pos domain, if_pos (empty entry List.mem_cons_self domain)] at step
      exact step
    · rw [if_neg domain] at step
      split_ifs at step
      · exact step.trans start
      · exact step.trans start

/-- Where no domain is stored, the address is that of the IP. -/
theorem foldl_ip {addr : List Byte} (ends : addr.length < 32) {entries : List MyArray}
    (same : ∀ entry ∈ entries, entry.name = str "IP" → entry.value = addr)
    (empty : ∀ entry ∈ entries, entry.name = str "Domain" → entry.value = []) {cfg : CommCfg}
      (start : cfg.socketType = 0) :
    (entries.foldl getEntry cfg).socketType = 0 ∧ (entries.foldl getEntry cfg).socketAddr =
      if str "IP" ∈ entries.map MyArray.name then addr else cfg.socketAddr := by
  induction entries generalizing cfg with
  | nil => exact ⟨start, rfl⟩
  | cons entry entries ih =>
    have step := address_step cfg entry
    have later {next : CommCfg} := @ih (fun e mem => same e (List.mem_cons_of_mem entry mem))
      (fun e mem => empty e (List.mem_cons_of_mem entry mem)) next
    rw [List.foldl_cons, List.map_cons]
    by_cases domain : entry.name = str "Domain"
    · have noIp : ¬ str "IP" = entry.name := by
        rw [domain]
        have keys := keys_nodup
        simp only [List.nodup_cons, List.mem_cons, List.not_mem_nil, or_false, not_or] at keys
        exact Ne.symm keys.2.2.1.1
      rw [if_pos domain, if_pos (empty entry List.mem_cons_self domain), Prod.mk.injEq] at step
      simp only [List.mem_cons, noIp, false_or]
      rw [← step.2]
      exact later step.1
    · rw [if_neg domain] at step
      by_cases ip : entry.name = str "IP"
      · rw [if_pos ⟨ip, by rw [start]; decide⟩, same entry List.mem_cons_self ip,
          List.take_of_length_le (Nat.le_of_lt ends),
          Prod.mk.injEq] at step
        have done := later (step.1.trans start)
        rw [step.2, ite_self] at done
        rw [if_pos (ip ▸ List.mem_cons_self)]
        exact done
      · rw [if_neg fun both => ip both.1, Prod.mk.injEq] at step
        simp only [List.mem_cons, Ne.symm ip, false_or]
        rw [← step.2]
        exact later (step.1.trans start)

/-- Each name is there once, and the domain is not empty: it is what is read. -/
theorem foldl_filled {entries : List MyArray} (once : (entries.map MyArray.name).Nodup) {entry : MyArray}
    (mem : entry ∈ entries) (domain : entry.name = str "Domain") (filled : entry.value ≠ []) (cfg : CommCfg) :
    (entries.foldl getEntry cfg).socketType = 1 := by
  have rest {entries : List MyArray} (none : str "Domain" ∉ entries.map MyArray.name) (cfg : CommCfg) :
      (entries.foldl getEntry cfg).socketType = cfg.socketType := by
    induction entries generalizing cfg with
    | nil => rfl
    | cons entry entries ih =>
      rw [List.map_cons, List.mem_cons, not_or] at none
      have step := address_step cfg entry
      rw [if_neg (Ne.symm none.1)] at step
      rw [List.foldl_cons, ih none.2]
      split_ifs at step
      · exact (Prod.mk.inj step).1
      · exact (Prod.mk.inj step).1
  induction entries generalizing cfg with
  | nil => exact absurd mem List.not_mem_nil
  | cons first entries ih =>
    rw [List.map_cons, List.nodup_cons] at once
    rw [List.foldl_cons]
    rcases List.mem_cons.1 mem with rfl | later
    · have step := address_step cfg entry
      rw [if_pos domain, if_neg filled, Prod.mk.injEq] at step
      rw [rest (domain ▸ once.1), step.1]
    · exact ih once.2 later _

/-! ## The array that is written -/

/-- An entry that `save_cfg` leaves in the array. -/
def saved (cfg : CommCfg) (entry : MyArray) : MyArray :=
  (saveEntry cfg entry).getD entry

section Saved

variable {cfg : CommCfg} (ends : cfg.Ends)

include ends

theorem saveEntry_saved (entry : MyArray) : saveEntry cfg entry = some (saved cfg entry) := by
  unfold saved saveEntry
  split_ifs <;> rfl

theorem saveCfg_saved (entries : List MyArray) : saveCfg cfg entries = some (entries.map (saved cfg)) := by
  unfold saveCfg
  induction entries with
  | nil => rfl
  | cons entry entries ih =>
    rw [List.mapM_cons, saveEntry_saved ends, ih]
    rfl

end Saved

theorem saved_name (cfg : CommCfg) (entry : MyArray) : (saved cfg entry).name = entry.name := by
  unfold saved saveEntry
  split_ifs <;> rfl

theorem saved_numbers (cfg : CommCfg) (entry : MyArray) :
    (entry.name = str "Timeout" → atoi (saved cfg entry).value = cfg.timeout) ∧
      (entry.name = str "Report_Interval" → atoi (saved cfg entry).value = cfg.reportInterval) ∧
      (entry.name = str "Port1" → atoi (saved cfg entry).value = cfg.port1) ∧
      (entry.name = str "Port2" → atoi (saved cfg entry).value = cfg.port2) := by
  have keys := keys_nodup
  simp only [List.nodup_cons, List.mem_cons, List.not_mem_nil, or_false, not_or] at keys
  have number (v : Int) : atoi (Decimal.intText v) = v := by
    have read := atoi_intText v stops_nil
    rwa [List.append_nil] at read
  unfold saved saveEntry
  refine ⟨fun own => ?_, fun own => ?_, fun own => ?_, fun own => ?_⟩
  · simp [own, number]
  · simp [own, keys, Ne.symm, number]
  · simp [own, keys, Ne.symm, number]
  · simp [own, keys, Ne.symm, number]

section Addresses

variable {cfg : CommCfg} (ends : cfg.Ends) {entry : MyArray}

include ends

theorem saved_domain (own : entry.name = str "Domain") :
    (saved cfg entry).value = if cfg.socketType = 1 then cfg.socketAddr else entry.value := by
  have keys := keys_nodup
  simp only [List.nodup_cons, List.mem_cons, List.not_mem_nil, or_false, not_or] at keys
  unfold saved saveEntry
  rw [if_neg (by rw [own]; exact Ne.symm keys.1.2.1), if_neg (by rw [own]; exact Ne.symm keys.2.1.1), if_pos own]
  split_ifs <;> rfl

theorem saved_ip (own : entry.name = str "IP") :
    (saved cfg entry).value = if cfg.socketType = 0 then cfg.socketAddr else entry.value := by
  have keys := keys_nodup
  simp only [List.nodup_cons, List.mem_cons, List.not_mem_nil, or_false, not_or] at keys
  unfold saved saveEntry
  rw [if_neg (by rw [own]; exact Ne.symm keys.1.2.2.1), if_neg (by rw [own]; exact Ne.symm keys.2.1.2.1),
    if_neg (by rw [own]; exact Ne.symm keys.2.2.1.1), if_pos own]
  split_ifs <;> rfl

end Addresses

/-- The settings of a section: numbers of its widths, and an address without a line end. -/
structure Settings (cfg : CommCfg) : Prop where
  port1 : cfg.port1.natAbs < 10 ^ 5
  port2 : cfg.port2.natAbs < 10 ^ 5
  timeout : cfg.timeout.natAbs < 10 ^ 3
  reportInterval : cfg.reportInterval.natAbs < 10 ^ 2
  socketType : cfg.socketType = 0 ∨ cfg.socketType = 1
  addrText : ∀ b ∈ cfg.socketAddr, b ≠ nul ∧ b ≠ newline

theorem saved_proper {cfg : CommCfg} (settings : Settings cfg) {entry : MyArray} (proper : Proper entry) :
    Proper (saved cfg entry) := by
  have number {v : Int} {w : Nat} (some : 0 < w) (few : w ≤ 5) (small : v.natAbs < 10 ^ w) :
      (Decimal.intText v).length ≤ 62 ∧ ∀ b ∈ Decimal.intText v, b ≠ nul ∧ b ≠ newline := by
    have length := intText_length some small
    exact ⟨by omega, fun b mem => ⟨(plain_intText v b mem).1, (plain_intText v b mem).2.1⟩⟩
  have value : (saved cfg entry).value.length ≤ 62 ∧ ∀ b ∈ (saved cfg entry).value, b ≠ nul ∧ b ≠ newline := by
    have old := And.intro proper.valueShort proper.valueText
    have addr : cfg.Ends → cfg.socketAddr.length ≤ 62 ∧ ∀ b ∈ cfg.socketAddr, b ≠ nul ∧ b ≠ newline := by
      intro ends
      unfold CommCfg.Ends at ends
      exact ⟨by omega, settings.addrText⟩
    unfold saved saveEntry
    split_ifs with _ _ _ _ ends _ _ ends
    · exact number (by decide) (by decide) settings.timeout
    · exact number (by decide) (by decide) settings.reportInterval
    · exact addr ends
    · exact old
    · exact old
    · exact addr ends
    · exact old
    · exact old
    · exact number (by decide) (by decide) settings.port1
    · exact number (by decide) (by decide) settings.port2
    · exact old
  have name := saved_name cfg entry
  exact ⟨name ▸ proper.named, name ▸ proper.nameShort, name ▸ proper.nameText, value.1, value.2⟩

/-! ## What is reported -/

/-- When the entries with their new values are read as they were set. -/
structure Stored (cfg : CommCfg) (entries : List MyArray) : Prop where
  ends : cfg.Ends
  timeout : str "Timeout" ∈ entries.map MyArray.name ∨ cfg.timeout = 0
  reportInterval : str "Report_Interval" ∈ entries.map MyArray.name ∨ cfg.reportInterval = 0
  port1 : str "Port1" ∈ entries.map MyArray.name ∨ cfg.port1 = 0
  port2 : str "Port2" ∈ entries.map MyArray.name ∨ cfg.port2 = 0
  domain : cfg.socketType = 1 → str "Domain" ∈ entries.map MyArray.name ∧ cfg.socketAddr ≠ []
  ip : cfg.socketType = 0 → (∀ entry ∈ entries, entry.name = str "Domain" → entry.value = []) ∧
    (str "IP" ∈ entries.map MyArray.name ∨ cfg.socketAddr = [])

section Read

variable {cfg : CommCfg} (ends : cfg.Ends) {entries : List MyArray}

theorem names_saved : (entries.map (saved cfg)).map MyArray.name = entries.map MyArray.name := by
  rw [List.map_map]
  exact List.map_congr_left fun entry _ => saved_name cfg entry

theorem number_iff (entries : List MyArray) {field : CommCfg → Int} {key : List Byte}
    (step : ∀ c entry, field (getEntry c entry) = if entry.name = key then atoi entry.value else field c)
    (own : ∀ entry : MyArray, entry.name = key → atoi (saved cfg entry).value = field cfg) (zero : field .zero = 0) :
    field ((entries.map (saved cfg)).foldl getEntry .zero) = field cfg ↔
      key ∈ entries.map MyArray.name ∨ field cfg = 0 := by
  have same : ∀ entry ∈ entries.map (saved cfg), entry.name = key → atoi entry.value = field cfg := by
    intro entry mem named
    obtain ⟨old, -, rfl⟩ := List.mem_map.1 mem
    exact own old ((saved_name cfg old).symm.trans named)
  rw [foldl_field step same, names_saved, zero]
  by_cases there : key ∈ entries.map MyArray.name
  · simp [there]
  · simp [there, eq_comm]

include ends

/-- An address that is set as a domain. -/
theorem domain_iff (one : cfg.socketType = 1) :
    ((entries.map (saved cfg)).foldl getEntry .zero).socketType = cfg.socketType ∧
        ((entries.map (saved cfg)).foldl getEntry .zero).socketAddr = cfg.socketAddr ↔
      str "Domain" ∈ entries.map MyArray.name ∧ cfg.socketAddr ≠ [] := by
  have same : ∀ entry ∈ entries.map (saved cfg), entry.name = str "Domain" → entry.value = cfg.socketAddr := by
    intro entry mem named
    obtain ⟨old, -, rfl⟩ := List.mem_map.1 mem
    rw [saved_domain ends ((saved_name cfg old).symm.trans named), if_pos one]
  by_cases none : cfg.socketAddr = []
  · have type := foldl_type (fun entry mem named => (same entry mem named).trans none) (Eq.refl CommCfg.zero.socketType)
    rw [type, one]
    refine iff_of_false (fun both => absurd both.1 (by decide)) fun both => both.2 none
  · have read := foldl_domain none ends same (.inr (Eq.refl CommCfg.zero.socketType))
    rw [names_saved] at read
    by_cases there : str "Domain" ∈ entries.map MyArray.name
    · rw [if_pos (.inr there)] at read
      rw [read.1, read.2, one]
      exact iff_of_true ⟨rfl, rfl⟩ ⟨there, none⟩
    · rw [if_neg (by rintro (zero | inside); exacts [absurd zero (by decide), there inside])] at read
      rw [read, one]
      exact iff_of_false (fun both => absurd both.1 (by decide)) fun both => there both.1

/-- An address that is set as an IP. -/
theorem ip_iff (zero : cfg.socketType = 0) (once : (entries.map MyArray.name).Nodup) :
    ((entries.map (saved cfg)).foldl getEntry .zero).socketType = cfg.socketType ∧
        ((entries.map (saved cfg)).foldl getEntry .zero).socketAddr = cfg.socketAddr ↔
      (∀ entry ∈ entries, entry.name = str "Domain" → entry.value = []) ∧
        (str "IP" ∈ entries.map MyArray.name ∨ cfg.socketAddr = []) := by
  have notOne : cfg.socketType ≠ 1 := by rw [zero]; decide
  have domains (entry : MyArray) (named : entry.name = str "Domain") : (saved cfg entry).value = entry.value := by
    rw [saved_domain ends named, if_neg notOne]
  by_cases empty : ∀ entry ∈ entries, entry.name = str "Domain" → entry.value = []
  · have ips : ∀ entry ∈ entries.map (saved cfg), entry.name = str "IP" → entry.value = cfg.socketAddr := by
      intro entry mem named
      obtain ⟨old, -, rfl⟩ := List.mem_map.1 mem
      rw [saved_ip ends ((saved_name cfg old).symm.trans named), if_pos zero]
    have none : ∀ entry ∈ entries.map (saved cfg), entry.name = str "Domain" → entry.value = [] := by
      intro entry mem named
      obtain ⟨old, inside, rfl⟩ := List.mem_map.1 mem
      have domain := (saved_name cfg old).symm.trans named
      rw [domains old domain, empty old inside domain]
    have read := foldl_ip ends ips none (Eq.refl CommCfg.zero.socketType)
    rw [names_saved] at read
    rw [read.1, read.2, zero, and_iff_right rfl, and_iff_right empty]
    by_cases there : str "IP" ∈ entries.map MyArray.name
    · simp [there]
    · simp [there, CommCfg.zero, eq_comm]
  · obtain ⟨entry, inside, named, filled⟩ : ∃ entry ∈ entries, entry.name = str "Domain" ∧ entry.value ≠ [] := by
      by_contra none
      exact empty fun entry inside named => by_contra fun filled => none ⟨entry, inside, named, filled⟩
    have onceSaved : ((entries.map (saved cfg)).map MyArray.name).Nodup := by rwa [names_saved]
    have type := foldl_filled onceSaved (List.mem_map_of_mem inside)
      ((saved_name cfg entry).trans named) (by rwa [domains entry named]) .zero
    rw [type, zero]
    exact iff_of_false (fun both => absurd both.1 (by decide)) fun both => empty both.1

theorem read_iff (settings : Settings cfg) (once : (entries.map MyArray.name).Nodup) :
    (entries.map (saved cfg)).foldl getEntry .zero = cfg ↔ Stored cfg entries := by
  have numbers := saved_numbers cfg
  have port1 := number_iff entries port1_step (fun entry => (numbers entry).2.2.1) rfl
  have port2 := number_iff entries port2_step (fun entry => (numbers entry).2.2.2) rfl
  have timeout := number_iff entries timeout_step (fun entry => (numbers entry).1) rfl
  have interval := number_iff entries reportInterval_step (fun entry => (numbers entry).2.1) rfl
  rw [CommCfg.ext_iff, port1, port2, timeout, interval]
  rcases settings.socketType with zero | one
  · rw [ip_iff ends zero once]
    constructor
    · rintro ⟨p1, p2, t, r, ip⟩
      exact ⟨ends, t, r, p1, p2, fun one => by omega, fun _ => ip⟩
    · intro stored
      exact ⟨stored.port1, stored.port2, stored.timeout, stored.reportInterval, stored.ip zero⟩
  · rw [domain_iff ends one]
    constructor
    · rintro ⟨p1, p2, t, r, domain⟩
      exact ⟨ends, t, r, p1, p2, fun _ => domain, fun zero => by omega⟩
    · intro stored
      exact ⟨stored.port1, stored.port2, stored.timeout, stored.reportInterval, stored.domain one⟩

end Read

/-! ## A section -/

/-- The entries that a section edits: those of its file, and for the first one the two in front of them. -/
inductive Edits (files : Files) (array : List MyArray) : Int → List MyArray → Prop
  | client {first rest : List MyArray} {there : Bool} (two : first.length ≤ 2) (four : rest.length ≤ 4)
      (front : array.take 2 = first ++ List.replicate (2 - first.length) blank)
      (read : fileGetArray 4 files.datacent = some (there, rest ++ List.replicate (4 - rest.length) blank)) :
      Edits files array 1 (first ++ rest)
  | control {entries : List MyArray} {there : Bool} (six : entries.length ≤ 6)
      (read : fileGetArray 6 files.control = some (there, entries ++ List.replicate (6 - entries.length) blank)) :
      Edits files array 2 entries

/-- What A106 reads for a section. -/
def answered (kind : Int) (files : Files) : Option (Option CommCfg) :=
  if kind = 1 then clientCfg files else controlCfg files

/-- The files of the other section stay. -/
def OthersStay (kind : Int) (files after : Files) : Prop :=
  if kind = 1 then after.control = files.control else after.client = files.client ∧ after.datacent = files.datacent

/-- The section is set, A106 answers with what it says, and the other section is as it was. -/
def Reported (buffer : List Byte) (files : Files) (array : List MyArray) : Prop :=
  ∃ after arrayAfter, setSection buffer files array = some (after, arrayAfter) ∧
    answered (msgGetInt buffer 1) after = some (some (sectionCfg buffer)) ∧ (sectionCfg buffer).Ends ∧
    OthersStay (msgGetInt buffer 1) files after

/-- A section that is set is reported when the answer shows it. -/
theorem reported_of_set {buffer : List Byte} {files after : Files} {array arrayAfter : List MyArray} {shown : CommCfg}
    {kind : Int} (is : msgGetInt buffer 1 = kind) (set : setSection buffer files array = some (after, arrayAfter))
    (answer : answered kind after = some (some shown)) (ends : (sectionCfg buffer).Ends)
    (others : OthersStay kind files after) : Reported buffer files array ↔ shown = sectionCfg buffer := by
  unfold Reported
  rw [is]
  constructor
  · rintro ⟨after, arrayAfter, result, reported, -, -⟩
    rw [set] at result
    obtain ⟨rfl, rfl⟩ := Prod.mk.inj (Option.some_inj.1 result)
    rw [answer] at reported
    exact Option.some_inj.1 (Option.some_inj.1 reported)
  · intro same
    rw [same] at answer
    exact ⟨_, _, set, answer, ends, others⟩

theorem saved_blank (cfg : CommCfg) : saved cfg blank = blank := by
  have none (key : List Byte) (some : key ≠ []) : blank.name ≠ key := Ne.symm some
  unfold saved saveEntry
  have keys : str "Timeout" ≠ [] ∧ str "Report_Interval" ≠ [] ∧ str "Domain" ≠ [] ∧ str "IP" ≠ [] ∧ str "Port1" ≠ [] ∧
      str "Port2" ≠ [] := by
    iterate 6 rw [str_ofList]
    decide
  rw [if_neg (none _ keys.1), if_neg (none _ keys.2.1), if_neg (none _ keys.2.2.1), if_neg (none _ keys.2.2.2.1),
    if_neg (none _ keys.2.2.2.2.1), if_neg (none _ keys.2.2.2.2.2)]
  rfl

theorem map_saved (cfg : CommCfg) (entries : List MyArray) (k : Nat) :
    (entries ++ List.replicate k blank).map (saved cfg) = entries.map (saved cfg) ++ List.replicate k blank := by
  rw [List.map_append, List.map_replicate, saved_blank]

section Section

variable {buffer : List Byte} {files : Files} {array : List MyArray} {entries : List MyArray}
  (settings : Settings (sectionCfg buffer)) (proper : ∀ entry ∈ entries, Proper entry)
  (once : (entries.map MyArray.name).Nodup)

include settings proper once

theorem control_iff (kind : msgGetInt buffer 1 = 2) (edits : Edits files array 2 entries) :
    Reported buffer files array ↔ Stored (sectionCfg buffer) entries := by
  cases edits with
  | control six read =>
    by_cases ends : (sectionCfg buffer).Ends
    · rw [← read_iff ends settings once]
      have properSaved : ∀ entry ∈ entries.map (saved (sectionCfg buffer)), Proper entry := by
        intro entry mem
        obtain ⟨old, inside, rfl⟩ := List.mem_map.1 mem
        exact saved_proper settings (proper old inside)
      have written := @map_saved (sectionCfg buffer) entries (6 - entries.length)
      have set : setSection buffer files array = some (⟨files.client, files.datacent,
          some (fileSetArray (entries.map (saved (sectionCfg buffer)) ++ List.replicate (6 - entries.length) blank))⟩,
          entries.map (saved (sectionCfg buffer)) ++ List.replicate (6 - entries.length) blank) := by
        unfold setSection
        rw [kind, if_neg (by decide), if_pos rfl, read, ← written]
        simp only [bind, Option.bind, saveCfg_saved ends]
        rfl
      have answer : answered 2 ⟨files.client, files.datacent, some (fileSetArray
          (entries.map (saved (sectionCfg buffer)) ++ List.replicate (6 - entries.length) blank))⟩ =
          some (some ((entries.map (saved (sectionCfg buffer))).foldl getEntry .zero)) := by
        have length : (entries.map (saved (sectionCfg buffer))).length + (6 - entries.length) ≤ 6 := by
          rw [List.length_map]
          omega
        unfold answered controlCfg
        rw [if_neg (by decide), fileGetArray_set properSaved length]
        simp only [bind, Option.bind, pure, if_true, getCfg_entries fun entry mem => (properSaved entry mem).named]
      exact reported_of_set kind set answer ends ⟨rfl, rfl⟩
    · refine iff_of_false ?_ fun stored => ends stored.ends
      rintro ⟨_, _, _, _, reported, _⟩
      exact ends reported

theorem client_iff (kind : msgGetInt buffer 1 = 1) (edits : Edits files array 1 entries) :
    Reported buffer files array ↔ Stored (sectionCfg buffer) entries := by
  cases edits with
  | @client first rest there two four front read =>
    by_cases ends : (sectionCfg buffer).Ends
    · rw [← read_iff ends settings once]
      have firstProper : ∀ entry ∈ first.map (saved (sectionCfg buffer)), Proper entry := by
        intro entry mem
        obtain ⟨old, inside, rfl⟩ := List.mem_map.1 mem
        exact saved_proper settings (proper old (List.mem_append_left _ inside))
      have restProper : ∀ entry ∈ rest.map (saved (sectionCfg buffer)), Proper entry := by
        intro entry mem
        obtain ⟨old, inside, rfl⟩ := List.mem_map.1 mem
        exact saved_proper settings (proper old (List.mem_append_right _ inside))
      have firstWritten := map_saved (sectionCfg buffer) first (2 - first.length)
      have restWritten := map_saved (sectionCfg buffer) rest (4 - rest.length)
      have twoLines : (first.map (saved (sectionCfg buffer)) ++ List.replicate (2 - first.length)
        blank).length = 2 := by
        rw [List.length_append, List.length_map, List.length_replicate]
        omega
      have set : setSection buffer files array = some (⟨
          some (fileSetArray (first.map (saved (sectionCfg buffer)) ++ List.replicate (2 - first.length) blank)),
          some (fileSetArray (rest.map (saved (sectionCfg buffer)) ++ List.replicate (4 - rest.length) blank)),
          files.control⟩, (first.map (saved (sectionCfg buffer)) ++ List.replicate (2 - first.length) blank) ++
            (rest.map (saved (sectionCfg buffer)) ++ List.replicate (4 - rest.length) blank)) := by
        have whole : ((first ++ List.replicate (2 - first.length) blank) ++
            (rest ++ List.replicate (4 - rest.length) blank)).map (saved (sectionCfg buffer)) = _ := List.map_append
        rw [firstWritten, restWritten] at whole
        unfold setSection
        rw [kind, if_pos rfl, read, front]
        simp only [bind, Option.bind, saveCfg_saved ends, whole]
        rw [List.take_left' twoLines, List.drop_left' twoLines]
        rfl
      have answer : answered 1 ⟨
          some (fileSetArray (first.map (saved (sectionCfg buffer)) ++ List.replicate (2 - first.length) blank)),
          some (fileSetArray (rest.map (saved (sectionCfg buffer)) ++ List.replicate (4 - rest.length) blank)),
          files.control⟩ = some (some (((first ++ rest).map (saved (sectionCfg buffer))).foldl getEntry .zero)) := by
        have firstLength : (first.map (saved (sectionCfg buffer))).length + (2 - first.length) ≤ 6 := by
          rw [List.length_map]
          omega
        have restLength : (rest.map (saved (sectionCfg buffer))).length + (4 - rest.length) ≤ 6 := by
          rw [List.length_map]
          omega
        unfold answered clientCfg
        rw [if_pos rfl, fileGetArray_set firstProper firstLength, fileGetArray_set restProper restLength]
        simp only [bind, Option.bind, pure, if_true, getCfg_entries fun entry mem => (firstProper entry mem).named,
          getCfg_entries fun entry mem => (restProper entry mem).named]
        rw [List.map_append, List.foldl_append]
      exact reported_of_set kind set answer ends rfl
    · refine iff_of_false ?_ fun stored => ends stored.ends
      rintro ⟨_, _, _, _, reported, _⟩
      exact ends reported

end Section

/-- A section of A107: its kind, the type of its address, and the text of the address, which has no line end. -/
structure WellFormed (buffer : List Byte) : Prop where
  kind : msgGetInt buffer 1 = 1 ∨ msgGetInt buffer 1 = 2
  socketType : msgGetInt (buffer.drop 16) 1 = 0 ∨ msgGetInt (buffer.drop 16) 1 = 1
  address : newline ∉ cstr (buffer.drop 17)

theorem WellFormed.settings {buffer : List Byte} (wf : WellFormed buffer) : Settings (sectionCfg buffer) where
  port1 := msgGetInt_natAbs _ (by decide)
  port2 := msgGetInt_natAbs _ (by decide)
  timeout := msgGetInt_natAbs _ (by decide)
  reportInterval := msgGetInt_natAbs _ (by decide)
  socketType := wf.socketType
  addrText b mem := by
    have inside : b ∈ cstr (buffer.drop 17) := List.mem_of_mem_take mem
    refine ⟨cstr_noNul _ b inside, ?_⟩
    rintro rfl
    exact wf.address inside

/-- **Settings**: where the file of a section has lines of names and values, no name twice, A106 reports what A107 has
set if and only if the names of the settings are there, and no domain is, where the address is an IP. -/
theorem settings_reported_iff {buffer : List Byte} (wf : WellFormed buffer) {files : Files}
    {array entries : List MyArray}
    (edits : Edits files array (msgGetInt buffer 1) entries) (proper : ∀ entry ∈ entries, Proper entry)
    (once : (entries.map MyArray.name).Nodup) :
    Reported buffer files array ↔ Stored (sectionCfg buffer) entries := by
  rcases wf.kind with one | two
  · exact client_iff wf.settings proper once one (one ▸ edits)
  · exact control_iff wf.settings proper once two (two ▸ edits)

/-! ## The message is its sections -/

theorem beforeEnd_section {buffer : List Byte} (free : ¬ str "END" <:+: buffer ++ str "EN") (rest : List Byte) :
    beforeEnd (buffer ++ (str "END" ++ rest)) = some buffer := by
  have letters : str "END" = [0x45, 0x4E, 0x44] ∧ str "EN" = [0x45, 0x4E] := by
    iterate 2 rw [str_ofList]
    decide
  rw [letters.1, letters.2] at free
  rw [letters.1]
  induction buffer with
  | nil =>
    rw [List.nil_append, List.cons_append, beforeEnd, letters.1]
    exact if_pos (List.prefix_append [0x45, 0x4E, 0x44] rest)
  | cons b buffer ih =>
    have later := ih fun inside => free (inside.trans (List.suffix_cons b _).isInfix)
    have here : ¬ [0x45, 0x4E, 0x44] <+: b :: (buffer ++ ([0x45, 0x4E, 0x44] ++ rest)) := by
      intro begins
      have other : (b :: buffer) ++ [0x45, 0x4E] <+: b :: (buffer ++ ([0x45, 0x4E, 0x44] ++ rest)) := by
        refine ⟨0x44 :: rest, ?_⟩
        simp
      have inside := List.prefix_of_prefix_length_le begins other (by simp)
      exact free inside.isInfix
    rw [List.cons_append, beforeEnd, letters.1, if_neg here, later, Option.map_some]

/-- The loop carries out the sections of a message one after the other. -/
theorem setSections_eq {recvbuffer : List Byte} {sections : List (List Byte)}
    (free : ∀ buffer ∈ sections, ¬ str "END" <:+: buffer ++ str "EN") {cfgBegin : Nat} {rest : List Byte}
    (message : cstr (recvbuffer.drop cfgBegin) = (sections.flatMap fun buffer => buffer ++ str "END") ++ rest)
    (files : Files) (array : List MyArray) :
    setSections recvbuffer sections.length cfgBegin files array =
      sections.foldlM (fun state buffer => setSection buffer state.1 state.2) (files, array) := by
  induction sections generalizing cfgBegin files array with
  | nil => rfl
  | cons buffer sections ih =>
    have three : (str "END").length = 3 := by
      rw [str_ofList]
      rfl
    rw [List.flatMap_cons, List.append_assoc, List.append_assoc] at message
    have first : beforeEnd (cstr (recvbuffer.drop cfgBegin)) = some buffer := by
      rw [message]
      exact beforeEnd_section (free buffer List.mem_cons_self) _
    have lengths := congrArg List.length message
    rw [List.length_append, List.length_append, three] at lengths
    have inside : buffer.length + 3 ≤ strlen (recvbuffer.drop cfgBegin) := by
      unfold strlen
      omega
    have later : cstr (recvbuffer.drop (cfgBegin + buffer.length + 3)) =
        (sections.flatMap fun buffer => buffer ++ str "END") ++ rest := by
      rw [Nat.add_assoc, ← List.drop_drop, cstr_drop inside, message, ← List.append_assoc, List.drop_left']
      rw [List.length_append, three]
    rw [List.length_cons, setSections, first, List.foldlM_cons]
    dsimp only
    congr 1
    funext state
    exact ih (fun b mem => free b (List.mem_cons_of_mem buffer mem)) later state.1 state.2

/-! ## The settings of a new ECU -/

/-- `control.con` as `initPath` writes it. -/
def sampleControl : List MyArray :=
  [⟨str "Timeout", str "10"⟩, ⟨str "Report_Interval", str "15"⟩, ⟨str "Domain", str "ecu.apsema.com"⟩,
    ⟨str "IP", str "60.190.131.190"⟩, ⟨str "Port1", str "8997"⟩, ⟨str "Port2", str "8997"⟩]

def sampleFiles : Files :=
  ⟨none, none, some (str
    "Timeout=10\nReport_Interval=15\nDomain=ecu.apsema.com\nIP=60.190.131.190\nPort1=8997\nPort2=8997\n")⟩

theorem sampleControl_proper : ∀ entry ∈ sampleControl, Proper entry := by
  have each : ∀ entry ∈ sampleControl, entry.name ≠ [] ∧ entry.name.length < 32 ∧
      (∀ b ∈ entry.name, b ≠ nul ∧ b ≠ newline ∧ b ≠ equals) ∧ entry.value.length ≤ 62 ∧
      ∀ b ∈ entry.value, b ≠ nul ∧ b ≠ newline := by
    rw [sampleControl]
    iterate 11 rw [str_ofList]
    decide +kernel
  intro entry mem
  obtain ⟨named, nameShort, nameText, valueShort, valueText⟩ := each entry mem
  exact ⟨named, nameShort, nameText, valueShort, valueText⟩

theorem sampleControl_once : (sampleControl.map MyArray.name).Nodup := keys_nodup

theorem sample_edits : Edits sampleFiles namedArray 2 sampleControl := by
  have same : sampleFiles.control = some (fileSetArray (sampleControl ++ List.replicate 0 blank)) := by
    rw [sampleFiles, sampleControl]
    iterate 12 rw [str_ofList]
    decide +kernel
  have six : sampleControl.length ≤ 6 := Nat.le_refl 6
  refine @Edits.control sampleFiles namedArray sampleControl true six ?_
  rw [same]
  exact fileGetArray_set sampleControl_proper six

/-- A domain for the second server. -/
def sampleDomain : List Byte :=
  str "20899708997010151eee.apsema.com"

/-- An IP for it. -/
def sampleIp : List Byte :=
  str "20899708997010150192.168.1.10"

theorem settings_reported_sample : Reported sampleDomain sampleFiles namedArray ↔
    Stored (sectionCfg sampleDomain) sampleControl := by
  have kind : msgGetInt sampleDomain 1 = 2 := by
    rw [sampleDomain, str_ofList]
    decide +kernel
  have wf : WellFormed sampleDomain := by
    refine ⟨.inr kind, ?_, ?_⟩
    · rw [sampleDomain, str_ofList]
      decide +kernel
    · rw [sampleDomain, str_ofList]
      decide +kernel
  exact settings_reported_iff wf (kind ▸ sample_edits) sampleControl_proper sampleControl_once

/-- The domain of a new ECU stays when an IP is set, and is reported. -/
theorem ip_not_reported : ¬ Reported sampleIp sampleFiles namedArray := by
  have kind : msgGetInt sampleIp 1 = 2 := by
    rw [sampleIp, str_ofList]
    decide +kernel
  have type : msgGetInt (sampleIp.drop 16) 1 = 0 := by
    rw [sampleIp, str_ofList]
    decide +kernel
  have wf : WellFormed sampleIp := by
    refine ⟨.inr kind, .inl type, ?_⟩
    rw [sampleIp, str_ofList]
    decide +kernel
  rw [control_iff wf.settings sampleControl_proper sampleControl_once kind sample_edits]
  intro stored
  have empty := (stored.ip type).1 ⟨str "Domain", str "ecu.apsema.com"⟩ (by simp [sampleControl]) rfl
  have some : str "ecu.apsema.com" ≠ [] := by
    rw [str_ofList]
    decide
  exact some empty

end Ecu.Config
