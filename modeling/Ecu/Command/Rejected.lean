import Ecu.Command.InverterId

/-!
# Commands that are refused (`inverter_*.c`)

Each handler of a set command checks its message before it writes, so a `FORMAT_ERROR` leaves everything as it was. A103
alone looks at its operation after the check: an unknown one is refused, and the table is cleared and the main thread
restarted as after the others.
-/

namespace Ecu.Command

open Socket Protection Poll

/-! ## A136 -/

/-- The row of an inverter that is to be updated. -/
def updateRow136 (id : List Byte) : List Byte :=
  csvRow [id, [], [], str "1"]

/-- `set_update_num`: the file and how many rows were not found in it. -/
def setUpdateNum (file msg : List Byte) (num : Nat) : List Byte × Nat :=
  (List.range num).foldl (fun state i =>
    let id := inverterId msg 12 i
    let (file, found) := insertLine (deleteLineBytes state.1 (fieldBytes 12 id) 12) (updateRow136 id)
    (file, if found then state.2 else state.2 + 1)) (file, 0)

/-- `set_inverter_update`; `file` is `/home/data/upinv`. -/
def setInverterUpdate (recvbuffer file : List Byte) : Ack × List Byte :=
  let type := msgGetInt (recvbuffer.drop 30) 1
  let num := msgGetInt (recvbuffer.drop 31) 4
  if type = 0 then (.unsupported, file)
  else if type = 1 then
    if msgNumCheck (recvbuffer.drop 52) num 12 then
      let (file, errCount) := setUpdateNum file (recvbuffer.drop 52) num.toNat
      (if errCount > 0 then .dbError else .success, file)
    else (.formatError, file)
  else (.formatError, file)

/-! ## The acknowledgements -/

/-- `ack_flag` of a handler that knows the operations below `all` for all inverters and `all` for those it names. -/
def ackNum (recvbuffer : List Byte) (all : Int) (len : Nat) : Ack :=
  let type := msgGetInt (recvbuffer.drop 30) 1
  let num := msgGetInt (recvbuffer.drop 31) 4
  if 0 ≤ type ∧ type < all then .success
  else if type = all then if msgNumCheckEnd (recvbuffer.drop 52) num len then .success else .formatError
  else .formatError

/-- `ack_flag` of `set_inverter_maxpower`. -/
def ackMaxpower (recvbuffer : List Byte) : Ack :=
  ackNum recvbuffer 1 15

/-- `ack_flag` of `set_inverter_onoff`. -/
def ackOnoff (recvbuffer : List Byte) : Ack :=
  ackNum recvbuffer 2 13

/-- `ack_flag` of `clear_inverter_gfdi`. -/
def ackGfdi (recvbuffer : List Byte) : Ack :=
  ackNum recvbuffer 1 13

/-- How many rows `set_ird_num` did not find in the file. -/
def setIrdErrors (file msg : List Byte) (num : Nat) : Nat :=
  ((List.range num).foldl (fun state i =>
    let id := inverterId msg 16 i
    let (file, found) := insertLine (deleteLineBytes state.1 (fieldBytes 12 id) 12)
      (irdRow id (msgGetInt (msg.drop (i * 16 + 12)) 1))
    (file, if found then state.2 else state.2 + 1)) (file, 0)).2

/-- `ack_flag` of `set_inverter_ird`. -/
def ackIrd (recvbuffer file : List Byte) : Ack :=
  let type := msgGetInt (recvbuffer.drop 30) 1
  let num := msgGetInt (recvbuffer.drop 31) 4
  if type = 0 then
    let ird := msgGetInt (recvbuffer.drop 52) 1
    if ird = 1 ∨ ird = 2 ∨ ird = 3 then .success else .formatError
  else if type = 1 then
    if msgNumCheckEnd (recvbuffer.drop 52) num 13 then
      if setIrdErrors file (recvbuffer.drop 52) num.toNat > 0 then .dbError else .success
    else .formatError
  else .formatError

/-- `ack_flag` of `set_inverter_ac_protection_17`. -/
def ackProtection (recvbuffer : List Byte) : Ack :=
  let inverterNum := msgGetInt (recvbuffer.drop 44) 3
  if inverterNum = 0 then .success
  else if msgNumCheck (recvbuffer.drop 123) inverterNum 12 then .success
  else .formatError

/-! ## The set commands -/

inductive SetCommand where
  | a103 | a110 | a111 | a112 | a127 | a132 | a136
deriving DecidableEq

/-- What the set commands change. -/
structure Device where
  ids : IdState
  power : List Byte
  turnonof : List Byte
  clrgfdi : List Byte
  ird : IrdFiles
  protection : Tables
  upinv : List Byte

/-- A handler: its acknowledgement and what it leaves. `data` and `stack` are what its variables hold at first. -/
def handle (stack : Int) (data recvbuffer : List Byte) (d : Device) : SetCommand → Ack × Device
  | .a103 =>
    let result := setInverterId stack recvbuffer d.ids
    (result.1, { d with ids := result.2 })
  | .a110 => (ackMaxpower recvbuffer, { d with power := setInverterMaxpower recvbuffer data d.ids.id d.power })
  | .a111 => (ackOnoff recvbuffer, { d with turnonof := setInverterOnoff recvbuffer data d.ids.id d.turnonof })
  | .a112 => (ackGfdi recvbuffer, { d with clrgfdi := clearInverterGfdi recvbuffer data d.ids.id d.clrgfdi })
  | .a127 => (ackIrd recvbuffer d.ird.ird, { d with ird := setInverterIrd recvbuffer d.ird })
  | .a132 => (ackProtection recvbuffer, { d with protection := setInverterAcProtection17 recvbuffer d.protection })
  | .a136 =>
    let result := setInverterUpdate recvbuffer d.upinv
    (result.1, { d with upinv := result.2 })

/-! ## What a refused command leaves -/

theorem ackNum_formatError {recvbuffer : List Byte} {all : Int} {len : Nat}
    (refused : ackNum recvbuffer all len = .formatError) :
    let type := msgGetInt (recvbuffer.drop 30) 1
    (type < 0 ∨ all ≤ type) ∧
      (type = all → msgNumCheckEnd (recvbuffer.drop 52) (msgGetInt (recvbuffer.drop 31) 4) len = false) := by
  unfold ackNum at refused
  dsimp only at refused ⊢
  split_ifs at refused with below named checked
  · exact ⟨by omega, fun _ => Bool.eq_false_iff.2 checked⟩
  · exact ⟨by omega, fun same => absurd same named⟩

theorem maxpower_refused {recvbuffer : List Byte} (data idFile file : List Byte)
    (refused : ackMaxpower recvbuffer = .formatError) : setInverterMaxpower recvbuffer data idFile file = file := by
  obtain ⟨other, short⟩ := ackNum_formatError refused
  unfold setInverterMaxpower
  dsimp only
  rw [if_neg (by omega)]
  split_ifs with named checked
  · exact absurd checked (Bool.eq_false_iff.1 (short named))
  · rfl
  · rfl

theorem onoff_refused {recvbuffer : List Byte} (data idFile file : List Byte)
    (refused : ackOnoff recvbuffer = .formatError) : setInverterOnoff recvbuffer data idFile file = file := by
  obtain ⟨other, short⟩ := ackNum_formatError refused
  unfold setInverterOnoff
  dsimp only
  rw [if_neg (by omega), if_neg (by omega)]
  split_ifs with named checked
  · exact absurd checked (Bool.eq_false_iff.1 (short named))
  · rfl
  · rfl

theorem gfdi_refused {recvbuffer : List Byte} (data idFile file : List Byte)
    (refused : ackGfdi recvbuffer = .formatError) : clearInverterGfdi recvbuffer data idFile file = file := by
  obtain ⟨other, short⟩ := ackNum_formatError refused
  unfold clearInverterGfdi
  dsimp only
  rw [if_neg (by omega)]
  split_ifs with named checked
  · exact absurd checked (Bool.eq_false_iff.1 (short named))
  · rfl
  · rfl

theorem ird_refused {recvbuffer : List Byte} {files : IrdFiles}
    (refused : ackIrd recvbuffer files.ird = .formatError) : setInverterIrd recvbuffer files = files := by
  unfold ackIrd at refused
  unfold setInverterIrd
  dsimp only at refused ⊢
  split_ifs at refused with all known named checked errors
  · rw [not_or, not_or] at known
    rw [if_pos all, if_neg known.1, if_neg known.2.1, if_neg known.2.2]
  · rw [if_neg all, if_pos named, if_neg checked]
  · rw [if_neg all, if_neg named]

theorem protection_refused {recvbuffer : List Byte} (tables : Tables)
    (refused : ackProtection recvbuffer = .formatError) : setInverterAcProtection17 recvbuffer tables = tables := by
  unfold ackProtection at refused
  unfold setInverterAcProtection17
  dsimp only at refused ⊢
  split_ifs at refused with all checked
  rw [if_neg all, if_neg checked]

theorem update_refused {recvbuffer file : List Byte}
    (refused : (setInverterUpdate recvbuffer file).1 = .formatError) :
      (setInverterUpdate recvbuffer file).2 = file := by
  unfold setInverterUpdate at refused ⊢
  dsimp only at refused ⊢
  split_ifs at refused ⊢ with all named checked errors
  · rfl
  · rfl

/-- A restart is one more timer. -/
theorem setInverterId_refused_iff (stack : Int) (recvbuffer : List Byte) (s : IdState) :
    ((setInverterId stack recvbuffer s).1 = .formatError → (setInverterId stack recvbuffer s).2 = s) ↔
      (msgNumCheckEnd (recvbuffer.drop 51) (num103 recvbuffer) 12 = true →
        operation103 stack recvbuffer = 0 ∨ operation103 stack recvbuffer = 1 ∨ operation103 stack recvbuffer = 2) := by
  unfold setInverterId
  dsimp only
  split_ifs with short clear add delete
  · simp [short]
  · simp [clear]
  · simp [add]
  · simp [delete]
  · have restarted : ({ initInverterA103 s with restarts := (initInverterA103 s).restarts ++ [20] } : IdState) ≠ s := by
      intro same
      have timers := congrArg (·.restarts.length) same
      rw [List.length_append] at timers
      exact absurd timers (Nat.succ_ne_self _)
    constructor
    · exact fun unchanged => absurd (unchanged rfl) restarted
    · intro known
      rcases known (Bool.eq_true_of_not_eq_false short) with same | same | same
      · exact absurd same clear
      · exact absurd same add
      · exact absurd same delete

/-- A refused command changes nothing, but for an A103 whose operation is unknown. -/
theorem rejected_iff (stack : Int) (data recvbuffer : List Byte) (d : Device) (command : SetCommand) :
    ((handle stack data recvbuffer d command).1 = .formatError → (handle stack data recvbuffer d command).2 = d) ↔
      (command = .a103 → msgNumCheckEnd (recvbuffer.drop 51) (num103 recvbuffer) 12 = true →
        operation103 stack recvbuffer = 0 ∨ operation103 stack recvbuffer = 1 ∨
          operation103 stack recvbuffer = 2) := by
  cases command with
  | a103 =>
    have own := setInverterId_refused_iff stack recvbuffer d.ids
    constructor
    · exact fun unchanged _ => own.1 fun refused => congrArg (·.ids) (unchanged refused)
    · intro known refused
      have same := own.2 (known rfl) refused
      unfold handle
      dsimp only
      rw [same]
  | a110 =>
    refine iff_of_true (fun refused => ?_) (fun same => absurd same (by decide))
    rw [handle, maxpower_refused _ _ _ refused]
  | a111 =>
    refine iff_of_true (fun refused => ?_) (fun same => absurd same (by decide))
    rw [handle, onoff_refused _ _ _ refused]
  | a112 =>
    refine iff_of_true (fun refused => ?_) (fun same => absurd same (by decide))
    rw [handle, gfdi_refused _ _ _ refused]
  | a127 =>
    refine iff_of_true (fun refused => ?_) (fun same => absurd same (by decide))
    rw [handle, ird_refused refused]
  | a132 =>
    refine iff_of_true (fun refused => ?_) (fun same => absurd same (by decide))
    rw [handle, protection_refused _ refused]
  | a136 =>
    refine iff_of_true (fun refused => ?_) (fun same => absurd same (by decide))
    unfold handle
    dsimp only
    rw [update_refused refused]

/-- An A103 with the operation 3 and no inverters. -/
def unknown103 : List Byte :=
  str "APS1300051A103AAA0216000000001300020170403120000END"

/-- It is refused, yet the table is cleared and the main thread restarted. -/
theorem unknown_operation_restarts : ¬ ∀ (stack : Int) (data recvbuffer : List Byte) (d : Device)
    (command : SetCommand), (handle stack data recvbuffer d command).1 = .formatError →
      (handle stack data recvbuffer d command).2 = d := by
  intro unchanged
  have known := (setInverterId_refused_iff 0 unknown103 ⟨[], [], [], 0, []⟩).1 fun refused =>
    congrArg (·.ids) (unchanged 0 [] unknown103 ⟨_, [], [], [], ⟨[], [], []⟩, ⟨[], []⟩, []⟩ .a103 refused)
  have short : msgNumCheckEnd (unknown103.drop 51) (num103 unknown103) 12 = true := by
    rw [unknown103, str_ofList]
    decide +kernel
  have three : operation103 0 unknown103 = 3 := by
    rw [unknown103, str_ofList]
    decide +kernel
  have listed := known short
  rw [three] at listed
  omega

end Ecu.Command
