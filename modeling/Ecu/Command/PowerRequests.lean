import Ecu.Command.IrdRequests
import Ecu.Command.PowerEnds

/-!
# Limits until they are sent

A110 writes the table anew; `process_max_power` clears the flag of a row and sends its limit. What is read back goes
into the column of the limit, with the flag 0, and takes the request away if it has not been sent.
-/

namespace Ecu.Command

open Poll Protection Requests Socket

/-! ## The steps -/

/-- The limits that items name; those that are no number are passed over. -/
def limitItems (msg : List Byte) (num : Nat) : List (List Byte × Int) :=
  (List.range num).filterMap fun i =>
    let maxpower := msgGetInt (msg.drop (i * 18 + 12)) 3
    if maxpower < 0 then none else some (inverterId msg 18 i, maxpower)

/-- The limits that an A110 asks for, if it writes the table. -/
def limitRequests (recvbuffer data idFile : List Byte) : Option (List (List Byte × Int)) :=
  let type := msgGetInt (recvbuffer.drop 30) 1
  let num := msgGetInt (recvbuffer.drop 31) 4
  if type = 0 then
    let maxpower := msgGetInt (recvbuffer.drop 52) 3
    let msg := (getNumFromId data idFile).foldl
      (fun msg id => msgcatS (msgcatD (msgcatS msg 12 id) 3 maxpower) 3 (str "END")) []
    if 0 ≤ maxpower then some (limitItems msg (strlen msg / 18)) else none
  else if type = 1 ∧ msgNumCheckEnd (recvbuffer.drop 52) num 15 then
    some (limitItems (recvbuffer.drop 52) num.toNat)
  else none

abbrev LimitEvent := Event (List Byte) Int

def posts (requests : Option (List (List Byte × Int))) : List LimitEvent :=
  (requests.getD []).map fun r => .post r.1 r.2

/-- The limit in the units of the inverter. -/
def encodedLimit (x : InverterInfo) (limitedpower : Int) : Int :=
  if x.model = 7 then limitedpower * 7395 / 2 ^ 14 / 4 else limitedpower * 7395 / 2 ^ 14

/-- A limit has been sent if the byte is the one of the limit. -/
def sentLimits : Option LimitCommand → List LimitEvent
  | none => []
  | some c =>
    if c.limitedvalue = encodedLimit c.inverter c.limitedpower then [.serve (cstr c.inverter.id) c.limitedpower] else []

/-- The files, the number of the turn, and the limit that was asked for last of each id. -/
structure PowerSystem where
  files : PowerFiles
  turn : Nat
  limits : Outstanding (List Byte) Int

inductive PowerOp where
  | setInverterMaxpower (recvbuffer data idFile : List Byte)
  | responseInverterMaxpower
  | processMaxPower (below : Nat → Byte) (replies : Nat → Nat → Reply) (inverters : List InverterInfo)
  | readMaxPower (replies : Nat → Nat → Reply) (inverters : List InverterInfo)

def PowerOp.apply (s : PowerSystem) : PowerOp → List LimitEvent × PowerSystem
  | setInverterMaxpower recvbuffer data idFile =>
    let events := posts (limitRequests recvbuffer data idFile)
    (events, { s with
      files := { s.files with power := Command.setInverterMaxpower recvbuffer data idFile s.files.power }
      limits := after s.limits events })
  | responseInverterMaxpower => ([], { s with files := Command.responseInverterMaxpower s.files })
  | processMaxPower below replies inverters =>
    match Command.processMaxPower below replies inverters ⟨s.turn, s.files.power⟩ with
    | none => ([], s)
    | some (command, next) => (sentLimits command,
      { s with files := { s.files with power := next.file }, turn := next.turn })
  | readMaxPower replies inverters => ([], { s with files := Command.readMaxPower replies inverters s.files })

/-- A table that may be there at first; what is in it has been asked for before. -/
def PowerSystem.Start (s : PowerSystem) : Prop :=
  PowerWritten s.files.power ∧ s.limits = fun _ => none

def PowerStep (s : PowerSystem) (_ : Outstanding (List Byte) Int) (events : List LimitEvent)
    (s' : PowerSystem) : Prop :=
  ∃ op : PowerOp, op.apply s = (events, s')

/-- The request is there: each row of the id has the limit, and its flag is set. -/
def LimitWaits (file id : List Byte) (v : Int) : Prop :=
  rowsOf id file ≠ [] ∧ ∀ data ∈ rowsOf id file, atoi ((splitString data).getD 1 []) = v ∧ flagSet 5 data

/-- The limit stands in its column. -/
def LimitStands (file id : List Byte) (v : Int) : Prop :=
  ∀ data ∈ rowsOf id file, atoi ((splitString data).getD 1 []) = v

/-! ## When nothing is lost -/

/-- The inverters of an id, the first one with a model. -/
def servedInverter (inverters : List InverterInfo) (id : List Byte) : Option InverterInfo :=
  (registered inverters).find? fun x => cstr x.id = id ∧ x.model ≠ 0

/-- A110 names every inverter that has a request, and none with two limits. The inverter whose row is taken has a
model, its limit fits, and it reports the limit that was asked for last. All are read back while those that answer have
no request, and they report their limits too. -/
def PowerOp.Keeps (s : PowerSystem) (out : Outstanding (List Byte) Int) : PowerOp → Prop
  | setInverterMaxpower recvbuffer data idFile =>
    ∀ requests ∈ limitRequests recvbuffer data idFile, ∀ id, IsId id →
      (out id ≠ none → ∃ v, (id, v) ∈ requests) ∧ ∀ v v', (id, v) ∈ requests → (id, v') ∈ requests → v = v'
  | responseInverterMaxpower => True
  | processMaxPower below replies inverters =>
    ∀ data ∈ readLineEnd (below s.turn) s.files.power, ∀ id, IsId id → id <+: data →
      (∀ v ∈ out id, v * 7395 / 2 ^ 14 < 256 ∧
        ((∃ x ∈ registered inverters, cstr x.id = id) → servedInverter inverters id ≠ none)) ∧
      ∀ x ∈ servedInverter inverters id, ∀ b ∈ firstResult (replies s.turn), ∀ v ∈ s.limits id, limitedResult x b = v
  | readMaxPower replies inverters =>
    (Lines.readLines newline 50 s.files.con).headD [] = str "ALL" →
      ∀ entry ∈ (registered inverters).zipIdx, ∀ b ∈ firstResult (replies entry.2),
        out (cstr entry.1.id) = none ∧ ∀ v ∈ s.limits (cstr entry.1.id), limitedResult entry.1 b = v

def KeepingLimits (s : PowerSystem) (out : Outstanding (List Byte) Int) (events : List LimitEvent) (s' : PowerSystem) :
    Prop :=
  ∃ op : PowerOp, op.Keeps s out ∧ op.apply s = (events, s')

/-! ## Rows of requests -/

/-- The row of a request. -/
def limitRow (id : List Byte) (maxpower : Int) : List Byte :=
  csvRow [id, wd 3 maxpower, [], [], [], str "1"]

theorem setMaxpowerNum_items (msg : List Byte) (num : Nat) :
    setMaxpowerNum msg num = ((limitItems msg num).map fun r => limitRow r.1 r.2).flatten := by
  rw [setMaxpowerNum, limitItems]
  induction List.range num with
  | nil => rfl
  | cons i is ih =>
    rw [List.flatMap_cons, ih, List.filterMap_cons]
    dsimp only
    split_ifs
    · rfl
    · rfl

theorem setInverterMaxpower_requests (recvbuffer data idFile file : List Byte) :
    setInverterMaxpower recvbuffer data idFile file =
      match limitRequests recvbuffer data idFile with
      | none => file
      | some requests => (requests.map fun r => limitRow r.1 r.2).flatten := by
  rw [setInverterMaxpower, limitRequests]
  dsimp only
  by_cases all : msgGetInt (recvbuffer.drop 30) 1 = 0
  · rw [if_pos all, if_pos all]
    split_ifs
    · rw [setMaxpowerAll, setMaxpowerNum_items]
    · rfl
  · rw [if_neg all, if_neg all]
    by_cases single : msgGetInt (recvbuffer.drop 30) 1 = 1
    · rw [if_pos single]
      by_cases counted : msgNumCheckEnd (recvbuffer.drop 52) (msgGetInt (recvbuffer.drop 31) 4) 15 = true
      · rw [if_pos counted, if_pos ⟨single, counted⟩, setMaxpowerNum_items]
      · rw [if_neg counted, if_neg fun both => counted both.2]
    · rw [if_neg single, if_neg fun both => single both.1]

theorem limitItems_good {msg : List Byte} {num : Nat} {r : List Byte × Int} (mem : r ∈ limitItems msg num) :
    r.1.length ≤ 12 ∧ (∀ b ∈ r.1, b ≠ nul) ∧ r.2.natAbs < 10 ^ 3 ∧ 0 ≤ r.2 := by
  obtain ⟨i, -, made⟩ := List.mem_filterMap.1 mem
  dsimp only at made
  split_ifs at made with negative
  rw [← Option.some_inj.1 made]
  exact ⟨inverterId_length msg 18 i, cstr_noNul _, msgGetInt_natAbs _ (by decide), Int.not_lt.1 negative⟩

theorem limitRequests_good {recvbuffer data idFile : List Byte} {requests : List (List Byte × Int)}
    (made : limitRequests recvbuffer data idFile = some requests) :
    ∀ r ∈ requests, r.1.length ≤ 12 ∧ (∀ b ∈ r.1, b ≠ nul) ∧ r.2.natAbs < 10 ^ 3 ∧ 0 ≤ r.2 := by
  unfold limitRequests at made
  dsimp only at made
  split_ifs at made
  all_goals
    rw [← Option.some_inj.1 made]
    exact fun r mem => limitItems_good mem

theorem atoi_wd (w : Nat) (v : Int) : atoi (wd w v) = v := by
  have blanks (n : Nat) (rest : List Byte) :
      (List.replicate n (0x20 : Byte) ++ rest).dropWhile isSpace = rest.dropWhile isSpace := by
    induction n with
    | zero => rfl
    | succ n ih =>
      rw [List.replicate_succ, List.cons_append, List.dropWhile_cons_of_pos (by decide)]
      exact ih
  have value := atoi_intText v stops_nil
  rw [List.append_nil] at value
  rw [atoi, wd, blanks]
  exact value

theorem limitRow_starts (id : List Byte) (v : Int) : id <+: limitRow id v := by
  rw [limitRow, csvRow_cons]
  exact List.prefix_append id _

section LimitRow

variable {v : Int} (small : v.natAbs < 10 ^ 3)

include small

theorem limitRow_length {id : List Byte} (few : id.length ≤ 12) : (limitRow id v).length < 100 := by
  have limit := wd_length (w := 3) (by decide) small
  have flag := flag_length.2
  rw [limitRow, csvRow_length (List.cons_ne_nil _ _)]
  simp only [List.map_cons, List.map_nil, List.sum_cons, List.sum_nil, List.length_nil, flag]
  omega

omit small in
theorem limitRow_plain {id : List Byte} (plain : Plain id) (v : Int) :
    ∀ field ∈ [id, wd 3 v, [], [], []] ++ [str "1"], Plain field := by
  intro field mem
  simp only [List.cons_append, List.nil_append, List.mem_cons, List.not_mem_nil, or_false] at mem
  rcases mem with rfl | rfl | rfl | rfl | rfl | rfl
  · exact plain
  · exact plain_wd 3 v
  · exact plain_nil
  · exact plain_nil
  · exact plain_nil
  · exact plain_one

theorem limitRow_short {id : List Byte} (isId : IsId id) : ShortLine (limitRow id v) := by
  have length := limitRow_length small (Nat.le_of_eq isId.twelve)
  have plain := limitRow_plain isId.plain v
  have line := csvRow_isLine plain (Nat.lt_trans length (by decide))
  exact ⟨⟨line.shape, length⟩, csvRow_noNul fun field mem b inField => (plain field mem b inField).1⟩

omit small in
/-- The limit and the flag are read back. -/
theorem limitRow_fields {id : List Byte} (isId : IsId id) (v : Int) :
    (splitString (limitRow id v)).getD 0 [] = id ∧ atoi ((splitString (limitRow id v)).getD 1 []) = v ∧
      flagSet 5 (limitRow id v) := by
  have split : splitString (limitRow id v) = [id, wd 3 v, [], [], [], str "1" ++ [newline]] :=
    splitString_csvRow [id, wd 3 v, [], [], []] (str "1") (limitRow_plain isId.plain v)
  have one : atoi (str "1" ++ [newline]) = 1 := by
    rw [str_ofList]
    decide
  rw [flagSet, split]
  exact ⟨rfl, atoi_wd 3 v, one⟩

/-- The row of another id, whatever it holds, has no line of the id. -/
theorem limitRow_other {id wid : List Byte} (isId : IsId id) (few : wid.length ≤ 12) (clean : ∀ b ∈ wid, b ≠ nul)
    (other : wid ≠ id) : Lines.MadeOf (fun line => ShortLine line ∧ ¬ id <+: line) (limitRow wid v) := by
  apply other_row isId _ 12 few clean few other (limitRow_length small few)
  intro field mem
  exact limitRow_plain plain_nil v field (List.mem_cons_of_mem [] mem)

end LimitRow

/-- What A110 writes for an id are the rows of its items. -/
theorem rowsOf_limitRows {id : List Byte} (isId : IsId id) {requests : List (List Byte × Int)}
    (good : ∀ r ∈ requests, r.1.length ≤ 12 ∧ (∀ b ∈ r.1, b ≠ nul) ∧ r.2.natAbs < 10 ^ 3 ∧ 0 ≤ r.2) :
    Lines.MadeOf ShortLine ((requests.map fun r => limitRow r.1 r.2).flatten) ∧
      rowsOf id (requests.map fun r => limitRow r.1 r.2).flatten =
        (requests.filter fun r => r.1 = id).map fun r => limitRow r.1 r.2 := by
  induction requests with
  | nil => exact ⟨Lines.MadeOf.nil, rfl⟩
  | cons r requests ih =>
    have later := ih fun other mem => good other (List.mem_cons_of_mem r mem)
    obtain ⟨few, clean, small, -⟩ := good r List.mem_cons_self
    rw [List.map_cons, List.flatten_cons]
    by_cases own : r.1 = id
    · have short := limitRow_short small (own.symm ▸ isId : IsId r.1)
      have row : Lines.MadeOf ShortLine (limitRow r.1 r.2) := Lines.MadeOf.single short
      refine ⟨row.append later.1, ?_⟩
      rw [rowsOf_append id row later.1, later.2, List.filter_cons_of_pos (by simpa using own), List.map_cons,
        rowsOf_own short (own ▸ limitRow_starts r.1 r.2)]
      rfl
    · have other := limitRow_other small isId few clean own
      have row := other.mono fun _ both => both.1
      refine ⟨row.append later.1, ?_⟩
      rw [rowsOf_append id row later.1, later.2, rowsOf_made_other other, List.nil_append,
        List.filter_cons_of_neg (by simpa using own)]

/-! ## What a step leaves -/

/-- The table has its lines, each request its row, and each limit stands in its column. -/
structure PowerInv (file : List Byte) (out limits : Outstanding (List Byte) Int) : Prop where
  made : Lines.MadeOf PowerLine file
  kept : ∀ id, IsId id → ∀ v, out id = some v →
    0 ≤ v ∧ rowsOf id file ≠ [] ∧ ∀ data ∈ rowsOf id file, data = limitRow id v
  column : ∀ id, IsId id → ∀ v, limits id = some v → LimitStands file id v

theorem PowerInv.posts {file : List Byte} {out limits : Outstanding (List Byte) Int} (inv : PowerInv file out limits)
    {recvbuffer data idFile : List Byte}
    (keeps : ∀ requests ∈ limitRequests recvbuffer data idFile, ∀ id, IsId id →
      (out id ≠ none → ∃ v, (id, v) ∈ requests) ∧ ∀ v v', (id, v) ∈ requests → (id, v') ∈ requests → v = v') :
    PowerInv (setInverterMaxpower recvbuffer data idFile file)
      (after out (Command.posts (limitRequests recvbuffer data idFile)))
      (after limits (Command.posts (limitRequests recvbuffer data idFile))) := by
  have made := setInverterMaxpower_made recvbuffer data idFile inv.made
  rw [setInverterMaxpower_requests] at made ⊢
  cases asked : limitRequests recvbuffer data idFile with
  | none => exact inv
  | some requests =>
    rw [asked] at made
    have good := limitRequests_good asked
    have rows {id : List Byte} (isId : IsId id) {v : Int} (item : (id, v) ∈ requests) :
        rowsOf id (requests.map fun r => limitRow r.1 r.2).flatten ≠ [] ∧
          ∀ data ∈ rowsOf id (requests.map fun r => limitRow r.1 r.2).flatten, data = limitRow id v := by
      have one := (keeps requests asked id isId).2 v
      rw [(rowsOf_limitRows isId good).2]
      constructor
      · exact List.ne_nil_of_mem (List.mem_map_of_mem (List.mem_filter.2 ⟨item, decide_eq_true rfl⟩))
      · intro data mem
        obtain ⟨⟨wid, v'⟩, inFilter, rfl⟩ := List.mem_map.1 mem
        obtain ⟨inRequests, own⟩ := List.mem_filter.1 inFilter
        obtain rfl : wid = id := of_decide_eq_true own
        rw [one v' item inRequests]
    refine ⟨made, fun id isId v held => ?_, fun id isId v held => ?_⟩
    · rcases after_posts out requests id with ⟨value, item, same⟩ | ⟨absent, same⟩
      · obtain rfl : value = v := Option.some_inj.1 (same.symm.trans held)
        exact ⟨(good _ item).2.2.2, rows isId item⟩
      · have before : out id = some v := same.symm.trans held
        obtain ⟨value, item⟩ := (keeps requests asked id isId).1 (by rw [before]; exact Option.some_ne_none v)
        exact absurd item (absent value)
    · intro data mem
      rcases after_posts limits requests id with ⟨value, item, same⟩ | ⟨absent, -⟩
      · obtain rfl : value = v := Option.some_inj.1 (same.symm.trans held)
        rw [(rows isId item).2 data mem]
        exact (limitRow_fields isId value).2.1
      · dsimp only at mem
        rw [(rowsOf_limitRows isId good).2, List.filter_eq_nil_iff.2] at mem
        · exact absurd mem List.not_mem_nil
        · rintro ⟨wid, value⟩ inRequests own
          obtain rfl : wid = id := of_decide_eq_true own
          exact absent value inRequests

/-- What an inverter without a request reports, if it is its limit. -/
theorem PowerInv.update {file : List Byte} {out limits : Outstanding (List Byte) Int} (inv : PowerInv file out limits)
    {x : InverterInfo} (hasId : Record.HasId x.toInverter) {b : Nat} (byte : b < 256) (free : out (cstr x.id) = none)
    (same : ∀ v ∈ limits (cstr x.id), limitedResult x b = v) :
    PowerInv (updatemaxpower file x (limitedResult x b)) out limits := by
  obtain ⟨lines, rfl, rows⟩ := inv.made
  have few : ∀ row : PowerRow, row.Few → { row with limitedpower := limitedResult x b }.Few :=
    fun row few => ⟨limitedResult_few x byte, few.limitedresult, few.stationarypower, few.stationaryresult⟩
  refine ⟨updateRow_made rows hasId few, fun id isId v held => ?_, fun id isId v held => ?_⟩
  · by_cases own : cstr x.id = id
    · rw [own, held] at free
      cases free
    · rw [updatemaxpower, rowsOf_update_other rows isId hasId own few]
      exact inv.kept id isId v held
  · rw [LimitStands]
    by_cases own : cstr x.id = id
    · cases found : lines.find? fun line => id <+: line with
      | none =>
        have stays := updateRow_rows rows hasId fun row => { row with limitedpower := limitedResult x b }
        rw [own, found] at stays
        rw [updatemaxpower, stays]
        exact inv.column id isId v held
      | some line =>
        have row := few _ (rows line (List.mem_of_find?_eq_some found)).few
        have replaced := rows_replaced isId rows row
        rw [updatemaxpower, updateRow_own rows isId own few found,
          rowsOf_lines id fun l mem => (replaced l mem).short]
        intro data mem
        obtain ⟨mem, part⟩ := List.mem_filter.1 mem
        rcases List.mem_append.1 mem with kept | last
        · have apart : ¬ id <+: data := by simpa using (List.mem_filter.1 kept).2
          exact absurd (of_decide_eq_true part) apart
        · rw [List.mem_singleton.1 last, PowerRow.limit isId.plain]
          exact same v (own ▸ held)
    · rw [updatemaxpower, rowsOf_update_other rows isId hasId own few]
      exact inv.column id isId v held

theorem encodedLimit_eq {x : InverterInfo} {v : Int} (positive : 0 ≤ v) (fits : v * 7395 / 2 ^ 14 < 256) :
    limitedValue x v = encodedLimit x v := by
  have byte : v * 7395 / 2 ^ 14 % 256 = v * 7395 / 2 ^ 14 := by omega
  rw [limitedValue, encodedLimit, byte]

/-- A turn of `process_max_power`. -/
theorem PowerInv.turn {file : List Byte} {out limits : Outstanding (List Byte) Int} (inv : PowerInv file out limits)
    {turn : Nat} {below : Nat → Byte} {replies : Nat → Nat → Reply} {inverters : List InverterInfo}
    (keeps : ∀ data ∈ readLineEnd (below turn) file, ∀ id, IsId id → id <+: data →
      (∀ v ∈ out id, v * 7395 / 2 ^ 14 < 256 ∧
        ((∃ x ∈ registered inverters, cstr x.id = id) → servedInverter inverters id ≠ none)) ∧
      ∀ x ∈ servedInverter inverters id, ∀ b ∈ firstResult (replies turn), ∀ v ∈ limits id, limitedResult x b = v)
    {command : Option LimitCommand} {next : PowerState}
    (step : processMaxPower below replies inverters ⟨turn, file⟩ = some (command, next)) :
    PowerInv next.file (after out (sentLimits command)) limits := by
  obtain ⟨lines, rfl, rows⟩ := inv.made
  cases first : lines.find? fun line => EndsOne (below turn) line with
  | none =>
    rw [power_stops replies inverters below rows rfl first] at step
    cases step
  | some line =>
    have mem := List.mem_of_find?_eq_some first
    by_cases served : Servable inverters line
    · obtain ⟨key, command', row, before, isKey, own, known, found, step', left⟩ :=
        power_turn rows below replies (s := ⟨turn, lines.flatten⟩) rfl first served
      rw [step] at step'
      obtain ⟨rfl, rfl⟩ := Prod.mk.inj (Option.some_inj.1 step')
      have taken : readLineEnd (below turn) lines.flatten = some line := by
        rw [readLineEnd, readLines_short (rows_short rows) (Nat.le_refl 100), first]
      have keep := keeps line taken key isKey own
      have replaced := rows_replaced isKey rows left.few
      have inRows {l : List Byte} (inLines : l ∈ lines) (part : key <+: l) : l ∈ rowsOf key lines.flatten := by
        rw [rowsOf_lines key (rows_short rows)]
        exact List.mem_filter.2 ⟨inLines, decide_eq_true part⟩
      have rowsKey : rowsOf key ((lines.filter fun line => ¬ key <+: line) ++ [row.text key]).flatten =
        [row.text key] := by
        rw [rowsOf_lines key fun l mem => (replaced l mem).short, List.filter_append, List.filter_cons_of_pos
          (by simpa using row.starts key), List.filter_nil, List.filter_eq_nil_iff.2, List.nil_append]
        intro l mem
        simpa using (List.mem_filter.1 mem).2
      have rowsOther {id : List Byte} (isId : IsId id) (other : key ≠ id) :=
        rowsOf_replaced isId isKey.twelve other (rows_short rows) (left.few.line isKey).short (row.starts key)
      refine ⟨⟨_, rfl, replaced⟩, fun id isId v held => ?_, fun id isId v held => ?_⟩
      · have before : out id = some v := by
          cases command with
          | none => exact held
          | some c =>
            rw [sentLimits] at held
            split_ifs at held
            · exact apply_serve_some held
            · exact held
        by_cases same : key = id
        · subst same
          exfalso
          obtain ⟨positive, -, rowIs⟩ := inv.kept key isKey v before
          have isRow := rowIs line (inRows mem own)
          have limit : atoi ((splitString line).getD 1 []) = v := by
            rw [isRow]
            exact (limitRow_fields isKey v).2.1
          obtain ⟨fits, model⟩ := keep.1 v before
          cases command with
          | none => exact model known left.inverter.symm
          | some c =>
            have sent := left.sent c rfl
            have isOwn : cstr c.inverter.id = key := by
              have entry := List.find?_some left.inverter.symm
              rw [decide_eq_true_eq] at entry
              exact entry.1
            rw [limit] at sent
            rw [sentLimits, sent.1, sent.2, if_pos (encodedLimit_eq positive fits), isOwn] at held
            exact absurd ((apply_serve_self before).symm.trans held) (Option.some_ne_none v).symm
        · rw [rowsOther isId same]
          exact inv.kept id isId v before
      · rw [LimitStands]
        by_cases same : key = id
        · subst same
          rw [rowsKey]
          intro data inRow
          rw [List.mem_singleton.1 inRow, PowerRow.limit isKey.plain]
          rcases left.column with asBefore | ⟨c, inCommand, b, answered, result⟩
          · rw [asBefore]
            have inTable := inRows (List.mem_of_find?_eq_some found) (by simpa using List.find?_some found)
            exact inv.column key isKey v held before inTable
          · obtain rfl : command = some c := inCommand
            rw [result]
            exact keep.2 c.inverter left.inverter.symm b answered v held
        · rw [rowsOther isId same]
          exact inv.column id isId v held
    · rw [power_turn_idle rows below replies (s := ⟨turn, lines.flatten⟩) rfl first served] at step
      obtain ⟨rfl, rfl⟩ := Prod.mk.inj (Option.some_inj.1 step)
      exact inv

/-! ## Runs -/

theorem PowerInv.step {s s' : PowerSystem} {out : Outstanding (List Byte) Int} {events : List LimitEvent}
    (inv : PowerInv s.files.power out s.limits) (step : KeepingLimits s out events s') :
    PowerInv s'.files.power (after out events) s'.limits := by
  obtain ⟨op, keeps, made⟩ := step
  cases op with
  | setInverterMaxpower recvbuffer data idFile =>
    obtain ⟨rfl, rfl⟩ := Prod.mk.inj made
    exact inv.posts keeps
  | responseInverterMaxpower =>
    obtain ⟨rfl, rfl⟩ := Prod.mk.inj made
    exact inv
  | processMaxPower below replies inverters =>
    rw [PowerOp.apply] at made
    cases step : processMaxPower below replies inverters ⟨s.turn, s.files.power⟩ with
    | none =>
      rw [step] at made
      obtain ⟨rfl, rfl⟩ := Prod.mk.inj made
      exact inv
    | some out =>
      rw [step] at made
      obtain ⟨rfl, rfl⟩ := Prod.mk.inj made
      exact inv.turn keeps step
  | readMaxPower replies inverters =>
    obtain ⟨rfl, rfl⟩ := Prod.mk.inj made
    rw [readMaxPower]
    dsimp only
    split_ifs with all
    · rw [after_nil, readMaxPowerAll]
      apply List.foldlRecOn (motive := fun file => PowerInv file out s.limits) _ _ inv
      intro file inv entry mem
      cases answered : firstResult (replies entry.2) with
      | none => exact inv
      | some b =>
        have hasId : Record.HasId entry.1.toInverter := registered_zipIdx mem
        have keep := keeps all entry mem b answered
        exact inv.update hasId (firstResult_lt answered) keep.1 keep.2
    · exact inv

/-- **No lost limit**: in a run in which A110 names the inverters that have a request, the limits fit and what the
inverters report are their limits, with none read back before its limit is sent, each request keeps its row and its
flag until it is sent, and each limit its column. -/
theorem limit_requests_wait {s : PowerSystem} {out : Outstanding (List Byte) Int}
    (reach : Reach PowerSystem.Start KeepingLimits s out) {id : List Byte} (isId : IsId id) :
    (∀ v, out id = some v → LimitWaits s.files.power id v) ∧ ∀ v, s.limits id = some v →
      LimitStands s.files.power id v := by
  have inv : PowerInv s.files.power out s.limits := by
    refine Reach.rule (fun s out => PowerInv s.files.power out s.limits) ?_ PowerInv.step reach
    rintro s ⟨written, none⟩
    refine ⟨written.made, fun _ _ _ held => ?_, fun _ _ _ held => ?_⟩
    · cases held
    · rw [none] at held
      cases held
  refine ⟨fun v held => ?_, inv.column id isId⟩
  obtain ⟨-, some, rows⟩ := inv.kept id isId v held
  refine ⟨some, fun data mem => ?_⟩
  rw [rows data mem]
  exact (limitRow_fields isId v).2

theorem sampleLimit_requests :
    posts (limitRequests (sampleLimit (str "801000000001") (str "200")) [] []) = [.post (str "801000000001") 200] := by
  rw [sampleLimit]
  iterate 5 rw [str_ofList]
  decide +kernel

/-- After A110 for an inverter. -/
def sampleLimitAsked : PowerSystem where
  files := ⟨setInverterMaxpower (sampleLimit (str "801000000001") (str "200")) [] [] [], []⟩
  turn := 0
  limits := after (fun _ => none) (posts (limitRequests (sampleLimit (str "801000000001") (str "200")) [] []))

theorem sampleLimitAsked_reach
    (Step : PowerSystem → Outstanding (List Byte) Int → List LimitEvent → PowerSystem → Prop)
    (step : Step ⟨⟨[], []⟩, 0, fun _ => none⟩ (fun _ => none)
      (posts (limitRequests (sampleLimit (str "801000000001") (str "200")) [] [])) sampleLimitAsked) :
    Reach PowerSystem.Start Step sampleLimitAsked (after (fun _ => none) [.post (str "801000000001") 200]) := by
  rw [← sampleLimit_requests]
  exact Reach.next (Reach.start (s := ⟨⟨[], []⟩, 0, fun _ => none⟩) ⟨PowerWritten.none, rfl⟩) step

theorem sampleLimitAsked_keeps :
    (PowerOp.setInverterMaxpower (sampleLimit (str "801000000001") (str "200")) [] []).Keeps
      ⟨⟨[], []⟩, 0, fun _ => none⟩
      fun _ => none := by
  have one : limitRequests (sampleLimit (str "801000000001") (str "200")) [] [] = some [(str "801000000001", 200)] := by
    rw [sampleLimit]
    iterate 5 rw [str_ofList]
    decide +kernel
  intro requests asked id _
  rw [one] at asked
  obtain rfl := Option.some_inj.1 asked
  refine ⟨fun none => absurd rfl none, fun v v' first second => ?_⟩
  rw [List.mem_singleton] at first second
  rw [(Prod.mk.inj first).2, (Prod.mk.inj second).2]

theorem limit_requests_sample :
    (∀ v, after (fun _ => none) [.post (str "801000000001") (200 : Int)] (str "801000000001") = some v →
      LimitWaits sampleLimitAsked.files.power (str "801000000001") v) ∧
    ∀ v, sampleLimitAsked.limits (str "801000000001") = some v →
      LimitStands sampleLimitAsked.files.power (str "801000000001") v :=
  limit_requests_wait (sampleLimitAsked_reach KeepingLimits ⟨_, sampleLimitAsked_keeps, rfl⟩) sample_isId

/-- The inverter reports its limit, in the units that it has. -/
def sampleLimitReply : Reply :=
  ⟨33, [0xFB, 0xFB, 0, 0xDD, 0, 90] ++ List.replicate 25 0 ++ [0xFE, 0xFE]⟩

/-- A117 comes after A110, and the main thread reads all inverters before it sends: the request is gone. -/
theorem limit_request_lost :
    ¬ ∀ (s : PowerSystem) (out : Outstanding (List Byte) Int), Reach PowerSystem.Start PowerStep s out →
      ∀ id, IsId id → (∀ v, out id = some v → LimitWaits s.files.power id v) ∧
        ∀ v, s.limits id = some v → LimitStands s.files.power id v := by
  intro waits
  have asked := sampleLimitAsked_reach PowerStep ⟨.setInverterMaxpower _ [] [], rfl⟩
  have toRead : Reach PowerSystem.Start PowerStep _ (after _ []) := asked.next ⟨.responseInverterMaxpower, rfl⟩
  have read : Reach PowerSystem.Start PowerStep _ (after _ []) :=
    toRead.next ⟨.readMaxPower (fun _ _ => sampleLimitReply) sampleTable, rfl⟩
  have out : after (fun _ => none) [.post (str "801000000001") (200 : Int)] (str "801000000001") = some 200 := by
    rw [after_cons, after_nil]
    exact apply_post_self _ _ _
  obtain ⟨some, rows⟩ := (waits _ _ read _ sample_isId).1 200 out
  have cleared : ∀ data ∈ rowsOf (str "801000000001") (readMaxPower (fun _ _ => sampleLimitReply) sampleTable
      (responseInverterMaxpower sampleLimitAsked.files)).power, ¬ flagSet 5 data := by
    rw [sampleLimitAsked, sampleLimit, sampleTable, responseInverterMaxpower]
    iterate 6 rw [str_ofList]
    decide +kernel
  obtain ⟨data, rest, first⟩ := List.exists_cons_of_ne_nil some
  have mem : data ∈ rowsOf (str "801000000001") (readMaxPower (fun _ _ => sampleLimitReply) sampleTable
      (responseInverterMaxpower sampleLimitAsked.files)).power := by
    change _ = data :: rest at first
    rw [first]
    exact List.mem_cons_self
  exact cleared data mem (rows data mem).2

end Ecu.Command
