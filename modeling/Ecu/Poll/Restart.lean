import Ecu.Poll.Changes
import Ecu.Poll.Start

/-!
# A power loss between rounds

Every round writes `collect.con` anew, with the inverters that have data of this round. A start after it brings back
the baseline of just these (`restart_iff`): an inverter that has missed the last round begins again from zero.
-/

namespace Ecu

/-- The range of the baselines is that of the reports. -/
theorem Decoder.baseline_bounded (d : Decoder) (data : Frame) {before : Baseline} (bounded : before.Bounded) :
    (d.baseline data before).Bounded := by
  have time : 0 ≤ data.acctime ∧ data.acctime ≤ 65535 := by
    have high : data.byte 7 < 256 := (data.getD 7 nul).toNat_lt
    have low : data.byte 8 < 256 := (data.getD 8 nul).toNat_lt
    unfold Frame.acctime
    omega
  have gen600 (i : Nat) : 0 ≤ data.accgen600 i ∧ data.accgen600 i ≤ 20000 :=
    ⟨accgen600_nonneg data i, (accgen600_le data i).trans (by norm_num)⟩
  have gen1000 (i : Nat) : 0 ≤ data.accgen1000 i ∧ data.accgen1000 i ≤ 20000 :=
    ⟨accgen1000_nonneg data i, (accgen1000_le data i).trans (by norm_num)⟩
  have output600 : 0 ≤ (data.accgen600 32 + data.accgen600 27) * (94 / 100) * data.byte 37 ∧
      (data.accgen600 32 + data.accgen600 27) * (94 / 100) * data.byte 37 ≤ 20000 := by
    have first := gen600 32
    have second := gen600 27
    have sum : (data.accgen600 32 + data.accgen600 27) * (94 / 100) ≤ 78 := by
      linarith [accgen600_le data 32, accgen600_le data 27]
    constructor
    · have turns : (0 : ℚ) ≤ data.byte 37 := Nat.cast_nonneg _
      exact mul_nonneg (by linarith [first.1, second.1]) turns
    · calc (data.accgen600 32 + data.accgen600 27) * (94 / 100) * data.byte 37
          ≤ 78 * 255 := mul_le_mul sum (byte_le data 37) (Nat.cast_nonneg _) (by norm_num)
        _ ≤ 20000 := by norm_num
  have output1000 (i : Nat) : 0 ≤ (data.word24 i : ℚ) / (932675 / 10) ∧
      (data.word24 i : ℚ) / (932675 / 10) ≤ 20000 := by
    have whole := word24_le data i
    constructor
    · positivity
    · linarith
  have old := bounded.energies
  simp only [Baseline.energies, List.forall_mem_cons] at old
  cases d with
  | yc1000 =>
    refine ⟨?_, time⟩
    simp only [Baseline.energies, List.forall_mem_cons, baseline]
    exact ⟨gen1000 27, gen1000 32, gen1000 37, gen1000 42, output1000 65, output1000 68, output1000 71,
      old.2.2.2.2.2.2.2⟩
  | yc600 =>
    refine ⟨?_, time⟩
    simp only [Baseline.energies, List.forall_mem_cons, baseline]
    exact ⟨gen600 32, gen600 27, old.2.2.1, old.2.2.2.1, output600, old.2.2.2.2.2⟩
  | yc600New =>
    refine ⟨?_, time⟩
    simp only [Baseline.energies, List.forall_mem_cons, baseline]
    exact ⟨gen600 32, gen600 27, old.2.2.1, old.2.2.2.1, output600, old.2.2.2.2.2⟩

namespace Poll

/-! ## The id file in a round -/

section Round

variable (T : Target) (ecu : EcuInfo)

/-- The id file after a visit: it is written once more after a binding, and after a reply with the model. The other
inverters of the table are those `before` and `after`. -/
def visitIds (first : Bool) (a : Answers) (before after : List InverterInfo) (x : InverterInfo) (ids : List Byte) :
    List Byte :=
  let x := if first then clearRound x else x
  if x.dataflag = 0 ∧ x.shortaddr ≠ 0 then
    let bound := bindStep a x
    let ids := if x.bindflag ≠ 1 ∧ a.bound then updateID (before ++ bound.1 :: after) else ids
    let modelled := modelStep a bound.1
    if bound.1.model = 0 ∧ modelled.2 = false then updateID (before ++ modelled.1 :: after) else ids
  else ids

/-- The id file after the pass has come through `after`. -/
def passIds (answers : Nat → Nat → Answers) (j : Nat) :
    List InverterInfo → List InverterInfo → List Byte → List Byte
  | _, [], ids => ids
  | before, x :: after, ids =>
    let a := answers j before.length
    passIds answers j (before ++ [(visit T ecu (j = 0) a x).1]) after (visitIds (j = 0) a before after x ids)

def passesIds (answers : Nat → Nat → Answers) : Nat → Nat → List InverterInfo → List Byte → List Byte
  | 0, _, _, ids => ids
  | n + 1, j, table, ids =>
    let out := pass T ecu answers j table
    let ids := passIds T ecu answers j [] table ids
    if out.any Prod.snd then passesIds answers n (j + 1) (out.map Prod.fst) ids else ids

end Round

/-- The memory and the files. -/
structure Station where
  disk : Disk
  table : List InverterInfo

def start (disk : Disk) : Station where
  disk := disk
  table := boot disk

def stationRound (T : Target) (s : Station) (round : Round) : Station :=
  let table := pollRound T round.ecu round.answers s.table
  { disk := ⟨passesIds T round.ecu round.answers 5 0 s.table s.disk.ids, updateTmpdb table⟩
    table := table }

def stationRounds (T : Target) (rounds : List Round) (s : Station) : Station :=
  rounds.foldl (stationRound T) s

/-! ## The id file lists the table -/

/-- The id file is that of a proper table. -/
structure Consistent (ids : List Byte) (table : List InverterInfo) : Prop where
  wellFormed : WellFormed table
  listed : load ids = table.map fresh

theorem Printable.of_fresh {x y : InverterInfo} (printable : Printable x) (same : fresh y = fresh x)
    (bounded : y.stored.Bounded) : Printable y where
  isId := congrArg (·.id) same ▸ printable.isId
  bounded := bounded
  shortaddr := congrArg (·.shortaddr) same ▸ printable.shortaddr
  model := congrArg (·.model) same ▸ printable.model
  version := congrArg (·.version) same ▸ printable.version
  bindflag := congrArg (·.bindflag) same ▸ printable.bindflag
  zigbeeVersion := congrArg (·.zigbeeVersion) same ▸ printable.zigbeeVersion
  flag := congrArg (·.flag) same ▸ printable.flag

section Replace

variable {ids : List Byte} {before after : List InverterInfo} {x y : InverterInfo}

theorem WellFormed.replace (wf : WellFormed (before ++ x :: after)) (printable : Printable y) (id : y.id = x.id) :
    WellFormed (before ++ y :: after) := by
  have inBefore := fun z mem => wf.printable z (List.mem_append_left (x :: after) mem)
  have inAfter := fun z mem => wf.printable z (List.mem_append_right before (List.mem_cons_of_mem x mem))
  have distinct := wf.distinct
  have size := wf.size
  constructor
  · intro z mem
    rcases List.mem_append.1 mem with old | mem
    · exact inBefore z old
    · rcases List.mem_cons.1 mem with rfl | old
      · exact printable
      · exact inAfter z old
  · rw [List.map_append, List.map_cons] at distinct ⊢
    rwa [id]
  · rwa [List.length_append, List.length_cons] at size ⊢

theorem Consistent.entry (consistent : Consistent ids (before ++ x :: after)) : Printable x :=
  consistent.wellFormed.printable x (List.mem_append_right before List.mem_cons_self)

/-- A step that changes no column of the id file. -/
theorem Consistent.replace (consistent : Consistent ids (before ++ x :: after)) (same : fresh y = fresh x)
    (bounded : y.stored.Bounded) : Consistent ids (before ++ y :: after) where
  wellFormed := consistent.wellFormed.replace (consistent.entry.of_fresh same bounded) (congrArg (·.id) same)
  listed := by
    rw [consistent.listed, List.map_append, List.map_append, List.map_cons, List.map_cons, same]

/-- A step that writes the id file. -/
theorem Consistent.written (consistent : Consistent ids (before ++ x :: after)) (printable : Printable y)
    (id : y.id = x.id) : Consistent (updateID (before ++ y :: after)) (before ++ y :: after) :=
  have wf := consistent.wellFormed.replace printable id
  ⟨wf, load_updateID wf⟩

end Replace

section Visit

variable (T : Target) (ecu : EcuInfo) {ids : List Byte} {before after : List InverterInfo} {x : InverterInfo}

theorem bindStep_consistent (a : Answers) (consistent : Consistent ids (before ++ x :: after)) :
    Consistent
      (if x.bindflag ≠ 1 ∧ a.bound then updateID (before ++ (bindStep a x).1 :: after) else ids)
      (before ++ (bindStep a x).1 :: after) := by
  unfold bindStep
  by_cases unbound : x.bindflag ≠ 1
  · by_cases bound : a.bound
    · rw [if_pos ⟨unbound, bound⟩, if_pos unbound, if_pos bound]
      obtain ⟨isId, bounded, shortaddr, model, version, -, zigbeeVersion, flag⟩ := consistent.entry
      exact consistent.written ⟨isId, bounded, shortaddr, model, version, one_lt_two, zigbeeVersion, flag⟩ rfl
    · rwa [if_neg fun both => bound both.2, if_pos unbound, if_neg bound]
  · rwa [if_neg fun both => unbound both.1, if_neg unbound]

/-- The model is a byte, and the version comes from four. -/
theorem zbQueryInverterInfo_cases (x : InverterInfo) (reply : Option (List Byte)) :
    zbQueryInverterInfo x reply = (-1, x) ∨
      ∃ model version, zbQueryInverterInfo x reply = (1, { x with model := model, version := version }) ∧
        model < 2 ^ 8 ∧ |version| < 2 ^ 31 := by
  unfold zbQueryInverterInfo
  cases zbGetReply x reply with
  | none => exact .inl rfl
  | some recv =>
    dsimp only
    split
    · have byte (i : Nat) : byteAt recv i < 256 := (recv.getD i nul).toNat_lt
      refine .inr ⟨_, _, rfl, byte 4, ?_⟩
      have high := byte 5
      have low := byte 6
      have high' := byte 8
      have low' := byte 9
      rw [abs_lt]
      omega
    · exact .inl rfl

theorem modelStep_consistent (a : Answers) (consistent : Consistent ids (before ++ x :: after)) :
    Consistent
      (if x.model = 0 ∧ (modelStep a x).2 = false then updateID (before ++ (modelStep a x).1 :: after) else ids)
      (before ++ (modelStep a x).1 :: after) := by
  unfold modelStep
  by_cases unknown : x.model = 0
  · rw [if_pos unknown]
    rcases zbQueryInverterInfo_cases x a.info with failed | ⟨model, version, read, small, small'⟩
    · rw [failed, if_neg fun both => Bool.noConfusion both.2]
      exact consistent
    · rw [read, if_pos ⟨unknown, rfl⟩]
      obtain ⟨isId, bounded, shortaddr, -, -, bindflag, zigbeeVersion, flag⟩ := consistent.entry
      exact consistent.written ⟨isId, bounded, shortaddr, small, small', bindflag, zigbeeVersion, flag⟩ rfl
  · rwa [if_neg unknown, if_neg fun both => unknown both.1]

theorem resolveData_fresh (h : Heard) : fresh (resolveData T ecu h.asked h.data) = fresh h.asked := by
  cases known : h.decoder with
  | none =>
    rw [resolveData_unknown T ecu known]
    rfl
  | some d =>
    obtain ⟨deputy, resolved⟩ := resolveData_decoded T ecu known
    have kept : (d.resolve T ecu h.frame h.before).2.id = h.asked.id ∧
        (d.resolve T ecu h.frame h.before).2.model = h.asked.model := by
      by_cases takes : d.Takes T h.frame h.before
      · have taken : Taken d h.frame h.before (d.resolve T ecu h.frame h.before) := Decoder.taken takes
        exact ⟨taken.id, taken.model⟩
      · have rejected : Rejected h.before (d.resolve T ecu h.frame h.before) := Decoder.rejected takes
        exact ⟨congrArg Memory.id rejected.memory, rejected.model⟩
    rw [resolved, fresh, kept.1, kept.2]
    rfl

theorem dataStep_consistent (a : Answers) (consistent : Consistent ids (before ++ x :: after)) :
    Consistent ids (before ++ (dataStep T ecu a x).1 :: after) := by
  have bounded := consistent.entry.bounded
  unfold dataStep
  split
  · rw [zbQueryData_accepted]
    cases accepted x a.data with
    | none => exact consistent.replace rfl bounded
    | some data =>
      refine consistent.replace (resolveData_fresh T ecu ⟨x, data⟩) ?_
      rcases resolveData_stored T ecu ⟨x, data⟩ with kept | ⟨d, read⟩
      · rwa [kept]
      · rw [read]
        exact d.baseline_bounded _ bounded
  · exact consistent

theorem visit_consistent (first : Bool) (a : Answers) (consistent : Consistent ids (before ++ x :: after)) :
    Consistent (visitIds first a before after x ids) (before ++ (visit T ecu first a x).1 :: after) := by
  have cleared : Consistent ids (before ++ (if first then clearRound x else x) :: after) := by
    cases first with
    | false => exact consistent
    | true => exact consistent.replace rfl consistent.entry.bounded
  unfold visitIds visit
  dsimp only
  generalize (if first then clearRound x else x) = y at cleared
  split
  · apply dataStep_consistent
    apply modelStep_consistent
    exact bindStep_consistent a cleared
  · exact cleared

theorem passIds_consistent (before after : List InverterInfo) (answers : Nat → Nat → Answers) (j : Nat)
    (consistent : Consistent ids (before ++ after)) :
    Consistent (passIds T ecu answers j before after ids)
      (before ++ after.mapIdx fun i x => (visit T ecu (j = 0) (answers j (before.length + i)) x).1) := by
  induction after generalizing before ids with
  | nil => exact consistent
  | cons x after ih =>
    have visited := visit_consistent T ecu (j = 0) (answers j before.length) consistent
    rw [List.append_cons] at visited
    have rest := ih _ visited
    rw [passIds, List.mapIdx_cons]
    simp only [List.length_append, List.length_singleton, Nat.add_assoc, Nat.add_comm 1] at rest
    rw [List.append_assoc] at rest
    exact rest

theorem passesIds_consistent (answers : Nat → Nat → Answers) (n j : Nat) {table : List InverterInfo}
    (consistent : Consistent ids table) :
    Consistent (passesIds T ecu answers n j table ids) (passes T ecu answers n j table) := by
  induction n generalizing j table ids with
  | zero => exact consistent
  | succ n ih =>
    have passed : Consistent (passIds T ecu answers j [] table ids) ((pass T ecu answers j table).map Prod.fst) := by
      have all := passIds_consistent T ecu [] table answers j consistent
      simp only [List.length_nil, Nat.zero_add, List.nil_append] at all
      rwa [List.mapIdx_eq_iff.2 (pass_getElem? T ecu answers j table)] at all
    rw [passesIds, passes]
    split
    · exact ih (j + 1) passed
    · exact passed

end Visit

/-! ## Runs -/

theorem Consistent.map {ids : List Byte} {table : List InverterInfo} {f : InverterInfo → InverterInfo}
    (consistent : Consistent ids table) (columns : ∀ x, fresh (f x) = fresh x) (stored : ∀ x, (f x).stored = x.stored) :
    Consistent ids (table.map f) := by
  have wf := consistent.wellFormed
  have id (x : InverterInfo) : (f x).id = x.id := congrArg (·.id) (columns x)
  constructor
  · constructor
    · intro y mem
      obtain ⟨x, inTable, rfl⟩ := List.mem_map.1 mem
      exact (wf.printable x inTable).of_fresh (columns x) ((stored x).symm ▸ (wf.printable x inTable).bounded)
    · rw [List.map_map]
      exact (List.map_congr_left fun x _ => id x) ▸ wf.distinct
    · rw [List.length_map]
      exact wf.size
  · rw [consistent.listed, List.map_map]
    exact List.map_congr_left fun x _ => (columns x).symm

theorem stationRound_consistent (T : Target) (round : Round) {s : Station}
    (consistent : Consistent s.disk.ids s.table) :
    Consistent (stationRound T s round).disk.ids (stationRound T s round).table := by
  have passed := passesIds_consistent T round.ecu round.answers 5 0 consistent
  apply passed.map
  · intro x
    obtain ⟨n, frame⟩ := countMissing_frame x
    rw [frame]
    rfl
  · intro x
    obtain ⟨n, frame⟩ := countMissing_frame x
    rw [frame]

theorem stationRounds_consistent (T : Target) (rounds : List Round) {s : Station}
    (consistent : Consistent s.disk.ids s.table) :
    Consistent (stationRounds T rounds s).disk.ids (stationRounds T rounds s).table := by
  induction rounds generalizing s with
  | nil => exact consistent
  | cons round rounds ih => exact ih (stationRound_consistent T round consistent)

theorem stationRounds_table (T : Target) (rounds : List Round) (s : Station) :
    (stationRounds T rounds s).table = pollRounds T rounds s.table := by
  induction rounds generalizing s with
  | nil => rfl
  | cons round rounds ih => exact ih (stationRound T s round)

theorem start_consistent {disk : Disk} (printable : ∀ x ∈ boot disk, Printable x) :
    Consistent (start disk).disk.ids (start disk).table :=
  ⟨boot_wellFormed printable, boot_listed disk⟩

/-- A start after a round gives back the baselines of the inverters with data, and no others. -/
theorem boot_stationRound (T : Target) (round : Round) {s : Station} (consistent : Consistent s.disk.ids s.table)
    {i : Nat} {y : InverterInfo} (entry : (stationRound T s round).table[i]? = some y) :
    (boot (stationRound T s round).disk)[i]? =
      some (if y.dataflag = 1 then (fresh y).restore y.stored.printed else fresh y) := by
  have after := stationRound_consistent T round consistent
  apply initTmpdb_updateTmpdb after.wellFormed
  · rw [after.listed, List.map_map]
    rfl
  · exact entry
  · rw [after.listed, List.getElem?_map, entry, Option.map_some]

/-! ## Baselines -/

/-- What a start begins with. -/
def Baseline.zero : Baseline :=
  ⟨0, 0, 0, 0, 0, 0, 0, 0⟩

/-- An inverter has data of a round when a frame was accepted from it and not rejected by its decoder. -/
theorem Outcome.dataflag_iff {T : Target} {ecu : EcuInfo} {x y : InverterInfo} {log : List Heard}
    (outcome : Outcome T ecu x log y) : y.dataflag = 1 ↔ ∃ h ∈ log, ¬ h.Refused T := by
  cases outcome with
  | missed refused kept dataflag =>
    refine iff_of_false (fun answered => Nat.zero_ne_one (dataflag.symm.trans answered)) ?_
    rintro ⟨h, mem, taken⟩
    exact taken (refused h mem)
  | @unknown log h refused kept unknown =>
    refine iff_of_true rfl ⟨h, List.mem_append_right _ (List.mem_singleton_self h), ?_⟩
    rintro ⟨d, known, -⟩
    exact absurd (unknown.symm.trans known) (Option.some_ne_none d).symm
  | @decoded log h d deputy refused kept known takes =>
    have taken : Taken d h.frame h.before (d.resolve T ecu h.frame h.before) := Decoder.taken takes
    refine iff_of_true taken.dataflag ⟨h, List.mem_append_right _ (List.mem_singleton_self h), ?_⟩
    rintro ⟨d', known', rejected⟩
    obtain rfl := Option.some_inj.1 (known.symm.trans known')
    exact rejected takes

theorem Baseline.printed_bounded {b : Baseline} (bounded : b.Bounded) : b.printed.Bounded := by
  have column {energy : ℚ} (range : 0 ≤ energy ∧ energy ≤ 20000) :
      0 ≤ FixedPoint.rounded 6 energy ∧ FixedPoint.rounded 6 energy ≤ 20000 :=
    ⟨FixedPoint.rounded_nonneg 6 range.1, FixedPoint.rounded_le 6 (n := 20000) range.2⟩
  refine ⟨?_, bounded.time⟩
  have energies := bounded.energies
  simp only [Baseline.energies, List.forall_mem_cons] at energies ⊢
  obtain ⟨gen, genb, genc, gend, output, outputb, outputc, -⟩ := energies
  exact ⟨column gen, column genb, column genc, column gend, column output, column outputb, column outputc,
    fun energy mem => absurd mem List.not_mem_nil⟩

theorem Baseline.zero_bounded : Baseline.zero.Bounded := by
  refine ⟨?_, by decide⟩
  intro energy mem
  simp only [Baseline.energies, Baseline.zero, List.mem_cons, List.not_mem_nil, or_false, or_self] at mem
  rw [mem]
  norm_num

/-- A start after a round leaves inverters whose rows are read in one go again. -/
theorem boot_printable (T : Target) (round : Round) {s : Station} (consistent : Consistent s.disk.ids s.table) :
    ∀ z ∈ boot (stationRound T s round).disk, Printable z := by
  intro z mem
  have after := stationRound_consistent T round consistent
  obtain ⟨i, there⟩ := List.mem_iff_getElem?.1 mem
  have sizes := congrArg List.length (boot_listed (stationRound T s round).disk)
  rw [after.listed, List.length_map, List.length_map] at sizes
  have inside : i < (stationRound T s round).table.length := by
    rw [sizes]
    exact (List.getElem?_eq_some_iff.1 there).1
  have entry := List.getElem?_eq_getElem inside
  have printable := after.wellFormed.printable _ (List.mem_of_getElem? entry)
  rw [boot_stationRound T round consistent entry, Option.some_inj] at there
  rw [← there]
  split_ifs
  · exact printable.of_fresh rfl (Baseline.printed_bounded printable.bounded)
  · exact printable.of_fresh rfl Baseline.zero_bounded

/-- The inverter `z` of a start goes on from the baseline that `y` had before: its next report gives the measurements
that `y` would have given with this baseline, the decimals rounded. -/
structure Survives (T : Target) (latest : Baseline) (y z : InverterInfo) : Prop where
  stored : z.stored = latest.printed
  measured : ∀ (ecu : EcuInfo) (data : List Byte) (d : Decoder), decoderOf y.model data = some d →
    d.Takes T (data.drop 4) z.toInverter →
    (d.resolve T ecu (data.drop 4) z.toInverter).2.measured =
      (d.resolve T ecu (data.drop 4) (y.restore latest.printed).toInverter).2.measured

theorem survives_of_stored {T : Target} {latest : Baseline} {y z : InverterInfo} (two : TwoPanels y) (on : PowerOn z)
    (columns : fresh z = fresh y) (stored : z.stored = latest.printed) : Survives T latest y z := by
  refine ⟨stored, fun ecu data d known takes => ?_⟩
  have yc1000 := Heard.yc1000_iff (h := ⟨y, data⟩) known
  have id : z.id = y.id := congrArg (·.id) columns
  have model : z.model = y.model := congrArg (·.model) columns
  have blank : z.toInverter = Inverter.blank y.id y.model latest.printed := by
    rw [on, id, model, stored]
  have takes' : d.Takes T (data.drop 4) (y.restore latest.printed).toInverter := by
    rw [blank] at takes
    cases d with
    | yc600 => trivial
    | yc600New => trivial
    | yc1000 => exact takes
  have two' : d ≠ .yc1000 → (y.restore latest.printed).third = List.replicate 20 0 :=
    fun other => two fun same => other (yc1000.1 same)
  rw [Decoder.measured two' takes', blank]
  rfl

/-- What a start brings back after a run. -/
theorem boot_stationRounds (T : Target) (rounds : List Round) (round : Round) {disk : Disk}
    (printable : ∀ x ∈ boot disk, Printable x) {i : Nat} {y : InverterInfo}
    (entry : (stationRounds T (rounds ++ [round]) (start disk)).table[i]? = some y) :
    (boot (stationRounds T (rounds ++ [round]) (start disk)).disk)[i]? =
      some (if y.dataflag = 1 then (fresh y).restore y.stored.printed else fresh y) := by
  have consistent := stationRounds_consistent T rounds (start_consistent printable)
  have split : stationRounds T (rounds ++ [round]) (start disk) =
      stationRound T (stationRounds T rounds (start disk)) round := List.foldl_append
  rw [split] at entry ⊢
  exact boot_stationRound T round consistent entry

theorem restart_iff (T : Target) (rounds : List Round) (round : Round) {disk : Disk}
    (printable : ∀ x ∈ boot disk, Printable x) {i : Nat} {x : InverterInfo} (entry : (boot disk)[i]? = some x) :
    let last := stationRounds T (rounds ++ [round]) (start disk)
    let latest := baselineAfter x.stored (framesBy T (rounds ++ [round]) (boot disk) i)
    ∃ y z, last.table[i]? = some y ∧ (boot last.disk)[i]? = some z ∧ fresh z = fresh y ∧
      (Survives T latest y z ↔
        (∃ h ∈ heardBy T round (pollRounds T rounds (boot disk)) i, ¬ h.Refused T) ∨ latest.printed =
          Baseline.zero) := by
  intro last latest
  obtain ⟨w, before, -⟩ := run_entry T rounds entry
  obtain ⟨y, next, memory⟩ := run_entry T (rounds ++ [round]) entry
  have after : last.table[i]? = some y := by
    rw [stationRounds_table]
    exact next
  have booted := boot_stationRounds T rounds round printable after
  have two : TwoPanels y :=
    pollRounds_twoPanels (rounds ++ [round]) (boot_powerOn disk) y (List.mem_of_getElem? next)
  have stored : y.stored = latest := congrArg Memory.baseline memory
  have heard : y.dataflag = 1 ↔ ∃ h ∈ heardBy T round (pollRounds T rounds (boot disk)) i, ¬ h.Refused T := by
    rw [pollRounds, List.foldl_append] at next
    obtain ⟨z, outcome, rfl⟩ := pollRound_outcome T round before next
    obtain ⟨n, frame⟩ := countMissing_frame z
    rw [frame]
    exact outcome.dataflag_iff
  refine ⟨y, _, after, booted, ?_, ?_⟩
  · split_ifs
    · rfl
    · rfl
  · rw [← heard]
    by_cases answered : y.dataflag = 1
    · rw [if_pos answered]
      exact iff_of_true (survives_of_stored two rfl rfl (stored ▸ rfl)) (.inl answered)
    · rw [if_neg answered]
      constructor
      · intro survives
        exact .inr survives.stored.symm
      · rintro (data | zero)
        · exact absurd data answered
        · exact survives_of_stored two rfl rfl zero.symm

theorem sample_printable : Printable sampleInverter := by
  refine ⟨⟨by decide, ?_⟩, Baseline.zero_bounded, by decide, by decide, by decide, by decide, by decide, by decide⟩
  unfold Plain
  decide +kernel

/-- The files before the first round of the sample inverter. -/
def sampleDisk : Disk where
  ids := updateID [sampleInverter]
  collect := []

theorem sampleDisk_boot : boot sampleDisk = [sampleInverter] := by
  have wf : WellFormed [sampleInverter] :=
    ⟨List.forall_mem_singleton.2 sample_printable, List.nodup_singleton _, by decide⟩
  have loaded : load sampleDisk.ids = [sampleInverter] := load_updateID wf
  have nothing : Lines.readLines newline 200 sampleDisk.collect = [] := rfl
  rw [boot, loaded, initTmpdb, nothing, List.foldl_nil]

theorem sampleDisk_printable : ∀ x ∈ boot sampleDisk, Printable x := by
  rw [sampleDisk_boot]
  exact List.forall_mem_singleton.2 sample_printable

theorem restart_sample :
    let last := stationRounds sampleTarget ([] ++ [sampleRound 0xBB]) (start sampleDisk)
    let latest := baselineAfter sampleInverter.stored
      (framesBy sampleTarget ([] ++ [sampleRound 0xBB]) (boot sampleDisk) 0)
    ∃ y z, last.table[0]? = some y ∧ (boot last.disk)[0]? = some z ∧ fresh z = fresh y ∧
      (Survives sampleTarget latest y z ↔
        (∃ h ∈ heardBy sampleTarget (sampleRound 0xBB) (pollRounds sampleTarget [] (boot sampleDisk)) 0,
          ¬ h.Refused sampleTarget) ∨ latest.printed = Baseline.zero) :=
  restart_iff sampleTarget [] (sampleRound 0xBB) sampleDisk_printable (by rw [sampleDisk_boot]; rfl)

/-- A round with this reply. -/
def replyRound (reply : Option (List Byte)) : Round where
  ecu := ⟨[], 0, 0, 0, 0, 0, [], 1⟩
  answers _ _ := ⟨true, none, reply⟩

/-- The inverter answers in a round and misses the next. -/
def lostRounds : List Round :=
  [replyRound (some lateReply)] ++ [replyRound none]

theorem lost_dataflag : (pollRounds sampleTarget lostRounds [sampleInverter])[0]?.map (·.dataflag) = some 0 := by
  decide +kernel

theorem lost_time : (baselineAfter sampleInverter.stored
    (framesBy sampleTarget lostRounds [sampleInverter] 0)).preacctime = 1000 := by
  decide +kernel

/-- A baseline is lost when its inverter misses the last round before the power loss. -/
theorem baseline_lost :
    ¬ ∀ (T : Target) (rounds : List Round) (round : Round) (disk : Disk), (∀ x ∈ boot disk, Printable x) →
      ∀ (i : Nat) (x : InverterInfo), (boot disk)[i]? = some x →
        ∃ y z, (stationRounds T (rounds ++ [round]) (start disk)).table[i]? = some y ∧
          (boot (stationRounds T (rounds ++ [round]) (start disk)).disk)[i]? = some z ∧ fresh z = fresh y ∧
          Survives T (baselineAfter x.stored (framesBy T (rounds ++ [round]) (boot disk) i)) y z := by
  intro claim
  have entry : (boot sampleDisk)[0]? = some sampleInverter := by
    rw [sampleDisk_boot]
    rfl
  obtain ⟨y, z, after, booted, -, survives⟩ :=
    claim sampleTarget [replyRound (some lateReply)] (replyRound none) sampleDisk sampleDisk_printable 0 sampleInverter
      entry
  have restored := boot_stationRounds sampleTarget _ _ sampleDisk_printable after
  have same := Option.some_inj.1 (booted.symm.trans restored)
  rw [stationRounds_table] at after
  have silent : y.dataflag = 0 := by
    have flags := lost_dataflag
    rw [lostRounds, ← sampleDisk_boot] at flags
    have there : (pollRounds sampleTarget ([replyRound (some lateReply)] ++ [replyRound none]) (boot sampleDisk))[0]? =
      some y := after
    rw [there] at flags
    exact Option.some_inj.1 flags
  rw [silent, if_neg Nat.zero_ne_one] at same
  have time := lost_time
  rw [lostRounds, ← sampleDisk_boot] at time
  have stored := survives.stored
  generalize baselineAfter _ _ = latest at time stored
  rw [same] at stored
  have none : (0 : Int) = latest.preacctime := congrArg Baseline.preacctime stored
  rw [time] at none
  exact absurd none (by decide)

end Poll

end Ecu
