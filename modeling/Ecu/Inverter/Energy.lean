import Ecu.Lib.Meter
import Ecu.Inverter.Resolve

/-!
# The energy account of an inverter

For its energy an inverter is a meter of two channels (YC600) or four (YC1000): the accumulators
and the time that its last accepted report showed are the baseline. The resolve functions take a report
for the next reading (`resolve600_counts`, `resolve1000_counts`), and a run of rounds counts for
each channel what `Meter` says.
-/

namespace Ecu

open Meter

/-! ## Inverters as meters -/

def reading600 (data : Frame) : Reading (Fin 2) ℚ :=
  ⟨![data.accgen600 32, data.accgen600 27], data.acctime⟩

def reading1000 (data : Frame) : Reading (Fin 4) ℚ :=
  ⟨![data.accgen1000 27, data.accgen1000 32, data.accgen1000 37, data.accgen1000 42], data.acctime⟩

/-- What the inverter showed at its last accepted report. -/
def baseline600 (inverter : Inverter) : Reading (Fin 2) ℚ :=
  ⟨![inverter.preaccgen, inverter.preaccgenb], inverter.preacctime⟩

def baseline1000 (inverter : Inverter) : Reading (Fin 4) ℚ :=
  ⟨![inverter.preaccgen, inverter.preaccgenb, inverter.preaccgenc, inverter.preaccgend], inverter.preacctime⟩

/-- The energies of the round. -/
def counted600 (inverter : Inverter) : Fin 2 → ℚ :=
  ![inverter.curgeneration, inverter.curgenerationb]

def counted1000 (inverter : Inverter) : Fin 4 → ℚ :=
  ![inverter.curgeneration, inverter.curgenerationb, inverter.curgenerationc, inverter.curgenerationd]

def rules600 : Rules (Fin 2) ℚ where
  rejects _ _ := False
  continues base r := (∀ i, base.acc i ≤ r.acc i) ∧ base.time ≤ r.time
  cap := maxCurgeneration
  decidableRejects _ _ := inferInstanceAs (Decidable False)
  grows _ _ continues := continues.1
  cap_nonneg := maxCurgeneration_nonneg

/-- The channels that the jump test of `resolvedata_1000` looks at are the first three. -/
def rules1000 : Rules (Fin 4) ℚ where
  rejects base r := r.time - base.time < 14400 ∧ ∃ i, i ≠ 3 ∧ r.acc i - base.acc i > 1
  continues base r := (∀ i, base.acc i < r.acc i) ∧ base.time < r.time
  cap := maxCurgeneration
  decidableRejects _ _ := inferInstanceAs (Decidable (_ ∧ _))
  grows _ _ continues i := le_of_lt (continues.1 i)
  cap_nonneg := maxCurgeneration_nonneg

/-! ## One report -/

/-- A channel of a report that continues the one before counts the difference. -/
theorem clamp_sinceLast {continued : Bool} {cur pre : ℚ} (goesOn : continued = true) (grown : pre ≤ cur) :
    clamp 0 maxCurgeneration (sinceLast continued cur pre) = min (cur - pre) maxCurgeneration := by
  rw [sinceLast, if_pos goesOn, clamp_eq_min maxCurgeneration_nonneg (sub_nonneg.2 grown)]

/-- A channel of a report after a restart counts what it shows. -/
theorem clamp_restarted {continued : Bool} {cur pre : ℚ} (restarted : continued = false) (nonneg : 0 ≤ cur) :
    clamp 0 maxCurgeneration (sinceLast continued cur pre) = min cur maxCurgeneration := by
  rw [sinceLast, restarted, if_neg Bool.false_ne_true, clamp_eq_min maxCurgeneration_nonneg nonneg]

theorem yc600Status_frame (inverter : Inverter) :
    ∃ ema flag, yc600Status inverter = { inverter with statusEma := ema, statusSendFlag := flag } := by
  unfold yc600Status
  dsimp only
  split
  · exact ⟨_, _, rfl⟩
  · exact ⟨_, _, rfl⟩

theorem yc1000Status_frame (inverter : Inverter) :
    ∃ ema flag, yc1000Status inverter = { inverter with statusEma := ema, statusSendFlag := flag } := by
  unfold yc1000Status
  dsimp only
  split
  · exact ⟨_, _, rfl⟩
  · exact ⟨_, _, rfl⟩

/-- What a resolve function does to the energy account, as the rules say it: a rejected report leaves
the baseline and withdraws the data; any other one becomes the baseline, counts the capped difference
where it continues the baseline, and what it shows where it is below the baseline altogether. -/
structure Counts {ι : Type} (resolve : Frame → Inverter → Nat × Inverter) (rules : Rules ι ℚ)
    (reading : Frame → Reading ι ℚ) (baseline : Inverter → Reading ι ℚ) (counted : Inverter → ι → ℚ) : Prop where
  rejected : ∀ data inverter, rules.rejects (baseline inverter) (reading data) →
    (resolve data inverter).1 = 0 ∧ (resolve data inverter).2.dataflag = 0 ∧
      baseline (resolve data inverter).2 = baseline inverter
  accepted : ∀ data inverter, ¬ rules.rejects (baseline inverter) (reading data) →
    (resolve data inverter).1 = 1 ∧ baseline (resolve data inverter).2 = reading data
  continued : ∀ data inverter, ¬ rules.rejects (baseline inverter) (reading data) →
    rules.continues (baseline inverter) (reading data) → ∀ i,
      counted (resolve data inverter).2 i =
        min ((reading data).acc i - (baseline inverter).acc i) rules.cap
  restarted : ∀ data inverter, (∀ i, (reading data).acc i < (baseline inverter).acc i) →
    (reading data).time < (baseline inverter).time →
      ¬ rules.rejects (baseline inverter) (reading data) ∧ ∀ i,
        counted (resolve data inverter).2 i = min ((reading data).acc i) rules.cap

theorem accgen600_nonneg (data : Frame) (i : Nat) : 0 ≤ data.accgen600 i := by
  unfold Frame.accgen600
  positivity

theorem accgen1000_nonneg (data : Frame) (i : Nat) : 0 ≤ data.accgen1000 i := by
  unfold Frame.accgen1000
  positivity

section Resolve600

variable (T : Target) (ecu : EcuInfo) (it : Int) (gv : ℚ) (web : List Byte) (high low : Nat) (data : Frame)
  (inverter : Inverter)

theorem resolve600_baseline :
    baseline600 (resolve600 T ecu it gv web high low data inverter).2 = reading600 data := by
  obtain ⟨ema, flag, frame⟩ := yc600Status_frame _
  rw [resolve600, frame]
  rfl

/-- The test of a YC600 report. -/
def continued600 : Bool :=
  Continued600 (outputEnergy600 (decode600 T it gv data inverter))

theorem continued600_iff :
    continued600 T it gv data inverter = true ↔ rules600.continues (baseline600 inverter) (reading600 data) := by
  rw [continued600, decide_eq_true_iff]
  change (_ ∧ _ ∧ _) ↔ (∀ i, _) ∧ _
  rw [Fin.forall_fin_two, and_assoc]
  rfl

theorem resolve600_counted :
    counted600 (resolve600 T ecu it gv web high low data inverter).2 =
      ![clamp 0 maxCurgeneration
          (sinceLast (continued600 T it gv data inverter) (data.accgen600 32) inverter.preaccgen),
        clamp 0 maxCurgeneration
          (sinceLast (continued600 T it gv data inverter) (data.accgen600 27) inverter.preaccgenb)] := by
  obtain ⟨ema, flag, frame⟩ := yc600Status_frame _
  rw [resolve600, frame]
  rfl

end Resolve600

theorem resolve600_counts (T : Target) (ecu : EcuInfo) (it : Frame → Int) (gv : Frame → ℚ)
    (web : Frame → List Byte) (high low : Nat) :
    Counts (fun data => resolve600 T ecu (it data) (gv data) (web data) high low data) rules600 reading600
      baseline600 counted600 where
  rejected := fun _ _ rejected => rejected.elim
  accepted := fun data inverter _ => ⟨rfl, resolve600_baseline ..⟩
  continued := by
    intro data inverter _ continues i
    have goesOn := (continued600_iff T (it data) (gv data) data inverter).2 continues
    have grown := continues.1
    rw [resolve600_counted]
    fin_cases i
    · exact clamp_sinceLast goesOn (grown 0)
    · exact clamp_sinceLast goesOn (grown 1)
  restarted := by
    intro data inverter less earlier
    refine ⟨not_false, ?_⟩
    have restarted : continued600 T (it data) (gv data) data inverter = false := by
      rw [← Bool.not_eq_true, continued600_iff]
      exact fun continues => absurd continues.2 (not_le.2 earlier)
    intro i
    rw [resolve600_counted]
    fin_cases i
    · exact clamp_restarted restarted (accgen600_nonneg data 32)
    · exact clamp_restarted restarted (accgen600_nonneg data 27)

section Resolve1000

variable (T : Target) (ecu : EcuInfo) (data : Frame) (inverter : Inverter)

theorem jumped_iff :
    Jumped (decode1000 T data inverter) ↔ rules1000.rejects (baseline1000 inverter) (reading1000 data) := by
  change (_ ∧ (_ ∨ _ ∨ _)) ↔ _ ∧ ∃ i, _
  apply and_congr Iff.rfl
  constructor
  · rintro (jump | jump | jump)
    · exact ⟨0, by decide, jump⟩
    · exact ⟨1, by decide, jump⟩
    · exact ⟨2, by decide, jump⟩
  · rintro ⟨i, looked, jump⟩
    fin_cases i
    · exact Or.inl jump
    · exact Or.inr (Or.inl jump)
    · exact Or.inr (Or.inr jump)
    · exact absurd rfl looked

/-- The test of a YC1000 report. -/
def continued1000 : Bool :=
  Continued1000 (outputEnergy1000 (decode1000 T data inverter))

theorem continued1000_iff :
    continued1000 T data inverter = true ↔ rules1000.continues (baseline1000 inverter) (reading1000 data) := by
  rw [continued1000, decide_eq_true_iff]
  change (_ ∧ _ ∧ _ ∧ _ ∧ _) ↔ (∀ i, _) ∧ _
  rw [Fin.forall_fin_succ, Fin.forall_fin_succ, Fin.forall_fin_two]
  simp only [and_assoc]
  rfl

theorem resolve1000_accepted (kept : ¬ Jumped (decode1000 T data inverter)) :
    (resolvedata1000 T ecu data inverter).1 = 1 ∧
      baseline1000 (resolvedata1000 T ecu data inverter).2 = reading1000 data ∧
      counted1000 (resolvedata1000 T ecu data inverter).2 =
        ![clamp 0 maxCurgeneration
            (sinceLast (continued1000 T data inverter) (data.accgen1000 27) inverter.preaccgen),
          clamp 0 maxCurgeneration
            (sinceLast (continued1000 T data inverter) (data.accgen1000 32) inverter.preaccgenb),
          clamp 0 maxCurgeneration
            (sinceLast (continued1000 T data inverter) (data.accgen1000 37) inverter.preaccgenc),
          clamp 0 maxCurgeneration
            (sinceLast (continued1000 T data inverter) (data.accgen1000 42) inverter.preaccgend)] := by
  obtain ⟨ema, flag, frame⟩ := yc1000Status_frame _
  rw [resolvedata1000]
  dsimp only
  rw [if_neg kept, frame]
  exact ⟨rfl, rfl, rfl⟩

end Resolve1000

theorem resolve1000_counts (T : Target) (ecu : EcuInfo) :
    Counts (resolvedata1000 T ecu) rules1000 reading1000 baseline1000 counted1000 where
  rejected := by
    intro data inverter rejected
    rw [resolvedata1000]
    dsimp only
    rw [if_pos ((jumped_iff T data inverter).2 rejected)]
    exact ⟨rfl, rfl, rfl⟩
  accepted := by
    intro data inverter kept
    have accepted := resolve1000_accepted T ecu data inverter fun jumped => kept ((jumped_iff T data inverter).1 jumped)
    exact ⟨accepted.1, accepted.2.1⟩
  continued := by
    intro data inverter kept continues i
    have accepted := resolve1000_accepted T ecu data inverter fun jumped => kept ((jumped_iff T data inverter).1 jumped)
    have goesOn := (continued1000_iff T data inverter).2 continues
    have grown := rules1000.grows _ _ continues
    rw [accepted.2.2]
    fin_cases i
    · exact clamp_sinceLast goesOn (grown 0)
    · exact clamp_sinceLast goesOn (grown 1)
    · exact clamp_sinceLast goesOn (grown 2)
    · exact clamp_sinceLast goesOn (grown 3)
  restarted := by
    intro data inverter less earlier
    have kept : ¬ rules1000.rejects (baseline1000 inverter) (reading1000 data) := by
      rintro ⟨-, i, -, jump⟩
      have := less i
      linarith
    refine ⟨kept, ?_⟩
    have accepted := resolve1000_accepted T ecu data inverter fun jumped => kept ((jumped_iff T data inverter).1 jumped)
    have restarted : continued1000 T data inverter = false := by
      rw [← Bool.not_eq_true, continued1000_iff]
      exact fun continues => lt_asymm continues.2 earlier
    intro i
    rw [accepted.2.2]
    fin_cases i
    · exact clamp_restarted restarted (accgen1000_nonneg data 27)
    · exact clamp_restarted restarted (accgen1000_nonneg data 32)
    · exact clamp_restarted restarted (accgen1000_nonneg data 37)
    · exact clamp_restarted restarted (accgen1000_nonneg data 42)

/-! ## Runs of rounds -/

/-- The reset of an inverter at the start of a round (`getalldata`). -/
def clearData (inverter : Inverter) : Inverter :=
  { inverter with
    dataflag := 0, dv := 0, di := 0, op := 0, gf := 0, it := 0, gv := 0, dvb := 0, dib := 0, opb := 0,
    curgeneration := 0, curgenerationb := 0, statusSendFlag := 0
    statusWeb := List.replicate 50 nul
    status := List.replicate 12 nul
    statusb := List.replicate 12 nul }

/-- The inverter after each round whose report was accepted. -/
def rounds (resolve : Frame → Inverter → Nat × Inverter) : Inverter → List Frame → List Inverter
  | _, [] => []
  | inverter, data :: frames =>
    let r := resolve data { clearData inverter with dataflag := 1 }
    if r.1 = 1 then r.2 :: rounds resolve r.2 frames else rounds resolve r.2 frames

section Runs

variable {ι : Type} {resolve : Frame → Inverter → Nat × Inverter} {rules : Rules ι ℚ}
  {reading : Frame → Reading ι ℚ} {baseline : Inverter → Reading ι ℚ} {counted : Inverter → ι → ℚ}

/-- Over a run whose accepted reports continue each other, each round counts the capped difference. -/
theorem Counts.rounds (counts : Counts resolve rules reading baseline counted)
    (cleared : ∀ inverter, baseline { clearData inverter with dataflag := 1 } = baseline inverter)
    {inverter : Inverter} {frames : List Frame}
    (advancing : rules.Advancing (baseline inverter) (frames.map reading)) (i : ι) :
    (rounds resolve inverter frames).map (counted · i) =
      (rules.used i (baseline inverter) (frames.map reading)).map (min · rules.cap) := by
  induction frames generalizing inverter with
  | nil => rfl
  | cons data frames ih =>
    rw [List.map_cons] at advancing ⊢
    rw [Ecu.rounds]
    dsimp only
    by_cases rejected : rules.rejects (baseline inverter) (reading data)
    · obtain ⟨zero, -, kept⟩ := counts.rejected data { clearData inverter with dataflag := 1 }
        (by rw [cleared]; exact rejected)
      rw [cleared] at kept
      rw [zero, if_neg Nat.zero_ne_one, ih, kept]
      · rw [Rules.used, Rules.used, rules.accepted_cons_rejected rejected]
      · rw [kept]
        rwa [Rules.Advancing, rules.accepted_cons_rejected rejected] at advancing
    · have used : ¬ rules.rejects (baseline { clearData inverter with dataflag := 1 }) (reading data) := by
        rwa [cleared]
      obtain ⟨one, moved⟩ := counts.accepted data { clearData inverter with dataflag := 1 } used
      obtain ⟨continues, later⟩ := advancing.head rejected
      have now := counts.continued data { clearData inverter with dataflag := 1 } used
        (by rw [cleared]; exact continues) i
      rw [cleared] at now
      rw [one, if_pos rfl, List.map_cons, now, ih (by rw [moved]; exact later), moved, Rules.used, Rules.used,
        rules.accepted_cons rejected]
      rfl

/-- No energy is counted twice: the rounds add up to no more than the accumulator has grown, and to
exactly that when no difference exceeds the cap. -/
theorem Counts.sum_rounds (counts : Counts resolve rules reading baseline counted)
    (cleared : ∀ inverter, baseline { clearData inverter with dataflag := 1 } = baseline inverter)
    {inverter : Inverter} {frames : List Frame}
    (advancing : rules.Advancing (baseline inverter) (frames.map reading)) (i : ι) :
    ((Ecu.rounds resolve inverter frames).map (counted · i)).sum ≤
        ((rules.accepted (baseline inverter) (frames.map reading)).getLastD (baseline inverter)).acc i -
          (baseline inverter).acc i ∧
      (((Ecu.rounds resolve inverter frames).map (counted · i)).sum =
          ((rules.accepted (baseline inverter) (frames.map reading)).getLastD (baseline inverter)).acc i -
            (baseline inverter).acc i ↔
        ∀ d ∈ rules.used i (baseline inverter) (frames.map reading), d ≤ rules.cap) := by
  rw [counts.rounds cleared advancing, ← rules.sum_used]
  exact ⟨sum_capped_le _ _, sum_capped_eq_iff _ _⟩

end Runs

/-- The energy account of one kind of inverter: what one report counts, and what a run adds up to. -/
structure Accounts {ι : Type} (resolve : Frame → Inverter → Nat × Inverter) (rules : Rules ι ℚ)
    (reading : Frame → Reading ι ℚ) (baseline : Inverter → Reading ι ℚ) (counted : Inverter → ι → ℚ) : Prop
    extends Counts resolve rules reading baseline counted where
  run : ∀ (inverter : Inverter) (frames : List Frame),
    rules.Advancing (baseline inverter) (frames.map reading) → ∀ i,
      ((rounds resolve inverter frames).map (counted · i)).sum ≤
          ((rules.accepted (baseline inverter) (frames.map reading)).getLastD (baseline inverter)).acc i -
            (baseline inverter).acc i ∧
        (((rounds resolve inverter frames).map (counted · i)).sum =
            ((rules.accepted (baseline inverter) (frames.map reading)).getLastD (baseline inverter)).acc i -
              (baseline inverter).acc i ↔
          ∀ d ∈ rules.used i (baseline inverter) (frames.map reading), d ≤ rules.cap)

/-- All three resolve functions keep their account. -/
theorem resolve_accounts (T : Target) (ecu : EcuInfo) :
    Accounts (resolvedata600 T ecu) rules600 reading600 baseline600 counted600 ∧
      Accounts (resolvedata600New T ecu) rules600 reading600 baseline600 counted600 ∧
      Accounts (resolvedata1000 T ecu) rules1000 reading1000 baseline1000 counted1000 := by
  have old : Counts (resolvedata600 T ecu) rules600 reading600 baseline600 counted600 :=
    resolve600_counts T ecu _ _ (fun data => statusWeb600 data (List.replicate 4 (digit 0))) 2 3
  have new : Counts (resolvedata600New T ecu) rules600 reading600 baseline600 counted600 :=
    resolve600_counts T ecu _ _
      (fun data => statusWeb600 data [data.bit 24 2, data.bit 24 1, data.bit 24 0, data.bit 26 1]) 23 24
  have yc1000 := resolve1000_counts T ecu
  exact ⟨⟨old, fun _ _ => old.sum_rounds fun _ => rfl⟩, ⟨new, fun _ _ => new.sum_rounds fun _ => rfl⟩,
    ⟨yc1000, fun _ _ => yc1000.sum_rounds fun _ => rfl⟩⟩

/-- A YC600 report ten seconds after the start, with more than a kWh on its first accumulator. -/
def fullFrame : Frame :=
  List.replicate 8 0 ++ [10] ++ List.replicate 23 0 ++ [10] ++ List.replicate 55 0

/-- A YC1000 report with more than a kWh on the first accumulator and something on the others. -/
def jumpFrame : Frame :=
  List.replicate 8 0 ++ [10] ++ List.replicate 18 0 ++ [8, 0, 0, 0, 0, 1, 0, 0, 0, 0, 1, 0, 0, 0, 0, 1] ++
    List.replicate 45 0

/-- A YC1000 report with something on the first accumulator only. -/
def idleFrame : Frame :=
  List.replicate 8 0 ++ [10] ++ List.replicate 19 0 ++ [1] ++ List.replicate 59 0

/-- The account is not exact: a YC600 counts no more than the cap, a YC1000 report with a jump is
rejected, and a YC1000 whose channels are idle counts its whole accumulator again. -/
theorem account_not_exact :
    (¬ ∀ (T : Target) (ecu : EcuInfo) (data : Frame) (inverter : Inverter),
      rules600.continues (baseline600 inverter) (reading600 data) →
        ∀ i, counted600 (resolvedata600 T ecu data inverter).2 i =
          (reading600 data).acc i - (baseline600 inverter).acc i) ∧
    (¬ ∀ (T : Target) (ecu : EcuInfo) (data : Frame) (inverter : Inverter),
      rules1000.continues (baseline1000 inverter) (reading1000 data) →
        (resolvedata1000 T ecu data inverter).1 = 1) ∧
    ¬ ∀ (T : Target) (ecu : EcuInfo) (data : Frame) (inverter : Inverter),
      (∀ i, (baseline1000 inverter).acc i ≤ (reading1000 data).acc i) →
      (baseline1000 inverter).time < (reading1000 data).time →
      ∀ i, counted1000 (resolvedata1000 T ecu data inverter).2 i =
        (reading1000 data).acc i - (baseline1000 inverter).acc i := by
  let ecu : EcuInfo := ⟨[], 0, 0, 0, 0, 0, [], 1⟩
  refine ⟨fun claim => ?_, fun claim => ?_, fun claim => ?_⟩
  · have capped := claim sampleTarget ecu fullFrame { id := [], model := 7 }
      ⟨by decide +kernel, by decide +kernel⟩ 0
    revert capped
    decide +kernel
  · have rejected := claim sampleTarget ecu jumpFrame { id := [], model := 5 }
      ⟨by decide +kernel, by decide +kernel⟩
    revert rejected
    decide +kernel
  · have again := claim sampleTarget ecu idleFrame
      { id := [], model := 5, preaccgen := idleFrame.accgen1000 27, preacctime := 5 }
      (by decide +kernel) (by decide +kernel) 0
    revert again
    decide +kernel

end Ecu
