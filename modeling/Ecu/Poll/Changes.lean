import Ecu.Poll.Fresh

/-!
# Changes of state

A decoded frame shows the GFDI state and the on/off state of its inverter. The changed flags tell whether the frame
that was decoded last, whenever that was, has shown another state than the one before (`flag_changesAfter`).
-/

namespace Ecu.Poll

/-! ## What has been decoded -/

/-- A frame that was decoded. -/
abbrev Decoded := Decoder × Frame

/-- The frame that a decoder takes; it is the last one of its round. -/
def takenIn (T : Target) (log : List Heard) : Option Decoded :=
  log.findSome? fun h =>
    h.decoder.bind fun d => if d.Takes T h.frame h.before then some (d, h.frame) else none

/-- The frame of the `i`-th inverter that is decoded in a round. -/
def takenBy (T : Target) (round : Round) (table : List InverterInfo) (i : Nat) : Option Decoded :=
  takenIn T (heardBy T round table i)

/-- The frames of the `i`-th inverter that are decoded in a run. -/
def framesBy (T : Target) : List Round → List InverterInfo → Nat → List Decoded
  | [], _, _ => []
  | round :: rounds, table, i =>
    (takenBy T round table i).toList ++ framesBy T rounds (pollRound T round.ecu round.answers table) i

/-- The states and flags after these frames. -/
def changesAfter (before : Changes) (frames : List Decoded) : Changes :=
  frames.foldl (fun changes f => changes.update (f.1.gfdi f.2) (f.1.turnOff f.2)) before

/-- The baseline after these frames. -/
def baselineAfter (before : Baseline) (frames : List Decoded) : Baseline :=
  frames.foldl (fun baseline f => f.1.baseline f.2 baseline) before

/-- What an inverter keeps after these frames. -/
def memoryAfter (before : Memory) (frames : List Decoded) : Memory where
  id := before.id
  baseline := baselineAfter before.baseline frames
  changes := changesAfter before.changes frames

theorem memoryAfter_append (before : Memory) (first second : List Decoded) :
    memoryAfter before (first ++ second) = memoryAfter (memoryAfter before first) second := by
  unfold memoryAfter baselineAfter changesAfter
  rw [List.foldl_append, List.foldl_append]

theorem takenIn_refused {T : Target} {log rest : List Heard} (refused : ∀ h ∈ log, h.Refused T) :
    takenIn T (log ++ rest) = takenIn T rest := by
  unfold takenIn
  rw [List.findSome?_append, List.findSome?_eq_none_iff.2, Option.none_or]
  intro h mem
  obtain ⟨d, known, jumped⟩ := refused h mem
  rw [known, Option.bind_some, if_neg jumped]

/-- A round changes the memory by the frame that is decoded in it. -/
theorem Outcome.memory {T : Target} {ecu : EcuInfo} {x y : InverterInfo} {log : List Heard}
    (outcome : Outcome T ecu x log y) : y.memory = memoryAfter x.memory (takenIn T log).toList := by
  cases outcome with
  | missed refused kept dataflag =>
    have none : takenIn T log = none := by
      rw [← List.append_nil log, takenIn_refused refused]
      rfl
    rw [none]
    exact kept.memory
  | @unknown log h refused kept unknown =>
    have none : takenIn T (log ++ [h]) = none := by
      rw [takenIn_refused refused, takenIn, List.findSome?_singleton, unknown]
      rfl
    rw [none]
    exact kept.memory
  | @decoded log h d deputy refused kept known takes =>
    have some : takenIn T (log ++ [h]) = some (d, h.frame) := by
      rw [takenIn_refused refused, takenIn, List.findSome?_singleton, known, Option.bind_some, if_pos takes]
    have taken : Taken d h.frame h.before (d.resolve T ecu h.frame h.before) := Decoder.taken takes
    have before : h.before.memory = x.memory := kept.memory
    rw [some, ← before, Inverter.memory, taken.id, taken.stored, taken.changes]
    rfl

/-- An entry before and after a round. -/
theorem round_entry (T : Target) (round : Round) {table : List InverterInfo} {i : Nat} {x : InverterInfo}
    (before : table[i]? = some x) :
    ∃ y, (pollRound T round.ecu round.answers table)[i]? = some y ∧
      y.memory = memoryAfter x.memory (takenBy T round table i).toList := by
  have after := pollRound_getElem? T round.ecu round.answers table i
  rw [before, Option.map_some] at after
  obtain ⟨z, outcome, same⟩ := pollRound_outcome T round before after
  obtain ⟨n, frame⟩ := countMissing_frame z
  refine ⟨_, after, ?_⟩
  rw [same, frame]
  exact outcome.memory

/-- An entry after a run: its memory is what its decoded frames have left. -/
theorem run_entry (T : Target) (rounds : List Round) {table : List InverterInfo} {i : Nat} {x : InverterInfo}
    (before : table[i]? = some x) :
    ∃ y, (pollRounds T rounds table)[i]? = some y ∧ y.memory = memoryAfter x.memory (framesBy T rounds table i) := by
  induction rounds generalizing table x with
  | nil => exact ⟨x, before, rfl⟩
  | cons round rounds ih =>
    obtain ⟨y, next, memory⟩ := round_entry T round before
    obtain ⟨z, after, memory'⟩ := ih next
    refine ⟨z, after, ?_⟩
    rw [memory', memory, framesBy, memoryAfter_append]

/-! ## Events -/

/-- The states whose changes are reported. -/
inductive Event where
  | gfdi | turnOnOff
deriving DecidableEq

namespace Event

/-- The state that a frame shows. -/
def read (e : Event) (f : Decoded) : Nat :=
  let shown := match e with
    | gfdi => f.1.gfdi f.2
    | turnOnOff => f.1.turnOff f.2
  if shown = digit 1 then 1 else 0

/-- The state that the last of these frames has shown; a start takes it for 0. -/
def state (e : Event) (frames : List Decoded) : Nat :=
  (frames.getLast?.map e.read).getD 0

/-- The last of these frames has changed the state. -/
def Changed (e : Event) (frames : List Decoded) : Prop :=
  ∃ f, frames.getLast? = some f ∧ e.state frames.dropLast ≠ e.read f

def last : Event → Changes → Nat
  | gfdi, changes => changes.lastGfdiFlag
  | turnOnOff, changes => changes.lastTurnOnOffFlag

def flag : Event → Changes → Nat
  | gfdi, changes => changes.gfdiChangedFlag
  | turnOnOff, changes => changes.turnOnOffChangedFlag

theorem update (e : Event) (before : Changes) (f : Decoded) :
    e.last (before.update (f.1.gfdi f.2) (f.1.turnOff f.2)) = e.read f ∧
      e.flag (before.update (f.1.gfdi f.2) (f.1.turnOff f.2)) = if e.last before ≠ e.read f then 1 else 0 := by
  cases e with
  | gfdi => exact ⟨rfl, rfl⟩
  | turnOnOff => exact ⟨rfl, rfl⟩

theorem last_changesAfter (e : Event) (frames : List Decoded) :
    e.last (changesAfter ⟨0, 0, 0, 0⟩ frames) = e.state frames := by
  induction frames using List.reverseRecOn with
  | nil => cases e <;> rfl
  | append_singleton before f _ =>
    rw [changesAfter, List.foldl_append, List.foldl_cons, List.foldl_nil, (e.update _ f).1, state,
      List.getLast?_append, List.getLast?_singleton]
    rfl

/-- The flag tells of the last frame that was decoded, whenever that was. -/
theorem flag_changesAfter (e : Event) (frames : List Decoded) :
    e.flag (changesAfter ⟨0, 0, 0, 0⟩ frames) = 1 ↔ e.Changed frames := by
  induction frames using List.reverseRecOn with
  | nil =>
    refine iff_of_false ?_ fun changed => nomatch changed
    cases e <;> exact Nat.zero_ne_one
  | append_singleton before f _ =>
    have last := e.last_changesAfter before
    rw [changesAfter] at last
    rw [changesAfter, List.foldl_append, List.foldl_cons, List.foldl_nil, (e.update _ f).2, last, Changed,
      List.getLast?_append, List.getLast?_singleton, List.dropLast_concat]
    split_ifs with differs
    · exact iff_of_true rfl ⟨f, rfl, differs⟩
    · refine iff_of_false not_false ?_
      rintro ⟨g, same, changed⟩
      cases same
      exact differs changed

end Event

end Ecu.Poll
