import Ecu.Poll.Changes
import Ecu.Socket.Recv

/-!
# Reports of state changes (`ema_control.c`)

After each round two reports name the inverters whose GFDI state (A115) and whose on/off state (A116) has changed, by
the flags. A round without a decoded frame leaves the flags of the one before. So the reports name just the inverters
that have changed in the round exactly when no inverter misses a round right after a change
(`changes_reported_iff`). The buffer of A115 is not cleared: what `malloc` leaves in it gets into the entries.
-/

namespace Ecu.Poll

/-! ## The report -/

def strcpy (dst src : List Byte) : List Byte :=
  cstr src ++ nul :: dst.drop (strlen src + 1)

/-- `PROCESS_RESULT_HEAD` and `PROCESS_RESULT_RECORD_LEN` for each inverter. -/
def resultBuffer : Nat := 51 + 16 * maxInverterCount

/-- An entry is put behind the text: the id, the state where the NUL was, `END`. -/
def appendEntry (buff id : List Byte) (state : Byte) : List Byte :=
  let buff := strcat buff id
  let buff := buff.set (strlen buff) state
  strcat buff (str "END")

/-- The count and the length are written over their placeholders. -/
def writeCounts (count : Nat) (text : List Byte) : List Byte :=
  let n := text.length
  let text := text.set 30 (digit (count / 1000))
  let text := text.set 31 (digit (count / 100 % 10))
  let text := text.set 32 (digit (count / 10 % 10))
  let text := text.set 33 (digit (count % 10))
  let text := if n > 10000 then text.set 5 (digit (n / 10000)) else text
  let text := if n > 1000 then text.set 6 (digit (n / 1000 % 10)) else text
  let text := if n > 100 then text.set 7 (digit (n / 100 % 10)) else text
  let text := if n > 10 then text.set 8 (digit (n / 10 % 10)) else text
  if n > 0 then text.set 9 (digit (n % 10)) else text

def Event.head : Event → List Byte
  | gfdi => str "APS13AAAAAA115AAA1"
  | turnOnOff => str "APS13AAAAAA116AAA1"

/-- The body of both report functions on the memory `mem`: the message that they save, if any. -/
def changedResult (e : Event) (ecuId mem : List Byte) (table : List InverterInfo) : Option (List Byte) :=
  let buff := strcpy mem e.head
  let buff := strcat buff ecuId
  let buff := strcat buff (str "0000")
  let buff := strcat buff (str "00000000000000")
  let buff := strcat buff (str "END")
  let changed := table.filter fun inverter => e.flag inverter.changes = 1
  let buff := changed.foldl
    (fun buff inverter => appendEntry buff inverter.id (if e.last inverter.changes = 0 then digit 0 else digit 1)) buff
  if changed.length > 0 then some (writeCounts changed.length (cstr buff)) else none

/-- `save_gfdi_changed_result`; `mem` is what `malloc` returns. -/
def saveGfdiChangedResult (ecuId mem : List Byte) (table : List InverterInfo) : Option (List Byte) :=
  changedResult .gfdi ecuId mem table

/-- `save_turn_on_off_changed_result` -/
def saveTurnOnOffChangedResult (ecuId mem : List Byte) (table : List InverterInfo) : Option (List Byte) :=
  changedResult .turnOnOff ecuId (memset mem nul resultBuffer) table

/-! ## Texts in a buffer -/

/-- Behind its string the buffer is as the memory was. -/
def Holds (mem buff : List Byte) : Prop :=
  ∀ p, strlen buff < p → buff.drop p = mem.drop p

theorem drop_behind (text rest : List Byte) (b : Byte) {p : Nat} (behind : text.length < p) :
    (text ++ b :: rest).drop p = rest.drop (p - (text.length + 1)) := by
  have split : p = text.length + (p - (text.length + 1) + 1) := by omega
  rw [split, List.drop_length_add_append, List.drop_succ_cons, ← split]

theorem strcpy_holds {mem src : List Byte} : Holds mem (strcpy mem src) ∧ cstr (strcpy mem src) = cstr src := by
  have text : cstr (strcpy mem src) = cstr src := by
    rw [strcpy, (clean_cstr src).cstr_append, cstr_nul, List.append_nil]
  refine ⟨fun p behind => ?_, text⟩
  rw [strlen, text] at behind
  rw [strcpy, drop_behind _ _ _ behind, List.drop_drop, strlen]
  congr 1
  omega

theorem strcat_holds {mem buff : List Byte} (holds : Holds mem buff) (src : List Byte) :
    Holds mem (strcat buff src) := by
  intro p behind
  rw [strlen_strcat] at behind
  have length : (cstr buff ++ cstr src).length = strlen buff + strlen src := List.length_append
  rw [strcat, drop_behind _ _ _ (length ▸ behind), List.drop_drop, length, ← holds p (by omega)]
  congr 1
  omega

/-- The state takes the place of the NUL: the string goes on with what was in the memory. -/
theorem set_holds {mem buff : List Byte} (holds : Holds mem buff) {state : Byte} (printed : state ≠ nul)
    (room : strlen buff < buff.length) :
    cstr (buff.set (strlen buff) state) = cstr buff ++ [state] ++ cstr (mem.drop (strlen buff + 1)) ∧
      Holds mem (buff.set (strlen buff) state) := by
  have string : buff.take (strlen buff) = cstr buff :=
    (List.prefix_iff_eq_take.1 (List.takeWhile_prefix _)).symm
  have shape : buff.set (strlen buff) state = cstr buff ++ state :: mem.drop (strlen buff + 1) := by
    rw [List.set_eq_take_append_cons_drop, if_pos room, holds _ (Nat.lt_succ_self _), string]
  have clean : Clean (cstr buff ++ [state]) := by
    apply (clean_cstr buff).append
    intro b mem
    rwa [List.mem_singleton.1 mem]
  have text : cstr (buff.set (strlen buff) state) = cstr buff ++ [state] ++ cstr (mem.drop (strlen buff + 1)) := by
    rw [shape, List.append_cons, clean.cstr_append]
  refine ⟨text, fun p behind => ?_⟩
  rw [strlen, text, List.length_append, List.length_append, List.length_singleton] at behind
  rw [shape, drop_behind _ _ _ (by omega), List.drop_drop]
  congr 1
  change strlen buff + 1 + (p - (strlen buff + 1)) = p
  unfold strlen at behind ⊢
  omega

/-- What the memory holds between a state and `END`. -/
def garbage (mem : List Byte) (p : Nat) : List Byte :=
  cstr (mem.drop p)

theorem garbage_eq_nil {mem : List Byte} {p : Nat} : garbage mem p = [] ↔ mem.getD p nul = nul := by
  have head : mem.getD p nul = (mem.drop p).headD nul := by
    rw [List.headD_eq_head?_getD, List.head?_drop, List.getD_eq_getElem?_getD]
  rw [head, garbage]
  cases mem.drop p with
  | nil => exact iff_of_true rfl rfl
  | cons b rest =>
    rw [cstr, List.takeWhile_cons, List.headD_cons]
    split_ifs with printed
    · exact iff_of_false not_false (by simpa using printed)
    · exact iff_of_true rfl (by simpa using printed)

/-- An entry as it should be. -/
def entry (id : List Byte) (state : Byte) : List Byte :=
  cstr id ++ [state] ++ str "END"

theorem room_behind (dst src : List Byte) : strlen (strcat dst src) < (strcat dst src).length := by
  rw [strlen_strcat, strcat, List.length_append, List.length_append, List.length_cons, strlen, strlen]
  omega

theorem appendEntry_holds {mem buff : List Byte} (holds : Holds mem buff) {id : List Byte} (hasId : strlen id = 12)
    {state : Byte} (printed : state ≠ nul) :
    Holds mem (appendEntry buff id state) ∧
      cstr (appendEntry buff id state) =
        cstr buff ++ cstr id ++ [state] ++ garbage mem (strlen buff + 13) ++ str "END" := by
  have set := set_holds (strcat_holds holds id) printed (room_behind buff id)
  refine ⟨strcat_holds set.2 _, ?_⟩
  unfold appendEntry
  dsimp only
  rw [cstr_strcat, set.1, cstr_strcat, strlen_strcat, hasId]
  rfl

/-- The entries of a report: at least as long as they should be, and as long only when nothing is between. -/
theorem entries_text {mem buff : List Byte} (holds : Holds mem buff) {entries : List (List Byte × Byte)}
    (shaped : ∀ e ∈ entries, strlen e.1 = 12 ∧ e.2 ≠ nul) :
    let out := entries.foldl (fun buff e => appendEntry buff e.1 e.2) buff
    strlen buff + 16 * entries.length ≤ strlen out ∧
      (strlen out = strlen buff + 16 * entries.length →
        ∀ k < entries.length, mem.getD (strlen buff + 13 + 16 * k) nul = nul) ∧
      ((∀ k < entries.length, mem.getD (strlen buff + 13 + 16 * k) nul = nul) →
        cstr out = cstr buff ++ (entries.map fun e => entry e.1 e.2).flatten) := by
  induction entries generalizing buff with
  | nil =>
    refine ⟨le_refl _, fun _ k small => absurd small (Nat.not_lt_zero k), fun _ => ?_⟩
    rw [List.map_nil, List.flatten_nil, List.append_nil]
    rfl
  | cons e entries ih =>
    obtain ⟨hasId, printed⟩ := shaped e List.mem_cons_self
    obtain ⟨next, text⟩ := appendEntry_holds holds hasId printed
    obtain ⟨long, exactly, texts⟩ := ih next fun f mem => shaped f (List.mem_cons_of_mem e mem)
    have length : strlen (appendEntry buff e.1 e.2) =
        strlen buff + 16 + (garbage mem (strlen buff + 13)).length := by
      rw [strlen, text]
      simp only [List.length_append, List.length_singleton]
      change strlen buff + strlen e.1 + 1 + _ + 3 = _
      omega
    simp only [List.foldl_cons, List.length_cons]
    refine ⟨by omega, fun total => ?_, fun cleared => ?_⟩
    · have none : garbage mem (strlen buff + 13) = [] := List.eq_nil_of_length_eq_zero (by omega)
      rw [none, List.length_nil] at length
      intro k small
      cases k with
      | zero => exact garbage_eq_nil.1 none
      | succ k =>
        have place : strlen buff + 13 + 16 * (k + 1) = strlen (appendEntry buff e.1 e.2) + 13 + 16 * k := by omega
        rw [place]
        exact exactly (by omega) k (by omega)
    · have none : garbage mem (strlen buff + 13) = [] := garbage_eq_nil.2 (cleared 0 (Nat.succ_pos _))
      rw [none, List.length_nil] at length
      rw [texts, text, none, List.map_cons, List.flatten_cons, entry]
      · simp only [List.append_nil, List.append_assoc]
      · intro k small
        have place : strlen (appendEntry buff e.1 e.2) + 13 + 16 * k = strlen buff + 13 + 16 * (k + 1) := by omega
        rw [place]
        exact cleared (k + 1) (Nat.succ_lt_succ small)

/-! ## Reports and what they should be -/

/-- The text before the entries. -/
def reportHead (e : Event) (ecuId : List Byte) : List Byte :=
  e.head ++ cstr ecuId ++ str "0000" ++ str "00000000000000" ++ str "END"

/-- The report with these entries. -/
def report (e : Event) (ecuId : List Byte) (entries : List (List Byte)) : Option (List Byte) :=
  if entries.length > 0 then some (writeCounts entries.length (reportHead e ecuId ++ entries.flatten)) else none

theorem length_writeCounts (count : Nat) (text : List Byte) : (writeCounts count text).length = text.length := by
  unfold writeCounts
  dsimp only
  split_ifs <;> simp only [List.length_set]

/-- The id and the state that an entry shows. -/
def shown (e : Event) (inverter : InverterInfo) : List Byte × Byte :=
  (inverter.id, if e.last inverter.changes = 0 then digit 0 else digit 1)

/-- The entries of a report, by the flags. -/
def flagged (e : Event) (table : List InverterInfo) : List (Option (List Byte)) :=
  table.map fun inverter =>
    if e.flag inverter.changes = 1 then some (entry (shown e inverter).1 (shown e inverter).2) else none

theorem flagged_reduceOption (e : Event) (table : List InverterInfo) :
    (flagged e table).reduceOption =
      ((table.filter fun inverter => e.flag inverter.changes = 1).map (shown e)).map fun s => entry s.1 s.2 := by
  induction table with
  | nil => rfl
  | cons inverter table ih =>
    rw [flagged, List.map_cons, List.filter_cons]
    by_cases changed : e.flag inverter.changes = 1
    · rw [if_pos changed, if_pos (decide_eq_true changed), List.reduceOption_cons_of_some, List.map_cons, List.map_cons,
        ← ih]
      rfl
    · rw [if_neg changed, if_neg (by simpa using changed), List.reduceOption_cons_of_none, ← ih]
      rfl

/-- Where one list of options lacks entries of the other, it has fewer. -/
theorem reduceOption_sublist {α : Type} {fewer all : List (Option α)}
    (below : List.Forall₂ (fun a b => a = none ∨ a = b) fewer all) :
    fewer.reduceOption.Sublist all.reduceOption ∧
      (fewer.reduceOption.length = all.reduceOption.length → fewer = all) := by
  induction below with
  | nil => exact ⟨List.Sublist.refl _, fun _ => rfl⟩
  | @cons a b fewer all first _ ih =>
    rcases first with rfl | rfl
    · cases b with
      | none =>
        refine ⟨ih.1, fun same => ?_⟩
        rw [ih.2 same]
      | some b =>
        refine ⟨(ih.1).cons b, fun same => ?_⟩
        have less := ih.1.length_le
        rw [List.reduceOption_cons_of_none, List.reduceOption_cons_of_some, List.length_cons] at same
        omega
    · cases a with
      | none =>
        refine ⟨ih.1, fun same => ?_⟩
        rw [ih.2 same]
      | some a =>
        refine ⟨ih.1.cons_cons a, fun same => ?_⟩
        rw [List.reduceOption_cons_of_some, List.reduceOption_cons_of_some, List.length_cons, List.length_cons] at same
        rw [ih.2 (Nat.succ.inj same)]

theorem clean_str (e : Event) : Clean e.head := by
  cases e <;> decide

theorem cstr_of_cleanText {text : List Byte} (clean : Clean text) : cstr text = text := by
  rw [← List.append_nil text, clean.cstr_append]
  rfl

theorem length_reportHead (e : Event) (ecuId : List Byte) : (reportHead e ecuId).length = 39 + strlen ecuId := by
  have head : e.head.length = 18 := by cases e <;> rfl
  have zeros : (str "00000000000000").length = 14 := rfl
  have count : (str "0000").length = 4 := rfl
  have ending : (str "END").length = 3 := rfl
  rw [reportHead, List.length_append, List.length_append, List.length_append, List.length_append, head, zeros, count,
    ending, strlen]
  omega

theorem reportHead_length (e : Event) {ecuId : List Byte} (hasId : strlen ecuId = 12) :
    (reportHead e ecuId).length = 51 := by
  rw [length_reportHead, hasId]

theorem entry_length {id : List Byte} (hasId : strlen id = 12) (state : Byte) : (entry id state).length = 16 := by
  rw [entry, List.length_append, List.length_append, ← strlen, hasId]
  rfl

theorem length_flatten_entries {entries : List (List Byte)} (long : ∀ e ∈ entries, e.length = 16) :
    entries.flatten.length = 16 * entries.length := by
  induction entries with
  | nil => rfl
  | cons e entries ih =>
    rw [List.flatten_cons, List.length_append, long e List.mem_cons_self,
      ih fun f mem => long f (List.mem_cons_of_mem e mem), List.length_cons]
    omega

/-- The text that a report function builds. -/
theorem changedResult_built (e : Event) (ecuId mem : List Byte) {table : List InverterInfo}
    (ids : ∀ x ∈ table, strlen x.id = 12) :
    ∃ text, changedResult e ecuId mem table =
        (if (flagged e table).reduceOption.length > 0 then
          some (writeCounts (flagged e table).reduceOption.length text) else none) ∧
      39 + strlen ecuId + 16 * (flagged e table).reduceOption.length ≤ text.length ∧
      (text.length = 39 + strlen ecuId + 16 * (flagged e table).reduceOption.length →
        ∀ k < (flagged e table).reduceOption.length, mem.getD (39 + strlen ecuId + 13 + 16 * k) nul = nul) ∧
      ((∀ k < (flagged e table).reduceOption.length, mem.getD (39 + strlen ecuId + 13 + 16 * k) nul = nul) →
        text = reportHead e ecuId ++ (flagged e table).reduceOption.flatten) := by
  let changed := table.filter fun inverter => e.flag inverter.changes = 1
  let start := strcat (strcat (strcat (strcat (strcpy mem e.head) ecuId) (str "0000"))
    (str "00000000000000")) (str "END")
  have holds : Holds mem start :=
    strcat_holds (strcat_holds (strcat_holds (strcat_holds strcpy_holds.1 _) _) _) _
  have text : cstr start = reportHead e ecuId := by
    simp only [start, cstr_strcat, strcpy_holds.2, cstr_of_cleanText (clean_str e)]
    rfl
  have length : strlen start = 39 + strlen ecuId := by rw [strlen, text, length_reportHead]
  have shaped : ∀ s ∈ changed.map (shown e), strlen s.1 = 12 ∧ s.2 ≠ nul := by
    intro s mem
    obtain ⟨x, inChanged, rfl⟩ := List.mem_map.1 mem
    refine ⟨ids x (List.mem_of_mem_filter inChanged), ?_⟩
    unfold shown
    dsimp only
    split <;> decide
  have built := entries_text holds shaped
  rw [List.foldl_map, List.length_map, ← flagged_reduceOption, length, text] at built
  have count : (flagged e table).reduceOption.length = changed.length := by
    rw [flagged_reduceOption, List.length_map, List.length_map]
  rw [count]
  exact ⟨_, rfl, built.1, built.2.1, built.2.2⟩

section Report

variable (e : Event) {ecuId : List Byte} (hasId : strlen ecuId = 12) (mem : List Byte) {table : List InverterInfo}
  (ids : ∀ x ∈ table, strlen x.id = 12)

include hasId ids

/-- A report is the one with fewer entries only when it has no more, and nothing stands between. -/
theorem changedResult_eq_iff {fewer : List (Option (List Byte))}
    (below : List.Forall₂ (fun a b => a = none ∨ a = b) fewer (flagged e table)) :
    changedResult e ecuId mem table = report e ecuId fewer.reduceOption ↔
      fewer = flagged e table ∧ ∀ k < fewer.reduceOption.length, mem.getD (64 + 16 * k) nul = nul := by
  obtain ⟨sublist, same⟩ := reduceOption_sublist below
  obtain ⟨text, result, long, exactly, texts⟩ := changedResult_built e ecuId mem ids
  rw [hasId] at long exactly texts
  have less := sublist.length_le
  rw [result, report]
  constructor
  · intro equal
    have all : fewer.reduceOption.length = (flagged e table).reduceOption.length ∧
        ∀ k < (flagged e table).reduceOption.length, mem.getD (64 + 16 * k) nul = nul := by
      by_cases some : fewer.reduceOption.length > 0
      · rw [if_pos some, if_pos (lt_of_lt_of_le some less)] at equal
        have lengths := congrArg List.length (Option.some_inj.1 equal)
        have shaped : ∀ s ∈ fewer.reduceOption, s.length = 16 := by
          intro s inFewer
          have inFlagged := sublist.subset inFewer
          rw [flagged_reduceOption, List.map_map] at inFlagged
          obtain ⟨x, inChanged, rfl⟩ := List.mem_map.1 inFlagged
          exact entry_length (ids x (List.mem_of_mem_filter inChanged)) _
        rw [length_writeCounts, length_writeCounts, List.length_append, reportHead_length e hasId,
          length_flatten_entries shaped] at lengths
        exact ⟨by omega, exactly (by omega)⟩
      · rw [if_neg some] at equal
        have none : ¬ (flagged e table).reduceOption.length > 0 := fun more => by
          rw [if_pos more] at equal
          exact absurd equal nofun
        exact ⟨by omega, fun k small => absurd small (by omega)⟩
    exact ⟨same all.1, fun k small => all.2 k (lt_of_lt_of_le small less)⟩
  · rintro ⟨rfl, cleared⟩
    rw [texts cleared]

end Report

/-! ## Reports of a run -/

/-- The entry of each inverter whose state has changed in the round: from the state of the frame decoded last before
to that of the frame decoded now. -/
def changedEntries (e : Event) (T : Target) (rounds : List Round) (round : Round) (table : List InverterInfo) :
    List (Option (List Byte)) :=
  table.mapIdx fun i x =>
    (takenBy T round (pollRounds T rounds table) i).bind fun f =>
      if e.state (framesBy T rounds table i) ≠ e.read f then some (entry x.id (digit (e.read f))) else none

theorem Event.read_lt (e : Event) (f : Decoded) : e.read f = 0 ∨ e.read f = 1 := by
  unfold Event.read
  dsimp only
  exact (ite_eq_or_eq _ _ _).symm

/-- An inverter that was decoded in the round is named if its state has changed. One that was not is named if the
frame decoded last has changed it. -/
theorem flagged_entry (e : Event) {frames : List Decoded} (taken : Option Decoded) {x y : InverterInfo}
    (id : y.id = x.id) (changes : y.changes = changesAfter ⟨0, 0, 0, 0⟩ (frames ++ taken.toList)) :
    let named := if e.flag y.changes = 1 then some (entry (shown e y).1 (shown e y).2) else none
    let changed := taken.bind fun f =>
      if e.state frames ≠ e.read f then some (entry x.id (digit (e.read f))) else none
    (changed = none ∨ changed = named) ∧ (changed = named ↔ (taken = none → ¬ e.Changed frames)) := by
  have flag : e.flag y.changes = 1 ↔ e.Changed (frames ++ taken.toList) := by
    rw [changes]
    exact e.flag_changesAfter _
  have last : e.last y.changes = e.state (frames ++ taken.toList) := by
    rw [changes]
    exact e.last_changesAfter _
  cases taken with
  | none =>
    rw [Option.toList_none, List.append_nil] at flag
    refine ⟨.inl rfl, ?_⟩
    by_cases changed : e.Changed frames
    · rw [if_pos (flag.2 changed)]
      exact iff_of_false (Option.some_ne_none _).symm fun still => still rfl changed
    · rw [if_neg fun named => changed (flag.1 named)]
      exact iff_of_true rfl fun _ => changed
  | some f =>
    have state : e.last y.changes = e.read f := by
      rw [last, Event.state, Option.toList_some, List.getLast?_append, List.getLast?_singleton]
      rfl
    have differs : e.flag y.changes = 1 ↔ e.state frames ≠ e.read f := by
      rw [flag, Event.Changed, Option.toList_some, List.getLast?_append, List.getLast?_singleton, List.dropLast_concat]
      constructor
      · rintro ⟨g, same, changed⟩
        cases same
        exact changed
      · intro changed
        exact ⟨f, rfl, changed⟩
    have digits : (if e.last y.changes = 0 then digit 0 else digit 1) = digit (e.read f) := by
      rw [state]
      rcases e.read_lt f with low | high
      · rw [low]
        rfl
      · rw [high]
        rfl
    have same : (if e.flag y.changes = 1 then some (entry (shown e y).1 (shown e y).2) else none) =
        if e.state frames ≠ e.read f then some (entry x.id (digit (e.read f))) else none := by
      rw [shown, digits, id]
      by_cases changed : e.state frames ≠ e.read f
      · rw [if_pos changed, if_pos (differs.2 changed)]
      · rw [if_neg changed, if_neg fun named => changed (differs.1 named)]
    exact ⟨.inr same.symm, iff_of_true same.symm fun absent => absurd absent (Option.some_ne_none f)⟩

theorem pollRound_length (T : Target) (round : Round) (table : List InverterInfo) :
    (pollRound T round.ecu round.answers table).length = table.length := by
  have entries := pollRound_getElem? T round.ecu round.answers table
  apply le_antisymm
  · rw [← List.getElem?_eq_none_iff, entries, List.getElem?_eq_none_iff.2 (le_refl _)]
    rfl
  · have none := entries (pollRound T round.ecu round.answers table).length
    rw [List.getElem?_eq_none_iff.2 (le_refl _)] at none
    exact List.getElem?_eq_none_iff.1 (Option.map_eq_none_iff.1 none.symm)

theorem pollRounds_length (T : Target) (rounds : List Round) (table : List InverterInfo) :
    (pollRounds T rounds table).length = table.length := by
  induction rounds generalizing table with
  | nil => rfl
  | cons round rounds ih => exact (ih _).trans (pollRound_length T round table)

/-- The flags name every inverter that has changed; they name another one exactly when it has missed the round after
a change. -/
theorem changedEntries_flagged (e : Event) (T : Target) (rounds : List Round) (round : Round)
    {table : List InverterInfo} (on : ∀ x ∈ table, PowerOn x) :
    let after := pollRound T round.ecu round.answers (pollRounds T rounds table)
    List.Forall₂ (fun a b => a = none ∨ a = b) (changedEntries e T rounds round table) (flagged e after) ∧
      (changedEntries e T rounds round table = flagged e after ↔
        ∀ i < table.length, takenBy T round (pollRounds T rounds table) i = none →
          ¬ e.Changed (framesBy T rounds table i)) := by
  intro after
  have lengths : (changedEntries e T rounds round table).length = (flagged e after).length := by
    rw [changedEntries, List.length_mapIdx, flagged, List.length_map, pollRound_length, pollRounds_length]
  have size : (changedEntries e T rounds round table).length = table.length := List.length_mapIdx
  have at_ (i : Nat) (inside : i < table.length) (left : i < (changedEntries e T rounds round table).length)
      (right : i < (flagged e after).length) :
      ((changedEntries e T rounds round table)[i] = none ∨
        (changedEntries e T rounds round table)[i] = (flagged e after)[i]) ∧
      ((changedEntries e T rounds round table)[i] = (flagged e after)[i] ↔
        (takenBy T round (pollRounds T rounds table) i = none → ¬ e.Changed (framesBy T rounds table i))) := by
    have start : table[i].changes = ⟨0, 0, 0, 0⟩ := by
      rw [on table[i] (List.getElem_mem inside)]
      rfl
    obtain ⟨y, before, memory⟩ := run_entry T rounds (List.getElem?_eq_getElem inside)
    obtain ⟨z, next, memory'⟩ := round_entry T round before
    rw [memory, ← memoryAfter_append] at memory'
    have id : z.id = table[i].id := congrArg Memory.id memory'
    have changes : z.changes = changesAfter table[i].changes _ := congrArg Memory.changes memory'
    obtain ⟨there, same⟩ := List.getElem?_eq_some_iff.1 next
    have spec := flagged_entry e (takenBy T round (pollRounds T rounds table) i) (x := table[i]) (y := z)
      id (by rw [changes, start])
    simp only [changedEntries, List.getElem_mapIdx, flagged, List.getElem_map]
    rw [same]
    exact spec
  constructor
  · apply List.forall₂_iff_get.2
    refine ⟨lengths, fun i left right => ?_⟩
    exact (at_ i (size ▸ left) left right).1
  · constructor
    · intro equal i inside
      have left : i < (changedEntries e T rounds round table).length := size ▸ inside
      apply (at_ i inside left (lengths ▸ left)).2.1
      simp only [equal]
    · intro missed
      apply List.ext_getElem lengths
      intro i left right
      exact (at_ i (size ▸ left) left right).2.2 (missed i (size ▸ left))

/-- Both reports of every round name just the inverters that have changed in it exactly when no inverter misses the
round after a change, and the memory of A115 is clear where its entries go. -/
theorem changes_reported_iff (T : Target) (rounds : List Round) (round : Round) (mem : List Byte)
    {table : List InverterInfo} (on : ∀ x ∈ table, PowerOn x) (ids : ∀ x ∈ table, Record.HasId x.toInverter)
    (size : table.length ≤ maxInverterCount) (ecuId : strlen round.ecu.id = 12) :
    let after := pollRound T round.ecu round.answers (pollRounds T rounds table)
    (saveGfdiChangedResult round.ecu.id mem after =
          report .gfdi round.ecu.id (changedEntries .gfdi T rounds round table).reduceOption ∧
        saveTurnOnOffChangedResult round.ecu.id mem after =
          report .turnOnOff round.ecu.id (changedEntries .turnOnOff T rounds round table).reduceOption) ↔
      (∀ e : Event, ∀ i < table.length, takenBy T round (pollRounds T rounds table) i = none →
          ¬ e.Changed (framesBy T rounds table i)) ∧
        ∀ k < (changedEntries .gfdi T rounds round table).reduceOption.length,
          mem.getD (64 + 16 * k) nul = nul := by
  intro after
  have ids' : ∀ y ∈ after, strlen y.id = 12 := by
    intro y mem
    obtain ⟨i, there⟩ := List.mem_iff_getElem?.1 mem
    have inside : i < table.length := by
      rw [← pollRounds_length T rounds table, ← pollRound_length T round]
      exact (List.getElem?_eq_some_iff.1 there).1
    obtain ⟨y', before, memory⟩ := run_entry T rounds (List.getElem?_eq_getElem inside)
    obtain ⟨z, next, memory'⟩ := round_entry T round before
    obtain rfl := Option.some_inj.1 (there.symm.trans next)
    rw [memory] at memory'
    have id : y.id = table[i].id := congrArg Memory.id memory'
    rw [id]
    exact ids _ (List.getElem_mem inside)
  have gfdi := changedEntries_flagged .gfdi T rounds round on
  have turnOnOff := changedEntries_flagged .turnOnOff T rounds round on
  have gfdiReport := changedResult_eq_iff .gfdi ecuId mem ids' gfdi.1
  have turnReport := changedResult_eq_iff .turnOnOff ecuId (memset mem nul resultBuffer) ids' turnOnOff.1
  rw [gfdi.2] at gfdiReport
  rw [turnOnOff.2] at turnReport
  have cleared : ∀ k < (changedEntries .turnOnOff T rounds round table).reduceOption.length,
      (memset mem nul resultBuffer).getD (64 + 16 * k) nul = nul := by
    intro k small
    have few := List.reduceOption_length_le (changedEntries .turnOnOff T rounds round table)
    rw [changedEntries, List.length_mapIdx] at few
    have inside : 64 + 16 * k < resultBuffer := by
      change 64 + 16 * k < 51 + 16 * 120
      change table.length ≤ 120 at size
      unfold changedEntries at small
      omega
    rw [memset, memcpy, List.getD_append _ _ _ _ (by rwa [List.length_replicate]), List.getD_eq_getElem?_getD,
      List.getElem?_replicate, if_pos inside]
    rfl
  rw [saveGfdiChangedResult, saveTurnOnOffChangedResult, gfdiReport, turnReport]
  constructor
  · rintro ⟨⟨first, clear⟩, second, -⟩
    refine ⟨fun e => ?_, clear⟩
    cases e with
    | gfdi => exact first
    | turnOnOff => exact second
  · rintro ⟨missed, clear⟩
    exact ⟨⟨missed .gfdi, clear⟩, missed .turnOnOff, cleared⟩

/-- A reply of the sample inverter that shows the GFDI state 1. -/
def gfdiReply : List Byte :=
  [0xFC, 0xFC, 0x12, 0x34, 0, 0, 0x70, 0x10, 0x00, 0x00, 0x00, 0x01] ++ [0xFB, 0xFB, 0x06, 0xBB] ++
    List.replicate 26 0 ++ [0x10] ++ List.replicate 55 0 ++ [0xFE, 0xFE]

/-- A round of an ECU with an id. -/
def changeRound (reply : Option (List Byte)) : Round where
  ecu := ⟨str "203000000001", 0, 0, 0, 0, 0, [], 1⟩
  answers _ _ := ⟨true, none, reply⟩

theorem sample_hasId : ∀ x ∈ [sampleInverter], Record.HasId x.toInverter := by
  intro x mem
  rw [List.mem_singleton.1 mem]
  decide

theorem changes_reported_sample :
    (saveGfdiChangedResult (str "203000000001") []
            (pollRound sampleTarget (changeRound gfdiReply).ecu (changeRound gfdiReply).answers [sampleInverter]) =
          report .gfdi (str "203000000001")
            (changedEntries .gfdi sampleTarget [] (changeRound gfdiReply) [sampleInverter]).reduceOption ∧
        saveTurnOnOffChangedResult (str "203000000001") []
            (pollRound sampleTarget (changeRound gfdiReply).ecu (changeRound gfdiReply).answers [sampleInverter]) =
          report .turnOnOff (str "203000000001")
            (changedEntries .turnOnOff sampleTarget [] (changeRound gfdiReply) [sampleInverter]).reduceOption) ↔
      (∀ e : Event, ∀ i < 1, takenBy sampleTarget (changeRound gfdiReply) [sampleInverter] i = none →
          ¬ e.Changed (framesBy sampleTarget [] [sampleInverter] i)) ∧
        ∀ k < (changedEntries .gfdi sampleTarget [] (changeRound gfdiReply) [sampleInverter]).reduceOption.length,
          ([] : List Byte).getD (64 + 16 * k) nul = nul :=
  changes_reported_iff sampleTarget [] (changeRound gfdiReply) [] sample_on sample_hasId (by decide) (by decide)

/-- The round after a change is missed: the report names the inverter again. -/
theorem change_reported_again :
    ¬ ∀ (T : Target) (rounds : List Round) (round : Round) (mem : List Byte) (table : List InverterInfo),
      (∀ x ∈ table, PowerOn x) → (∀ x ∈ table, Record.HasId x.toInverter) → table.length ≤ maxInverterCount →
      strlen round.ecu.id = 12 →
      saveGfdiChangedResult round.ecu.id mem
            (pollRound T round.ecu round.answers (pollRounds T rounds table)) =
          report .gfdi round.ecu.id (changedEntries .gfdi T rounds round table).reduceOption ∧
        saveTurnOnOffChangedResult round.ecu.id mem
            (pollRound T round.ecu round.answers (pollRounds T rounds table)) =
          report .turnOnOff round.ecu.id (changedEntries .turnOnOff T rounds round table).reduceOption := by
  intro claim
  have exact := (claim sampleTarget [changeRound gfdiReply] (changeRound none) [] [sampleInverter] sample_on
    sample_hasId (by decide) (by decide)).1
  revert exact
  decide +kernel

end Ecu.Poll
