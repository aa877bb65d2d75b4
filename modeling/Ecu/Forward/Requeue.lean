import Ecu.Forward.Mark

/-!
# Queueing again what was not confirmed

`check_inverter_abnormal_status_sent` sets the records that the server has to `'0'` and lets `change_statusflag1` put
the other ones that were sent back to `'1'`. The function returns with the first record it changes, so it does this
exactly for a store with at most one of them (`requeue_iff`).
-/

namespace Ecu.Forward

variable {q : Queue}

/-! ## What it is for -/

/-- The record waits again if it was sent. -/
def Record.requeue (r : Record q) : Record q :=
  if r.flag = digit 2 then r.withFlag (digit 1) isFlag_one else r

def Line.requeue : Line q → Line q
  | blank => blank
  | record r => record r.requeue

/-- Every record that was sent waits again, everything else is as it was. -/
def Store.requeue (s : Store q) : Store q :=
  s.map fun e => (e.1, e.2.map Line.requeue)

/-- The records that were sent. -/
def Store.sent (s : Store q) : List (Record q) :=
  s.records.filter fun r => r.flag = digit 2

/-! ## Records -/

theorem Record.requeue_sent {r : Record q} (sent : r.flag = digit 2) :
    r.requeue = r.withFlag (digit 1) isFlag_one :=
  if_pos sent

theorem Record.requeue_other {r : Record q} (other : r.flag ≠ digit 2) : r.requeue = r :=
  if_neg other

theorem Line.records_requeue (ls : List (Line q)) :
    Line.records (ls.map Line.requeue) = (Line.records ls).map Record.requeue := by
  induction ls with
  | nil => rfl
  | cons l ls ih =>
    cases l with
    | blank => simpa [Line.requeue] using ih
    | record r => simpa [Line.requeue] using ih

theorem Line.requeue_none {ls : List (Line q)} (none : ∀ r ∈ Line.records ls, r.flag ≠ digit 2) :
    ls.map Line.requeue = ls := by
  conv_rhs => rw [← List.map_id ls]
  apply List.map_congr_left
  intro l mem
  cases l with
  | blank => rfl
  | record r => exact congrArg Line.record (Record.requeue_other (none r (Line.mem_records.2 mem)))

namespace Store

theorem records_requeue (s : Store q) : s.requeue.records = s.records.map Record.requeue := by
  induction s with
  | nil => rfl
  | cons e s ih =>
    have rest : Store.requeue (e :: s) = (e.1, e.2.map Line.requeue) :: Store.requeue s := rfl
    rw [rest, records_cons, records_cons, Line.records_requeue, ih, List.map_append]

theorem requeue_none {s : Store q} (none : ∀ r ∈ s.records, r.flag ≠ digit 2) : s.requeue = s := by
  conv_rhs => rw [← List.map_id s]
  apply List.map_congr_left
  intro e mem
  have lines : e.2.map Line.requeue = e.2 :=
    Line.requeue_none fun r inFile => none r (List.mem_flatMap.2 ⟨e, mem, inFile⟩)
  rw [lines]
  rfl

/-- Where no other record was sent only the one at the place waits again. -/
theorem requeue_fill {p : Place q} {r : Record q} (none : ∀ x ∈ p.preceding ++ (p.sameFile ++ p.laterFiles),
    x.flag ≠ digit 2) :
    (p.fill r).requeue = p.fill r.requeue := by
  have inPart {part : List (Record q)} (inside : ∀ x ∈ part, x ∈ p.preceding ++ (p.sameFile ++ p.laterFiles)) :
      ∀ x ∈ part, x.flag ≠ digit 2 := fun x mem => none x (inside x mem)
  have before : p.before.requeue = p.before := requeue_none (inPart (by simp +contextual [Place.preceding]))
  have above : p.above.map Line.requeue = p.above := Line.requeue_none (inPart (by simp +contextual [Place.preceding]))
  have below : p.below.map Line.requeue = p.below := Line.requeue_none (inPart (by simp +contextual [Place.sameFile]))
  have after : p.after.requeue = p.after := requeue_none (inPart (by simp +contextual [Place.laterFiles]))
  have split : (p.fill r).requeue = p.before.requeue ++
      (p.name, p.above.map Line.requeue ++ .record r.requeue :: p.below.map Line.requeue) :: p.after.requeue := by
    simp [requeue, Place.fill, Line.requeue]
  rw [split, before, above, below, after, Place.fill]

theorem sent_nil {s : Store q} : s.sent = [] ↔ ∀ r ∈ s.records, r.flag ≠ digit 2 := by
  simp [sent, List.filter_eq_nil_iff]

/-- The records that were sent, where the first one is at the place. -/
theorem sent_fill {p : Place q} {r : Record q} (sent : r.flag = digit 2)
    (passed : ∀ x ∈ p.preceding, x.flag ≠ digit 2) :
    (p.fill r).sent = r :: (p.sameFile ++ p.laterFiles).filter fun x => x.flag = digit 2 := by
  have none : p.preceding.filter (fun x => x.flag = digit 2) = [] := by simpa [List.filter_eq_nil_iff] using passed
  rw [Store.sent, Place.records_fill, List.filter_append, none, List.nil_append,
    List.filter_cons_of_pos (by simpa using sent)]

end Store

/-! ## The function -/

/-- It queues again everything that was sent, and changes nothing else, exactly if at most one record was sent. -/
theorem requeue_iff (s : Store .status) : (changeStatusflag1 s.render).2 = s.requeue.render ↔ s.sent.length ≤ 1 := by
  rw [changeStatusflag1_render]
  rcases Store.change_cases (T := fun r => r.flag == digit 2) isFlag_digit.2.1 s with
    ⟨same, none⟩ | ⟨p, r, rfl, hit, passed, done⟩
  · have others : ∀ r ∈ s.records, r.flag ≠ digit 2 := fun r mem => by simpa using none r mem
    rw [same, Store.requeue_none others, Store.sent_nil.2 others]
    exact ⟨fun _ => Nat.zero_le 1, fun _ => rfl⟩
  · have sent : r.flag = digit 2 := by simpa using hit
    have before : ∀ x ∈ p.preceding, x.flag ≠ digit 2 := fun x mem => by simpa using passed x mem
    have count (n : Nat) : n + 1 ≤ 1 ↔ n = 0 := by omega
    rw [done, Store.sent_fill sent before, List.length_cons, count, List.length_eq_zero_iff, List.filter_eq_nil_iff]
    constructor
    · intro same x mem was
      have lines := Store.lines_of_render same
      rw [Store.records_requeue, Place.records_fill, Place.records_fill, List.map_map, List.map_append, List.map_append,
        List.map_cons, List.map_cons] at lines
      have behind := (List.cons.inj (List.append_inj lines (by simp)).2).2
      have line := List.map_inj_left.1 behind x mem
      rw [Function.comp_apply, Record.requeue_sent (by simpa using was)] at line
      refine withFlag_line_ne ?_ line
      rw [show x.flag = digit 2 by simpa using was]
      decide
    · intro none
      have others : ∀ x ∈ p.preceding ++ (p.sameFile ++ p.laterFiles), x.flag ≠ digit 2 := by
        intro x mem
        rcases List.mem_append.1 mem with mem | mem
        · exact before x mem
        · simpa using none x mem
      rw [Store.requeue_fill others, Record.requeue_sent sent]

theorem sampleTime_text : ∀ key ∈ [sampleTime], IsText key := by
  decide

theorem sampleTime_width : [sampleTime].map List.length = Queue.status.widths := by
  decide

/-- A status that was sent. -/
def sampleStatus : Record .status where
  payload := str "APS1300034A123AAA0203000000001"
  keys := [sampleTime]
  flag := digit 2
  payloadText := by decide
  widths := sampleTime_width
  keysText := sampleTime_text
  isFlag := isFlag_digit.2.2
  long := by decide
  fits := by decide

/-- Two statuses were sent and none is confirmed: the second one stays as it is. -/
theorem second_not_requeued :
    ¬ ∀ s : Store .status, (changeStatusflag1 s.render).2 = s.requeue.render := by
  intro claim
  have same := claim [(dayFile sampleTime, [.record sampleStatus, .record sampleStatus])]
  revert same
  decide +kernel

end Ecu.Forward
